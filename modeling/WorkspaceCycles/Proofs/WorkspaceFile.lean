import Mathlib
import WorkspaceCycles.Proofs.PathText
import WorkspaceCycles.Proofs.RefusedPlaces
import WorkspaceCycles.Workspace

/-!
What can come of a workspace file. Whatever its bytes are, the packages are found or the fault is
told as one of the workspace, unless the bytes are no text, a value of YAML cannot be made out, what
should be patterns has no members, a pattern cannot be followed to its end, or the manifest of a
package is nested too deep.
-/

namespace WorkspaceCycles

theorem SearchStep.hasTwoStars_iff {s : List Char} : hasTwoStars s = true ↔ ['*', '*'] <:+: s := by
  fun_induction hasTwoStars s with
  | case1 rest => exact ⟨fun _ => ⟨[], rest, rfl⟩, fun _ => rfl⟩
  | case2 c rest hne ih =>
    rw [ih, List.infix_cons_iff]
    constructor
    · exact .inr
    · rintro (⟨more, hm⟩ | h)
      · cases hm
        exact (hne more rfl rfl).elim
      · exact h
  | case3 => simp

inductive IsMalformed (pattern : String) : Prop
  | absolute (h : pattern.toList.head? = some '/')
  | nameless (h : (Path.ofString pattern).parts = [])
  | mixedStars {name : String} (hname : name ∈ (Path.ofString pattern).parts) (hne : name ≠ "**")
      (hstars : ['*', '*'] <:+: name.toList)

theorem Path.isAbsolute_ofString (s : String) :
    (Path.ofString s).isAbsolute = true ↔ s.toList.head? = some '/' := by
  rw [List.head?_eq_some_iff]
  unfold ofString isAbsolute anchorOf
  split <;> simp_all

theorem SearchStep.exists_ofPart_iff {part : String} :
    (∃ step, ofPart part = .ok step) ↔ part = "**" ∨ ¬ ['*', '*'] <:+: part.toList := by
  unfold ofPart anyFoldersText
  rw [← hasTwoStars_iff]
  split
  · rename_i h
    exact ⟨fun _ => .inl h, fun _ => ⟨_, rfl⟩⟩
  · rename_i h
    split
    · rename_i hstars
      simp [h, hstars]
    · rename_i hstars
      refine ⟨fun _ => .inr hstars, fun _ => ?_⟩
      split <;> exact ⟨_, rfl⟩

theorem SearchStep.exists_ofPattern_iff {pattern : String} :
    (∃ steps, ofPattern pattern = .ok steps) ↔ ¬ IsMalformed pattern := by
  unfold ofPattern
  simp only [Path.isAbsolute_ofString]
  split
  · rename_i h
    exact ⟨fun ⟨_, he⟩ => (nomatch he), fun hm => absurd (.absolute h) hm⟩
  · rename_i habsolute
    split
    · rename_i h
      exact ⟨fun ⟨_, he⟩ => (nomatch he), fun hm => absurd (.nameless h) hm⟩
    · rename_i hnameless
      constructor
      · rintro ⟨steps, hsteps⟩ (h | h | ⟨hname, hne, hstars⟩)
        · exact habsolute h
        · exact hnameless h
        · obtain ⟨step, -, hstep⟩ := (mem_of_mapM_eq_ok hsteps).1 _ hname
          rcases exists_ofPart_iff.mp ⟨step, hstep⟩ with he | hs
          · exact hne he
          · exact hs hstars
      · intro hm
        apply exists_mapM_eq_ok
        intro part hpart
        apply exists_ofPart_iff.mpr
        by_cases hne : part = "**"
        · exact .inl hne
        · exact .inr fun hstars => hm (.mixedStars hpart hne hstars)

namespace FileTree

inductive IsUnsearchable (t : FileTree) (folder : Path) (pattern : String) : Prop
  | tooDeep (h : t.limits.isTooDeep (Path.ofString pattern) folder)
  | malformed (h : IsMalformed pattern)
  | refused {steps : List SearchStep} {q : Path} (hsteps : SearchStep.ofPattern pattern = .ok steps)
      (hq : t.Visits q steps folder) (h : t.isRefused q)

theorem exists_find_iff {t : FileTree} {folder : Path} {pattern : String} :
    (∃ places, t.find folder pattern = .ok places) ↔ ¬ t.IsUnsearchable folder pattern := by
  constructor
  · rintro ⟨places, h⟩ (hdeep | hmalformed | ⟨hsteps, hq, hrefused⟩)
    · simp only [find, if_pos hdeep] at h
      cases h
    · obtain ⟨steps, hsteps, -⟩ := exists_search_of_find h
      exact SearchStep.exists_ofPattern_iff.mp ⟨steps, hsteps⟩ hmalformed
    · obtain ⟨p, hp⟩ := Option.isSome_iff_exists.mp (isSome_stopOf?_iff.mpr ⟨_, hq, hrefused⟩)
      simp only [find, hsteps, bind, Except.bind, hp] at h
      split at h <;> cases h
  · intro hno
    obtain ⟨steps, hsteps⟩ := SearchStep.exists_ofPattern_iff.mpr fun h => hno (.malformed h)
    have hdeep : t.limits.isTooDeep (Path.ofString pattern) folder = false :=
      Bool.eq_false_iff.mpr fun h => hno (.tooDeep h)
    have hstop : t.stopOf? steps folder = none := by
      rw [← Option.not_isSome_iff_eq_none, isSome_stopOf?_iff]
      rintro ⟨q, hq, hrefused⟩
      exact hno (.refused hsteps hq hrefused)
    exact ⟨t.search steps folder, find_eq_search hdeep hsteps hstop⟩

def IsBelow (p folder : Path) : Prop :=
  ∃ names, p = folder.join ⟨.relative, names⟩

theorem isBelow_refl (p : Path) : IsBelow p p :=
  ⟨[], p.join_nil.symm⟩

theorem IsBelow.of_child {p q : Path} {name : String} (h : IsBelow p (q.child name)) :
    IsBelow p q := by
  obtain ⟨names, rfl⟩ := h
  exact ⟨name :: names, q.child_join name names⟩

theorem IsBelow.trans {p q r : Path} (h : IsBelow p q) (h' : IsBelow q r) : IsBelow p r := by
  obtain ⟨names, rfl⟩ := h
  obtain ⟨names', rfl⟩ := h'
  exact ⟨names' ++ names, r.join_join names' names⟩

theorem IsBelow.below?_eq {p folder : Path} (h : IsBelow p folder) :
    ∃ names, p.below? folder = some names := by
  obtain ⟨names, rfl⟩ := h
  exact ⟨names, folder.below?_join names⟩

theorem isBelow_of_mem_foldersFrom {t : FileTree} {p q : Path} (h : p ∈ t.foldersFrom q) :
    IsBelow p q := by
  unfold foldersFrom at h
  split at h
  · rcases List.mem_cons.mp h with rfl | h
    · exact isBelow_refl p
    · obtain ⟨d, -, hd⟩ := List.mem_filterMap.mp h
      split at hd
      · cases hd
        exact ⟨d.1, rfl⟩
      · cases hd
  · cases h

theorem isBelow_of_mem_search {t : FileTree} {steps : List SearchStep} {p q : Path}
    (h : p ∈ t.search steps q) : IsBelow p q := by
  induction steps generalizing q with
  | nil =>
    rw [List.mem_singleton.mp h]
    exact isBelow_refl q
  | cons step steps ih =>
    cases step with
    | name name =>
      simp only [search] at h
      split at h
      · exact (ih h).of_child
      · cases h
    | glob pattern =>
      simp only [search] at h
      obtain ⟨r, hr, h⟩ := List.mem_flatMap.mp h
      obtain ⟨name, -, rfl⟩ := List.mem_map.mp hr
      split at h
      · exact (ih h).of_child
      · cases h
    | anyFolders =>
      rw [search, List.mem_eraseDups] at h
      obtain ⟨r, hr, h⟩ := List.mem_flatMap.mp h
      exact (ih h).trans (isBelow_of_mem_foldersFrom hr)

end FileTree

inductive Value.IsScalar : Value → Prop
  | bool (b : Bool) : IsScalar (.bool b)
  | int (n : Int) : IsScalar (.int n)
  | float (x : Float) : IsScalar (.float x)
  | date : IsScalar .date
  | moment : IsScalar .moment

def Json.NestsTooDeep (levels : Nat) (bytes : List UInt8) : Prop :=
  ∃ text kind, Text.Utf8.decode bytes = .ok text ∧
    readWithin levels (Text.unifyNewlines text) = .error (.tooDeep kind)

namespace Package

def IsTooDeep (t : FileTree) (folder : Path) : Prop :=
  ∃ bytes, t.read (folder.child manifestName) = .ok bytes ∧
    Json.NestsTooDeep t.limits.levels bytes

theorem load_eq_tooDeep_iff {t : FileTree} {folder : Path} {kind : String} {source : List Char} :
    load t folder = .error (.json (.tooDeep kind) source) ↔
      t.readText (folder.child manifestName) = .ok source ∧
        Json.readWithin t.limits.levels source = .error (.tooDeep kind) := by
  unfold load
  cases t.readText (folder.child manifestName) with
  | error fault => simp [Except.mapError, bind, Except.bind]
  | ok text =>
    cases hread : Json.readWithin t.limits.levels text with
    | error fault =>
      simp only [Except.mapError, bind, Except.bind, hread, Except.error.injEq,
        ManifestFault.json.injEq, Except.ok.injEq]
      constructor
      · rintro ⟨rfl, rfl⟩
        exact ⟨rfl, hread⟩
      · rintro ⟨rfl, h⟩
        rw [hread] at h
        exact ⟨Except.error.inj h, rfl⟩
    | ok manifest =>
      simp only [Except.mapError, bind, Except.bind, hread, Except.ok.injEq]
      constructor
      · intro h
        split at h <;> cases h
      · rintro ⟨rfl, h⟩
        rw [hread] at h
        cases h

theorem isTooDeep_iff {t : FileTree} {folder : Path} : IsTooDeep t folder ↔
    ∃ kind source, load t folder = .error (.json (.tooDeep kind) source) := by
  simp only [IsTooDeep, load_eq_tooDeep_iff, FileTree.readText_eq_ok_iff]
  constructor
  · rintro ⟨bytes, hr, text, kind, hd, hread⟩
    exact ⟨kind, _, ⟨bytes, text, hr, hd, rfl⟩, hread⟩
  · rintro ⟨kind, -, ⟨bytes, text, hr, hd, rfl⟩, hread⟩
    exact ⟨bytes, hr, text, kind, hd, hread⟩

end Package

namespace Workspace

inductive IsUnfollowed (t : FileTree) (root : Path) (exclusions : List String) (pattern : String) :
    Prop
  | unsearchable (hroot : pattern ≠ "" ∧ pattern ≠ ".") (h : t.IsUnsearchable root pattern)
  | refused {places : List Path} {p q : Path} (hplaces : placesOf t root pattern = .ok places)
      (hp : p ∈ places) (hq : q ∈ lookedUp t root exclusions p) (h : t.isRefused q)

/-- What a workspace file may hold that makes the search for packages fail with a fault that is not
one of the workspace. -/
inductive Unanswered (t : FileTree) (root : Path) (bytes : List UInt8) : Prop
  | noText {error : Text.Utf8.DecodeError} (h : Text.Utf8.decode bytes = .error error)
  | noValue {text : List Char} {fault : Yaml.Fault} (h : Text.Utf8.decode bytes = .ok text)
      (hread : Yaml.readWithin t.limits.isTooNested (Text.unifyNewlines text) = .error fault)
      (hfault : fault ≠ .malformed)
  | noMembers {text : List Char} {fields : List (String × Value)} {given : Value}
      (h : Text.Utf8.decode bytes = .ok text)
      (hread : Yaml.readWithin t.limits.isTooNested (Text.unifyNewlines text) =
        .ok (.record fields))
      (hgiven : Assoc.get? fields "packages" = some given) (htruthy : given.isTruthy)
      (hscalar : given.IsScalar)
  | unfollowed {text : List Char} {document : Value} {given : List String} {pattern : String}
      (h : Text.Utf8.decode bytes = .ok text)
      (hread : Yaml.readWithin t.limits.isTooNested (Text.unifyNewlines text) = .ok document)
      (hgiven : patternsOf document = .ok given) (hpattern : pattern ∈ inclusions given)
      (hno : IsUnfollowed t root (exclusions given) pattern)
  | deepManifest {text : List Char} {document : Value} {given : List String} {folders : List Path}
      {folder : Path} (h : Text.Utf8.decode bytes = .ok text)
      (hread : Yaml.readWithin t.limits.isTooNested (Text.unifyNewlines text) = .ok document)
      (hgiven : patternsOf document = .ok given) (hfolders : foldersOf t root given = .ok folders)
      (hfolder : folder ∈ folders) (hdeep : Package.IsTooDeep t folder)

def IsAnswered (root : Path) (r : Except Fault (Workspace × Log)) : Prop :=
  (∃ w log, r = .ok (w, log) ∧ w.root = root) ∨ ∃ fault, r = .error fault ∧ fault.isReported

theorem membersOf_eq_error {v : Value} {fault : Fault} (h : membersOf v = .error fault) :
    v.IsScalar ∧ fault.isReported = false := by
  cases v with
  | bool b =>
    cases h
    exact ⟨.bool b, rfl⟩
  | int n =>
    cases h
    exact ⟨.int n, rfl⟩
  | float x =>
    cases h
    exact ⟨.float x, rfl⟩
  | date =>
    cases h
    exact ⟨.date, rfl⟩
  | moment =>
    cases h
    exact ⟨.moment, rfl⟩
  | _ => cases h

theorem membersOf_of_isScalar {v : Value} (h : v.IsScalar) :
    ∃ kind, membersOf v = .error (.noPatterns kind) := by
  cases h <;> exact ⟨_, rfl⟩

theorem patternsOf_eq_error {v : Value} {fault : Fault} (h : patternsOf v = .error fault) :
    ∃ fields given, v = .record fields ∧ Assoc.get? fields "packages" = some given ∧
      given.isTruthy = true ∧ given.IsScalar ∧ fault.isReported = false := by
  cases v with
  | record fields =>
    simp only [patternsOf] at h
    split at h
    · rename_i ht
      rcases bind_eq_error.mp h with h | ⟨members, -, h⟩
      · obtain ⟨hscalar, hf⟩ := membersOf_eq_error h
        cases hg : Assoc.get? fields "packages" with
        | none =>
          rw [hg] at ht
          cases ht
        | some given =>
          rw [hg] at ht hscalar
          exact ⟨fields, given, rfl, hg, ht, hscalar, hf⟩
      · cases h
    · cases h
  | _ => cases h

theorem patternsOf_of_isScalar {fields : List (String × Value)} {given : Value}
    (hgiven : Assoc.get? fields "packages" = some given) (htruthy : given.isTruthy)
    (hscalar : given.IsScalar) :
    ∃ kind, patternsOf (.record fields) = .error (.noPatterns kind) := by
  obtain ⟨kind, hm⟩ := membersOf_of_isScalar hscalar
  refine ⟨kind, ?_⟩
  simp only [patternsOf, hgiven, Option.getD_some, if_pos htruthy, hm]
  rfl

variable {t : FileTree} {root : Path} {bytes : List UInt8} {text : List Char}

theorem exists_placesOf_iff {pattern : String} : (∃ places, placesOf t root pattern = .ok places) ↔
    ((pattern ≠ "" ∧ pattern ≠ ".") → ¬ t.IsUnsearchable root pattern) := by
  unfold placesOf
  split
  · rename_i h
    refine ⟨fun _ hroot => ?_, fun _ => ⟨_, rfl⟩⟩
    rcases h with h | h
    · exact absurd h hroot.1
    · exact absurd h hroot.2
  · rename_i h
    rw [not_or] at h
    simp only [h, ne_eq, not_false_eq_true, and_self, true_imp_iff]
    rw [← FileTree.exists_find_iff]
    split
    · rename_i places hplaces
      exact ⟨fun _ => ⟨places, hplaces⟩, fun _ => ⟨_, rfl⟩⟩
    · rename_i fault hfault
      simp [hfault]

theorem exists_foldersAlong_iff {exclusions : List String} {pattern : String} :
    (∃ folders, foldersAlong t root exclusions pattern = .ok folders) ↔
      ¬ IsUnfollowed t root exclusions pattern := by
  constructor
  · rintro ⟨folders, h⟩ hno
    obtain ⟨places, hplaces, h⟩ := exists_of_bind_eq_ok h
    split at h
    · cases h
    rename_i hseen
    cases hno with
    | unsearchable hroot hno => exact exists_placesOf_iff.mp ⟨places, hplaces⟩ hroot hno
    | refused hplaces' hp hq hrefused =>
      cases hplaces.symm.trans hplaces'
      exact List.find?_eq_none.mp hseen _ (List.mem_flatMap.mpr ⟨_, hp, hq⟩) hrefused
  · intro hno
    obtain ⟨places, hplaces⟩ := exists_placesOf_iff.mpr fun hroot h => hno (.unsearchable hroot h)
    have hseen : (places.flatMap (lookedUp t root exclusions)).find? t.isRefused = none := by
      rw [List.find?_eq_none]
      intro q hq hrefused
      obtain ⟨p, hp, hq⟩ := List.mem_flatMap.mp hq
      exact hno (.refused hplaces hp hq hrefused)
    exact ⟨places.filter (isPackageFolder t root exclusions), by
      simp only [foldersAlong, hplaces, bind, Except.bind, hseen, pure, Except.pure]⟩

theorem exists_foldersOf_iff {given : List String} :
    (∃ folders, foldersOf t root given = .ok folders) ↔
      ∀ pattern ∈ inclusions given,
        ∃ folders, foldersAlong t root (exclusions given) pattern = .ok folders := by
  constructor
  · rintro ⟨folders, h⟩ pattern hp
    obtain ⟨found, hfound, -⟩ := exists_of_bind_eq_ok h
    obtain ⟨along, -, halong⟩ := (mem_of_mapM_eq_ok hfound).1 pattern hp
    exact ⟨along, halong⟩
  · intro h
    exact exists_bind_eq_ok (exists_mapM_eq_ok h) fun _ => ⟨_, rfl⟩

theorem isReported_of_placesOf {pattern : String} {fault : Fault}
    (h : placesOf t root pattern = .error fault) : fault.isReported = false := by
  unfold placesOf at h
  split at h
  · cases h
  · split at h
    · cases h
    · cases h
      rfl

theorem isReported_of_foldersOf {given : List String} {fault : Fault}
    (h : foldersOf t root given = .error fault) : fault.isReported = false := by
  rcases bind_eq_error.mp h with h | ⟨found, -, h⟩
  · obtain ⟨pattern, -, h⟩ := exists_of_mapM_eq_error h
    rcases bind_eq_error.mp h with h | ⟨places, -, h⟩
    · exact isReported_of_placesOf h
    · split at h
      · cases h
        rfl
      · cases h
  · cases h

section LoadPackages

variable {folder : Path} {folders : List Path}

theorem loadPackages_of_load {p : Package} (h : Package.load t folder = .ok p) :
    loadPackages t (folder :: folders) =
      (loadPackages t folders).map fun r => (p :: r.1, r.2) := by
  rw [loadPackages, h]

theorem loadPackages_of_tooDeep {kind : String} {source : List Char}
    (h : Package.load t folder = .error (.json (.tooDeep kind) source)) :
    loadPackages t (folder :: folders) = .error (.manifest (.tooDeep kind) source) := by
  rw [loadPackages, h]

theorem loadPackages_of_fault {fault : ManifestFault} (h : Package.load t folder = .error fault)
    (hdeep : ¬ Package.IsTooDeep t folder) : loadPackages t (folder :: folders) =
      (loadPackages t folders).map fun r => (r.1, ⟨.warning, .workspace,
        "Failed to load package at " ++ folder.text ++ ": " ++ fault.message⟩ :: r.2) := by
  rw [loadPackages]
  split
  · rename_i p hp
    rw [h] at hp
    cases hp
  · rename_i kind source hload
    exact absurd (Package.isTooDeep_iff.mpr ⟨kind, source, hload⟩) hdeep
  · rename_i fault' _ hload
    rw [h] at hload
    cases hload
    rfl

theorem loadPackages_cons_eq_ok {r : List Package × Log}
    (h : loadPackages t (folder :: folders) = .ok r) : ∃ r₀, loadPackages t folders = .ok r₀ ∧
      ((∃ p, Package.load t folder = .ok p ∧ r = (p :: r₀.1, r₀.2)) ∨
        ∃ fault, Package.load t folder = .error fault ∧ r = (r₀.1, ⟨.warning, .workspace,
          "Failed to load package at " ++ folder.text ++ ": " ++ fault.message⟩ :: r₀.2)) := by
  have hdeep : ¬ Package.IsTooDeep t folder := by
    intro hdeep
    obtain ⟨kind, source, hload⟩ := Package.isTooDeep_iff.mp hdeep
    rw [loadPackages_of_tooDeep hload] at h
    cases h
  cases hload : Package.load t folder with
  | ok p =>
    rw [loadPackages_of_load hload] at h
    cases hrest : loadPackages t folders with
    | error fault =>
      rw [hrest] at h
      cases h
    | ok r₀ =>
      rw [hrest] at h
      cases h
      exact ⟨r₀, rfl, .inl ⟨p, rfl, rfl⟩⟩
  | error fault =>
    rw [loadPackages_of_fault hload hdeep] at h
    cases hrest : loadPackages t folders with
    | error fault =>
      rw [hrest] at h
      cases h
    | ok r₀ =>
      rw [hrest] at h
      cases h
      exact ⟨r₀, rfl, .inr ⟨fault, rfl, rfl⟩⟩

theorem exists_map_loadPackages (hdeep : ¬ Package.IsTooDeep t folder) :
    ∃ f, ∀ folders, loadPackages t (folder :: folders) = (loadPackages t folders).map f := by
  cases h : Package.load t folder with
  | ok p => exact ⟨_, fun _ => loadPackages_of_load h⟩
  | error fault => exact ⟨_, fun _ => loadPackages_of_fault h hdeep⟩

theorem exists_loadPackages_iff :
    (∃ r, loadPackages t folders = .ok r) ↔ ∀ folder ∈ folders, ¬ Package.IsTooDeep t folder := by
  induction folders with
  | nil => exact ⟨fun _ => List.forall_mem_nil _, fun _ => ⟨_, rfl⟩⟩
  | cons folder folders ih =>
    rw [List.forall_mem_cons, ← ih]
    by_cases hdeep : Package.IsTooDeep t folder
    · obtain ⟨kind, source, h⟩ := Package.isTooDeep_iff.mp hdeep
      simp [loadPackages_of_tooDeep h, hdeep]
    · obtain ⟨f, hf⟩ := exists_map_loadPackages hdeep
      rw [hf]
      cases loadPackages t folders <;> simp [Except.map, hdeep]

theorem isReported_of_loadPackages {fault : Fault} (h : loadPackages t folders = .error fault) :
    fault.isReported = false := by
  induction folders with
  | nil => cases h
  | cons folder folders ih =>
    by_cases hdeep : Package.IsTooDeep t folder
    · obtain ⟨kind, source, hload⟩ := Package.isTooDeep_iff.mp hdeep
      rw [loadPackages_of_tooDeep hload] at h
      cases h
      rfl
    · obtain ⟨f, hf⟩ := exists_map_loadPackages hdeep
      rw [hf] at h
      cases hrest : loadPackages t folders with
      | ok r =>
        rw [hrest] at h
        cases h
      | error fault' =>
        rw [hrest] at h
        cases h
        exact ih hrest

end LoadPackages

theorem patterns_of_decode (hr : t.read (root.child fileName) = .ok bytes)
    (hd : Text.Utf8.decode bytes = .ok text) : patterns t root =
      (Yaml.readWithin t.limits.isTooNested (Text.unifyNewlines text)).mapError .yaml >>=
        patternsOf := by
  rw [patterns, FileTree.readText_of_decode hr hd]
  rfl

theorem patterns_of_read {document : Value} (hr : t.read (root.child fileName) = .ok bytes)
    (hd : Text.Utf8.decode bytes = .ok text)
    (hy : Yaml.readWithin t.limits.isTooNested (Text.unifyNewlines text) = .ok document) :
    patterns t root = patternsOf document := by
  rw [patterns_of_decode hr hd, hy]
  rfl

theorem exists_document_of_patterns {given : List String}
    (hr : t.read (root.child fileName) = .ok bytes) (h : patterns t root = .ok given) :
    ∃ text document, Text.Utf8.decode bytes = .ok text ∧
      Yaml.readWithin t.limits.isTooNested (Text.unifyNewlines text) = .ok document ∧
        patternsOf document = .ok given := by
  cases hd : Text.Utf8.decode bytes with
  | error error =>
    rw [patterns, FileTree.readText_of_undecodable hr hd] at h
    cases h
  | ok text =>
    rw [patterns_of_decode hr hd] at h
    cases hy : Yaml.readWithin t.limits.isTooNested (Text.unifyNewlines text) with
    | error fault =>
      rw [hy] at h
      cases h
    | ok document =>
      rw [hy] at h
      exact ⟨text, document, rfl, hy, h⟩

theorem unanswered_of_patterns {fault : Fault} (hr : t.read (root.child fileName) = .ok bytes)
    (h : patterns t root = .error fault) (hf : fault.isReported = false) :
    Unanswered t root bytes := by
  cases hd : Text.Utf8.decode bytes with
  | error error => exact .noText hd
  | ok text =>
    cases hy : Yaml.readWithin t.limits.isTooNested (Text.unifyNewlines text) with
    | error f =>
      rw [patterns_of_decode hr hd, hy] at h
      cases h
      exact .noValue hd hy (by simpa [Fault.isReported] using hf)
    | ok document =>
      rw [patterns_of_read hr hd hy] at h
      obtain ⟨fields, given, rfl, hgiven, htruthy, hscalar, -⟩ := patternsOf_eq_error h
      exact .noMembers hd hy hgiven htruthy hscalar

def packagesAt (t : FileTree) (root : Path) : Except Fault (List Package × Log) :=
  packageFolders t root >>= loadPackages t

theorem unanswered_of_packagesAt {fault : Fault} (hr : t.read (root.child fileName) = .ok bytes)
    (h : packagesAt t root = .error fault) (hf : fault.isReported = false) :
    Unanswered t root bytes := by
  rcases bind_eq_error.mp h with h | ⟨folders, hfolders, h⟩
  · rcases bind_eq_error.mp h with h | ⟨given, hgiven, h⟩
    · exact unanswered_of_patterns hr h hf
    · obtain ⟨text, document, hd, hy, hdocument⟩ := exists_document_of_patterns hr hgiven
      have hno : ¬ ∃ folders, foldersOf t root given = .ok folders := by simp [h]
      simp only [exists_foldersOf_iff, exists_foldersAlong_iff, not_forall, not_not,
        exists_prop] at hno
      obtain ⟨pattern, hpattern, hno⟩ := hno
      exact .unfollowed hd hy hdocument hpattern hno
  · obtain ⟨given, hgiven, hfolders⟩ := exists_of_bind_eq_ok hfolders
    obtain ⟨text, document, hd, hy, hdocument⟩ := exists_document_of_patterns hr hgiven
    have hno : ¬ ∃ r, loadPackages t folders = .ok r := by simp [h]
    simp only [exists_loadPackages_iff, not_forall, not_not, exists_prop] at hno
    obtain ⟨folder, hfolder, hdeep⟩ := hno
    exact .deepManifest hd hy hdocument hfolders hfolder hdeep

theorem packagesAt_of_unanswered (hr : t.read (root.child fileName) = .ok bytes)
    (hu : Unanswered t root bytes) :
    ∃ fault, packagesAt t root = .error fault ∧ fault.isReported = false := by
  have hpatterns : ∀ {fault : Fault}, patterns t root = .error fault →
      packagesAt t root = .error fault := fun hp =>
    bind_eq_error.mpr (.inl (bind_eq_error.mpr (.inl hp)))
  cases hu with
  | @noText error hd =>
    refine ⟨.text (.undecodable error), hpatterns ?_, rfl⟩
    rw [patterns, FileTree.readText_of_undecodable hr hd]
    rfl
  | @noValue text fault hd hread hfault =>
    refine ⟨.yaml fault, hpatterns ?_, by simpa [Fault.isReported] using hfault⟩
    rw [patterns_of_decode hr hd, hread]
    rfl
  | noMembers hd hread hgiven htruthy hscalar =>
    obtain ⟨kind, hp⟩ := patternsOf_of_isScalar hgiven htruthy hscalar
    rw [← patterns_of_read hr hd hread] at hp
    exact ⟨_, hpatterns hp, rfl⟩
  | @unfollowed text document given pattern hd hread hgiven hpattern hno =>
    rw [← patterns_of_read hr hd hread] at hgiven
    cases hfolders : foldersOf t root given with
    | ok folders =>
      have hall := exists_foldersOf_iff.mp ⟨folders, hfolders⟩
      exact absurd hno (exists_foldersAlong_iff.mp (hall pattern hpattern))
    | error fault =>
      refine ⟨fault, bind_eq_error.mpr (.inl ?_), isReported_of_foldersOf hfolders⟩
      exact bind_eq_error.mpr (.inr ⟨given, hgiven, hfolders⟩)
  | @deepManifest text document given folders folder hd hread hgiven hfolders hfolder hdeep =>
    rw [← patterns_of_read hr hd hread] at hgiven
    have hfound : packageFolders t root = .ok folders := by
      rw [packageFolders, hgiven]
      exact hfolders
    cases hload : loadPackages t folders with
    | ok r => exact absurd hdeep (exists_loadPackages_iff.mp ⟨r, hload⟩ folder hfolder)
    | error fault =>
      refine ⟨fault, ?_, isReported_of_loadPackages hload⟩
      exact bind_eq_error.mpr (.inr ⟨folders, hfound, hload⟩)

variable {start : Path}

theorem isFile_of_findRoot (h : findRoot t start = .ok root) : t.isFile (root.child fileName) := by
  obtain ⟨folder, -, h⟩ := exists_of_bind_eq_ok h
  obtain ⟨found, hfound, h⟩ := exists_of_bind_eq_ok h
  split at h
  · cases h
    have hfind := mapError_eq_ok_iff.mp hfound
    exact FileTree.isFile_of_isFile? (eq_true_of_findM?_eq_some hfind).2
  · cases h

theorem discover_eq (hroot : findRoot t start = .ok root) : discover t start =
    (packagesAt t root).map fun r => ({ root, packages := r.1 }, r.2) := by
  rw [discover, hroot, packagesAt]
  cases hfolders : packageFolders t root with
  | error fault => simp [hfolders, Except.mapError, Except.map, bind, Except.bind]
  | ok folders =>
    cases hload : loadPackages t folders <;>
      simp [hfolders, hload, Except.mapError, Except.map, bind, Except.bind, pure, Except.pure]

theorem discover_of_loadPackages {folders : List Path} {r : List Package × Log}
    (hroot : findRoot t start = .ok root) (hfolders : packageFolders t root = .ok folders)
    (hload : loadPackages t folders = .ok r) :
    discover t start = .ok ({ root, packages := r.1 }, r.2) := by
  rw [discover_eq hroot, packagesAt, hfolders]
  change (loadPackages t folders).map _ = _
  rw [hload]
  rfl

theorem isAnswered_discover_iff (hroot : findRoot t start = .ok root)
    (hr : t.read (root.child fileName) = .ok bytes) :
    IsAnswered root (discover t start) ↔ ¬ Unanswered t root bytes := by
  rw [discover_eq hroot]
  cases h : packagesAt t root with
  | ok r =>
    refine ⟨fun _ hu => ?_, fun _ => .inl ⟨_, _, rfl, rfl⟩⟩
    obtain ⟨fault, hfault, -⟩ := packagesAt_of_unanswered hr hu
    rw [h] at hfault
    cases hfault
  | error fault =>
    constructor
    · rintro (⟨w, log, hw, -⟩ | ⟨fault', hfault, hreported⟩) hu
      · cases hw
      · cases hfault
        obtain ⟨fault', hfault', hf⟩ := packagesAt_of_unanswered hr hu
        rw [h] at hfault'
        cases hfault'
        rw [hreported] at hf
        cases hf
    · intro hu
      refine .inr ⟨fault, rfl, ?_⟩
      cases hf : fault.isReported with
      | true => rfl
      | false => exact absurd (unanswered_of_packagesAt hr h hf) hu

theorem isBelow_of_placesOf {pattern : String} {places : List Path} {p : Path}
    (h : placesOf t root pattern = .ok places) (hp : p ∈ places) : FileTree.IsBelow p root := by
  unfold placesOf at h
  split at h
  · cases h
    rw [List.mem_singleton.mp hp]
    exact FileTree.isBelow_refl root
  · split at h
    · rename_i found hfound
      cases h
      obtain ⟨steps, -, rfl⟩ := FileTree.exists_search_of_find hfound
      exact FileTree.isBelow_of_mem_search (List.mem_mergeSort.mp hp)
    · cases h

/-- From a root on, the workspace is found or its fault is told, and the only exceptions are the
contents that cannot be answered. Whatever a pattern leads to is told apart by its place below the
root. -/
theorem discover_contract (t : FileTree) (start root : Path) (hroot : findRoot t start = .ok root) :
    ∃ bytes, t.read (root.child fileName) = .ok bytes ∧
      (IsAnswered root (discover t start) ↔ ¬ Unanswered t root bytes) ∧
      (Unanswered t root bytes →
        ∃ fault, discover t start = .error fault ∧ fault.isReported = false) ∧
      ∀ pattern places, placesOf t root pattern = .ok places →
        ∀ p ∈ places, ∃ names, p.below? root = some names := by
  obtain ⟨bytes, hr⟩ := FileTree.exists_read_of_isFile (isFile_of_findRoot hroot)
  refine ⟨bytes, hr, isAnswered_discover_iff hroot hr, fun hu => ?_, ?_⟩
  · obtain ⟨fault, hfault, hf⟩ := packagesAt_of_unanswered hr hu
    exact ⟨fault, by rw [discover_eq hroot, hfault]; rfl, hf⟩
  · intro pattern places hp p hm
    exact (isBelow_of_placesOf hp hm).below?_eq

def blankTree : FileTree where
  root := .folder [("pnpm-workspace.yaml", .file [] false)]

theorem discover_contract_blank :
    findRoot blankTree .top = .ok .top ∧ IsAnswered .top (discover blankTree .top) ∧
      ¬ Unanswered blankTree .top [] := by
  have hroot : findRoot blankTree .top = .ok .top := by cbv
  have hfound : discover blankTree .top = .ok ({ root := .top, packages := [] }, []) := by cbv
  have hanswered : IsAnswered .top (discover blankTree .top) := .inl ⟨_, _, hfound, rfl⟩
  have hempty : blankTree.read (Path.top.child fileName) = .ok [] := by cbv
  obtain ⟨bytes, hr, hiff, -⟩ := discover_contract blankTree .top .top hroot
  obtain rfl : [] = bytes := by
    rw [hempty] at hr
    exact Except.ok.inj hr
  exact ⟨hroot, hanswered, hiff.mp hanswered⟩

def garbledTree : FileTree where
  root := .folder [("pnpm-workspace.yaml", .file [0xff] false)]

theorem not_isAnswered_of_garbled_file :
    findRoot garbledTree .top = .ok .top ∧
      ¬ IsAnswered .top (discover garbledTree .top) := by
  have hroot : findRoot garbledTree .top = .ok .top := by cbv
  have hr : garbledTree.read (Path.top.child fileName) = .ok [0xff] := by cbv
  have hd : Text.Utf8.decode [0xff] = .error ⟨0, 0xff, [], .invalidStart⟩ := by cbv
  refine ⟨hroot, ?_⟩
  rw [isAnswered_discover_iff hroot hr, not_not]
  exact .noText hd

end Workspace

end WorkspaceCycles
