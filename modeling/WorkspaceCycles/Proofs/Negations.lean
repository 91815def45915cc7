import Mathlib
import WorkspaceCycles.Proofs.GlobMatches
import WorkspaceCycles.Proofs.PackageFolders
import WorkspaceCycles.Proofs.SearchedNames

/-!
Patterns and their negations. A pattern is searched for name by name, its negation is matched with
the whole text of a path; which folders the negation takes away depends on how the two agree.
-/

namespace WorkspaceCycles

namespace SearchStep

theorem isMatch_self {part : String}
    (h : ¬ part.toList.any (fun c => c = '*' ∨ c = '?' ∨ c = '[') = true) :
    Glob.isMatch part part = true := by
  have hplain : ∀ c ∈ part.toList, c ≠ '*' ∧ c ≠ '?' ∧ c ≠ '[' := by simpa using h
  rw [Glob.isMatch_iff, Glob.parse_of_plain hplain]
  exact .literals _

theorem exists_name_of_admits {part : String} {step : SearchStep} {steps : List SearchStep}
    {names : List String} (hne : part ≠ "**") (h : ofPart part = .ok step)
    (hadmits : Admits (step :: steps) names) :
    ∃ name rest, names = name :: rest ∧ Glob.isMatch part name = true ∧ Admits steps rest ∧
      ∀ few, Admits steps few → Admits (step :: steps) (name :: few) := by
  rw [ofPart, anyFoldersText, if_neg hne] at h
  split at h
  · cases h
  · split at h
    · cases h
      cases hadmits with
      | glob hname hrest => exact ⟨_, _, rfl, hname, hrest, fun _ hfew => .glob hname hfew⟩
    · rename_i hplain
      cases h
      cases hadmits with
      | name _ hrest =>
        exact ⟨_, _, rfl, isMatch_self hplain, hrest, fun _ hfew => .name part hfew⟩

theorem isMatch_of_admits {parts : List String} {steps : List SearchStep} {names : List String}
    (h : parts.mapM ofPart = .ok steps) (hne : "**" ∉ parts) (hadmits : Admits steps names) :
    List.Forall₂ (fun part name => Glob.isMatch part name = true) parts names := by
  induction parts generalizing steps names with
  | nil =>
    cases h
    cases hadmits
    exact .nil
  | cons part parts ih =>
    rw [List.mapM_cons] at h
    obtain ⟨step, hstep, h⟩ := exists_of_bind_eq_ok h
    obtain ⟨steps, hsteps, h⟩ := exists_of_bind_eq_ok h
    cases h
    simp only [List.mem_cons, not_or] at hne
    obtain ⟨name, rest, rfl, hname, hrest, -⟩ :=
      exists_name_of_admits (Ne.symm hne.1) hstep hadmits
    exact .cons hname (ih hsteps hne.2 hrest)

theorem Admits.exists_fewest {parts : List String} {steps : List SearchStep} {names : List String}
    (h : parts.mapM ofPart = .ok steps) (hadmits : Admits steps names) :
    ∃ few, Admits steps few ∧ (∀ name ∈ few, name ∈ names) ∧
      few.length = (parts.filter (· ≠ "**")).length := by
  induction parts generalizing steps names with
  | nil =>
    cases h
    exact ⟨[], .nil, by simp, rfl⟩
  | cons part parts ih =>
    rw [List.mapM_cons] at h
    obtain ⟨step, hstep, h⟩ := exists_of_bind_eq_ok h
    obtain ⟨steps, hsteps, h⟩ := exists_of_bind_eq_ok h
    cases h
    by_cases hstars : part = "**"
    · subst hstars
      cases hstep
      cases hadmits with
      | anyFolders above hrest =>
        obtain ⟨few, hfew, hsub, hlength⟩ := ih hsteps hrest
        refine ⟨few, .anyFolders [] hfew, fun name hm => ?_, by simpa using hlength⟩
        exact List.mem_append_right _ (hsub name hm)
    · obtain ⟨name, rest, rfl, -, hrest, hback⟩ := exists_name_of_admits hstars hstep hadmits
      obtain ⟨few, hfew, hsub, hlength⟩ := ih hsteps hrest
      refine ⟨name :: few, hback few hfew, ?_, by simpa [hstars] using hlength⟩
      exact List.cons_subset_cons name hsub

end SearchStep

namespace Workspace

variable {t : FileTree} {root : Path}

def LeadsAlong (pattern : String) (names : List String) : Prop :=
  if pattern = "" ∨ pattern = "." then names = []
  else ∃ steps, SearchStep.ofPattern pattern = .ok steps ∧ SearchStep.Admits steps names

def AreVisible (names : List String) : Prop :=
  ∀ name ∈ names, Path.IsName name ∧ name ≠ "node_modules" ∧ name.toList.head? ≠ some '.'

theorem AreVisible.not_mem {names : List String} (h : AreVisible names) : ".." ∉ names :=
  fun hm => (h ".." hm).2.2 rfl

theorem leadsAlong_of_placesOf (ht : t.IsNamed) {pattern : String} {places : List Path} {p : Path}
    (h : placesOf t root pattern = .ok places) (hp : p ∈ places) :
    ∃ names, p = root.join ⟨.relative, names⟩ ∧ LeadsAlong pattern names ∧
      ∀ name ∈ names, name = ".." ∨ Path.IsName name := by
  unfold placesOf at h
  unfold LeadsAlong
  split at h
  · rename_i hroot
    cases h
    rw [List.mem_singleton.mp hp]
    refine ⟨[], root.join_nil.symm, ?_, by simp⟩
    rw [if_pos hroot]
  · rename_i hroot
    split at h
    · rename_i found hfound
      cases h
      obtain ⟨steps, hsteps, rfl⟩ := FileTree.exists_search_of_find hfound
      obtain ⟨names, he, hadmits, hnames⟩ :=
        FileTree.exists_admits_of_mem_search ht (List.mem_mergeSort.mp hp)
      refine ⟨names, he, ?_, hnames⟩
      rw [if_neg hroot]
      exact ⟨steps, hsteps, hadmits⟩
    · cases h

def packageChain (names : List String) : FileTree :=
  .chain names (.folder [("package.json", .file [] false)])

theorem isNamed_packageChain {names : List String} (h : AreVisible names) :
    (packageChain names).IsNamed := by
  apply Node.descendants_chain fun name hm => (h name hm).1
  decide

theorem isPackageAt_packageChain {names : List String} (h : AreVisible names) :
    IsPackageAt (packageChain names) ⟨.root, names⟩ names := by
  have hfolder := FileTree.isFolder_chain [("package.json", .file [] false)] [] h.not_mem
  rw [List.append_nil] at hfolder
  refine ⟨hfolder, ?_, fun name hm => (h name hm).2⟩
  have hmanifest : ".." ∉ names ++ ["package.json"] := by simp [h.not_mem]
  have hnode := FileTree.node_chain (.file [] false) rfl [] hmanifest
  have htree : FileTree.chain (names ++ ["package.json"] ++ []) (.file [] false) =
      packageChain names := by
    simp [FileTree.chain, packageChain, Node.chain]
  rw [htree] at hnode
  change (packageChain names).isFile ⟨.root, names ++ ["package.json"]⟩ = true
  rw [FileTree.isFile, hnode]
  rfl

theorem exists_placesOf_packageChain {pattern : String} {names : List String}
    (h : LeadsAlong pattern names) (hvisible : AreVisible names) :
    ∃ places, placesOf (packageChain names) .top pattern = .ok places ∧
      ⟨.root, names⟩ ∈ places := by
  unfold LeadsAlong at h
  unfold placesOf
  split at h
  · rename_i hroot
    subst h
    exact ⟨[.top], if_pos hroot, List.mem_cons_self⟩
  · rename_i hroot
    obtain ⟨steps, hsteps, hadmits⟩ := h
    rw [if_neg hroot, FileTree.find_of_unlimited rfl hsteps]
    refine ⟨_, rfl, List.mem_mergeSort.mpr ?_⟩
    exact FileTree.mem_search_chain [] hadmits hvisible.not_mem

def IsTakenBack (pattern : String) : Prop :=
  ∀ (t : FileTree) (root : Path) (given : List String) (folders alone : List Path), t.IsNamed →
    "!" ++ pattern ∈ given → foldersOf t root given = .ok folders →
      foldersOf t root [pattern] = .ok alone → ∀ p ∈ alone, p ∉ folders

variable {pattern : String}

theorem isExclusion_negation (pattern : String) : isExclusion ("!" ++ pattern) = true := by
  simp [isExclusion]

theorem tail_negation (pattern : String) : ("!" ++ pattern).toList.tail = pattern.toList := by
  simp

theorem inclusions_negation (h : isExclusion pattern = false) :
    inclusions [pattern] = [withoutSlashes pattern.toList] ∧
      inclusions [pattern, "!" ++ pattern] = [withoutSlashes pattern.toList] := by
  simp [inclusions, h, isExclusion_negation]

theorem foldersOf_of_places {given : List String} {places : List Path}
    (hin : inclusions given = [pattern]) (hplaces : placesOf t root pattern = .ok places)
    (hseen : (places.flatMap (lookedUp t root (exclusions given))).find? t.isRefused = none) :
    foldersOf t root given =
      .ok (places.filter (isPackageFolder t root (exclusions given))).eraseDups := by
  have halong : foldersAlong t root (exclusions given) pattern =
      .ok (places.filter (isPackageFolder t root (exclusions given))) := by
    simp only [foldersAlong, hplaces, hseen, bind, Except.bind, pure, Except.pure]
  rw [foldersOf, hin, List.mapM_cons, halong]
  simp [bind, Except.bind, pure, Except.pure]

theorem mem_exclusions_negation (h : isExclusion pattern = false) {q : String} :
    q ∈ exclusions [pattern, "!" ++ pattern] ↔ q = withoutSlashes pattern.toList := by
  simp [exclusions, h, isExclusion_negation]

theorem isTakenBack_iff (h : isExclusion pattern = false) : IsTakenBack pattern ↔
    ∀ names, AreVisible names → LeadsAlong (withoutSlashes pattern.toList) names →
      Glob.isMatch (withoutSlashes pattern.toList) (Path.relativeText names) = true := by
  obtain ⟨hin, hin'⟩ := inclusions_negation h
  constructor
  · intro htaken names hvisible hleads
    obtain ⟨places, hplaces, hplace⟩ := exists_placesOf_packageChain hleads hvisible
    have hat := isPackageAt_packageChain hvisible
    have hbelow : Path.below? ⟨.root, names⟩ .top = some names := Path.top.below?_join names
    have hmem : ∀ given : List String,
        isPackageFolder (packageChain names) .top (exclusions given) ⟨.root, names⟩ = true →
          ⟨.root, names⟩ ∈ (places.filter
            (isPackageFolder (packageChain names) .top (exclusions given))).eraseDups :=
      fun given hp => List.mem_eraseDups.mpr (List.mem_filter.mpr ⟨hplace, hp⟩)
    have hseen : ∀ places, List.find? (packageChain names).isRefused places = none := by
      intro places
      have hlimits : (packageChain names).limits = .unlimited := rfl
      simp [FileTree.isRefused_of_unlimited hlimits]
    by_contra hno
    refine htaken _ _ _ _ _ (isNamed_packageChain hvisible) (by simp)
      (foldersOf_of_places hin' hplaces (hseen _)) (foldersOf_of_places hin hplaces (hseen _))
      ⟨.root, names⟩ (hmem _ ?_) (hmem _ ?_)
    · have hout : exclusions [pattern] = [] := by simp [exclusions, h]
      rw [hout]
      exact isPackageFolder_iff.mpr ⟨names, hbelow, hat, by simp⟩
    · refine isPackageFolder_iff.mpr ⟨names, hbelow, hat, fun q hq => ?_⟩
      rw [(mem_exclusions_negation h).mp hq]
      exact Bool.eq_false_iff.mpr hno
  · intro hmatch t root given folders alone ht hgiven hfolders halone p hp hm
    obtain ⟨⟨q, hq, places, hplaces, hplace⟩, -⟩ := (mem_foldersOf halone).mp hp
    rw [hin, List.mem_singleton] at hq
    subst hq
    obtain ⟨names, rfl, hleads, hnames⟩ := leadsAlong_of_placesOf ht hplaces hplace
    obtain ⟨names', hbelow, hat, hexcluded⟩ := exists_isPackageAt hfolders hm
    obtain rfl : names = names' := Option.some.inj ((root.below?_join names).symm.trans hbelow)
    have hvisible : AreVisible names := by
      intro name hname
      refine ⟨(hnames name hname).resolve_left fun he => ?_, hat.visible name hname⟩
      exact hat.not_mem (he ▸ hname)
    have hpattern : withoutSlashes pattern.toList ∈ exclusions given :=
      mem_exclusions.mpr ⟨_, hgiven, isExclusion_negation pattern, by rw [tail_negation]⟩
    have hno := hexcluded _ hpattern
    rw [hmatch names hvisible hleads] at hno
    cases hno

section Segments

def segments (pattern : String) : List (List Char) := Text.split '/' pattern.toList

/-- No class of the pattern reaches over a slash, so that it can be read segment by segment. -/
def IsSegmented (pattern : String) : Prop :=
  Glob.parse pattern.toList = Text.join [.literal '/'] ((segments pattern).map Glob.parse)

theorem isSegmented_of_not_mem (h : '[' ∉ pattern.toList) : IsSegmented pattern :=
  Glob.parse_eq_join h

def IsAligned (pattern : String) : Prop :=
  ∀ s ∈ segments pattern, s ≠ [] ∧ s ≠ ['.'] ∧ s ≠ ['*', '*']

instance (pattern : String) : Decidable (IsAligned pattern) :=
  inferInstanceAs (Decidable (∀ s ∈ segments pattern, _))

theorem parts_ofString (pattern : String) : (Path.ofString pattern).parts =
    ((segments pattern).filter fun s => s != [] && s != ['.']).map String.ofList := rfl

theorem leadsAlong_of_root (hroot : pattern = "" ∨ pattern = ".") {names : List String} :
    LeadsAlong pattern names ↔ names = [] := by
  rw [LeadsAlong, if_pos hroot]

theorem leadsAlong_iff (hroot : ¬ (pattern = "" ∨ pattern = ".")) {names : List String} :
    LeadsAlong pattern names ↔
      ∃ steps, SearchStep.ofPattern pattern = .ok steps ∧ SearchStep.Admits steps names := by
  rw [LeadsAlong, if_neg hroot]

theorem mapM_of_ofPattern {steps : List SearchStep}
    (h : SearchStep.ofPattern pattern = .ok steps) :
    (Path.ofString pattern).parts.mapM SearchStep.ofPart = .ok steps := by
  simp only [SearchStep.ofPattern] at h
  split at h
  · cases h
  · split at h
    · cases h
    · exact h

theorem isMatch_of_isAligned (hsegmented : IsSegmented pattern) (h : IsAligned pattern)
    {names : List String} (hleads : LeadsAlong pattern names) :
    Glob.isMatch pattern (Path.relativeText names) = true := by
  have hroot : ¬ (pattern = "" ∨ pattern = ".") := by
    rintro (rfl | rfl)
    · exact (h [] (by decide)).1 rfl
    · exact (h ['.'] (by decide)).2.1 rfl
  obtain ⟨steps, hsteps, hadmits⟩ := (leadsAlong_iff hroot).mp hleads
  have hparts : (Path.ofString pattern).parts = (segments pattern).map String.ofList := by
    rw [parts_ofString, List.filter_eq_self.mpr]
    intro s hs
    simpa using ⟨(h s hs).1, (h s hs).2.1⟩
  have hstars : "**" ∉ (Path.ofString pattern).parts := by
    rw [hparts]
    intro hm
    obtain ⟨s, hs, he⟩ := List.mem_map.mp hm
    exact (h s hs).2.2 (by rw [← String.toList_ofList (l := s), he]; rfl)
  have hmatch := SearchStep.isMatch_of_admits (mapM_of_ofPattern hsteps) hstars hadmits
  have hnames : names ≠ [] := by
    rintro rfl
    rw [List.forall₂_nil_right_iff, hparts, List.map_eq_nil_iff] at hmatch
    exact Text.split_ne_nil _ _ hmatch
  rw [hparts, List.forall₂_map_left_iff] at hmatch
  rw [Glob.isMatch_iff, hsegmented, Path.toList_relativeText hnames]
  apply Glob.Matches.join
  rw [List.forall₂_map_left_iff, List.forall₂_map_right_iff]
  apply hmatch.imp
  intro s name hname
  rwa [Glob.isMatch_iff, String.toList_ofList] at hname

theorem count_relativeText {names : List String} (h : AreVisible names) :
    (Path.relativeText names).toList.count '/' = names.length - 1 := by
  by_cases hne : names = []
  · subst hne
    rfl
  · rw [Path.toList_relativeText hne, Glob.count_join_of_not_mem, List.length_map]
    intro piece hp
    obtain ⟨name, hname, rfl⟩ := List.mem_map.mp hp
    exact (h name hname).1.slashless

theorem length_filter_parts (pattern : String) :
    ((Path.ofString pattern).parts.filter (· ≠ "**")).length =
      ((segments pattern).filter fun s => s ≠ [] ∧ s ≠ ['.'] ∧ s ≠ ['*', '*']).length := by
  rw [parts_ofString, List.filter_map, List.length_map, List.filter_filter]
  congr 1
  apply List.filter_congr
  intro s _
  have hstars : String.ofList s = "**" ↔ s = ['*', '*'] := by
    rw [← String.toList_inj, String.toList_ofList]
    rfl
  rw [Bool.eq_iff_iff]
  simp [hstars]
  tauto

theorem eq_ofList_of_segments {s : List Char} (h : segments pattern = [s]) :
    pattern = String.ofList s := by
  have hjoin : Text.join ['/'] (segments pattern) = pattern.toList := Text.join_split _ _
  rw [h] at hjoin
  rw [← String.ofList_toList (s := pattern), ← hjoin]
  rfl

theorem not_isMatch_of_not_isAligned (hsegmented : IsSegmented pattern) (h : ¬ IsAligned pattern)
    (hroot : ¬ (pattern = "" ∨ pattern = ".")) (hstars : pattern ≠ "**") {names : List String}
    (hvisible : AreVisible names) (hleads : LeadsAlong pattern names) :
    ∃ few, AreVisible few ∧ LeadsAlong pattern few ∧
      Glob.isMatch pattern (Path.relativeText few) = false := by
  obtain ⟨steps, hsteps, hadmits⟩ := (leadsAlong_iff hroot).mp hleads
  -- Where two stars stand for nothing, the path has fewer slashes than the text of the pattern.
  obtain ⟨few, hfew, hsub, hlength⟩ := hadmits.exists_fewest (mapM_of_ofPattern hsteps)
  have hvisible : AreVisible few := fun name hm => hvisible name (hsub name hm)
  refine ⟨few, hvisible, (leadsAlong_iff hroot).mpr ⟨steps, hsteps, hfew⟩, ?_⟩
  rw [length_filter_parts] at hlength
  by_contra hmatch
  rw [Bool.not_eq_false, Glob.isMatch_iff, hsegmented] at hmatch
  have hslashes := (Glob.count_join (Glob.Piece.literal '/') _).trans (hmatch.count_le '/')
  rw [List.length_map, count_relativeText hvisible] at hslashes
  have hne := List.length_pos_of_ne_nil (Text.split_ne_nil '/' pattern.toList)
  obtain ⟨bad, hbad, hspecial⟩ : ∃ s ∈ segments pattern, ¬ (s ≠ [] ∧ s ≠ ['.'] ∧ s ≠ ['*', '*']) := by
    simpa only [IsAligned, not_forall, exists_prop] using h
  have hfewer : few.length < (segments pattern).length := by
    rw [hlength]
    exact List.length_filter_lt_length_iff_exists.mpr ⟨bad, hbad, by simpa using hspecial⟩
  have hone : (segments pattern).length = 1 := by
    unfold segments at *
    omega
  obtain ⟨s, hs⟩ := List.length_eq_one_iff.mp hone
  rw [hs, List.mem_singleton] at hbad
  rw [eq_ofList_of_segments hs, ← hbad] at hroot hstars
  apply hspecial
  exact ⟨fun he => hroot (.inl (by rw [he])), fun he => hroot (.inr (by rw [he])),
    fun he => hstars (by rw [he])⟩

/-- A negation takes back what its pattern leads to exactly if the text of the pattern matches each
path that it leads along. If no class reaches over a slash that is so exactly if each segment stands
for one name, apart from two patterns, and from those that lead to nothing that can be seen. -/
theorem negation_takes_back_iff (h : isExclusion pattern = false) :
    (IsTakenBack pattern ↔
      ∀ names, AreVisible names → LeadsAlong (withoutSlashes pattern.toList) names →
        Glob.isMatch (withoutSlashes pattern.toList) (Path.relativeText names) = true) ∧
    (IsSegmented (withoutSlashes pattern.toList) → (IsTakenBack pattern ↔
      withoutSlashes pattern.toList = "." ∨ withoutSlashes pattern.toList = "**" ∨
        IsAligned (withoutSlashes pattern.toList) ∨
          ∀ names, AreVisible names → ¬ LeadsAlong (withoutSlashes pattern.toList) names)) := by
  refine ⟨isTakenBack_iff h, fun hsegmented => ?_⟩
  rw [isTakenBack_iff h]
  generalize withoutSlashes pattern.toList = written at hsegmented ⊢
  constructor
  · intro hmatch
    by_contra hno
    simp only [not_or, not_forall, not_not, exists_prop] at hno
    obtain ⟨hdot, hstars, haligned, names, hvisible, hleads⟩ := hno
    by_cases hempty : written = ""
    · subst hempty
      have hroot := hmatch [] (by simp [AreVisible]) ((leadsAlong_of_root (.inl rfl)).mpr rfl)
      have hno : Glob.isMatch "" (Path.relativeText []) = false := by cbv
      rw [hno] at hroot
      cases hroot
    · obtain ⟨few, hvisible, hleads, hno⟩ := not_isMatch_of_not_isAligned hsegmented haligned
        (not_or.mpr ⟨hempty, hdot⟩) hstars hvisible hleads
      rw [hmatch few hvisible hleads] at hno
      cases hno
  · rintro (rfl | rfl | haligned | hnone) names hvisible hleads
    · obtain rfl := (leadsAlong_of_root (.inr rfl)).mp hleads
      exact SearchStep.isMatch_self (by decide)
    · rw [Glob.isMatch_iff]
      have hparse : Glob.parse "**".toList = [.anyRun, .anyRun] := by cbv
      rw [hparse]
      exact .skip (.run _)
    · exact isMatch_of_isAligned hsegmented haligned hleads
    · exact absurd hleads (hnone names hvisible)

theorem negation_takes_back_iff_names :
    isExclusion "packages/*" = false ∧ IsTakenBack "packages/*" ∧
      isExclusion "packages/**" = false ∧ ¬ IsTakenBack "packages/**" := by
  have hwritten : withoutSlashes "packages/*".toList = "packages/*" := by decide
  have hwritten' : withoutSlashes "packages/**".toList = "packages/**" := by decide
  have hleads : LeadsAlong "packages/**" ["packages"] :=
    (leadsAlong_iff (by decide)).mpr ⟨[.name "packages", .anyFolders], by decide,
      .name "packages" (.anyFolders [] .nil)⟩
  have hvisible : AreVisible ["packages"] := by
    intro name hm
    rw [List.mem_singleton.mp hm]
    decide
  refine ⟨by decide, ?_, by decide, ?_⟩
  · rw [(negation_takes_back_iff (by decide)).2 (isSegmented_of_not_mem (by decide)), hwritten]
    exact .inr (.inr (.inl (by decide)))
  · rw [(negation_takes_back_iff (by decide)).2 (isSegmented_of_not_mem (by decide)), hwritten']
    rintro (h | h | h | h)
    · exact absurd h (by decide)
    · exact absurd h (by decide)
    · exact absurd h (by decide)
    · exact h ["packages"] hvisible hleads

end Segments

def takenBack : String := "packages:\n- 'a/**'\n- '!a/**'\n"

theorem negation_leaves_folder :
    patterns (twoFolders takenBack) .top = .ok ["a/**", "!a/**"] ∧
      foldersOf (twoFolders takenBack) .top ["a/**"] = .ok [⟨.root, ["a"]⟩] ∧
      packageFolders (twoFolders takenBack) .top = .ok [⟨.root, ["a"]⟩] := by
  have hpatterns : patterns (twoFolders takenBack) .top = .ok ["a/**", "!a/**"] :=
    patterns_of_tokens takenBack.toList (by cbv) rfl (by decide +kernel)
  have hdeep : (twoFolders "").limits.isTooDeep (Path.ofString "a/**") .top = false := by cbv
  have hsteps : SearchStep.ofPattern "a/**" = .ok [.name "a", .anyFolders] := by decide
  have hstop : (twoFolders "").stopOf? [.name "a", .anyFolders] .top = none := by cbv
  have hsearch : (twoFolders "").search [.name "a", .anyFolders] .top = [⟨.root, ["a"]⟩] := by
    cbv
  have hplaces : placesOf (twoFolders "") .top "a/**" = .ok [⟨.root, ["a"]⟩] := by
    rw [placesOf, if_neg (by decide), FileTree.find_eq_search hdeep hsteps hstop]
    simp only [hsearch, List.mergeSort_singleton]
  have hfolder : ∀ given, exclusions given = [] ∨ exclusions given = ["a/**"] →
      isPackageFolder (twoFolders "") .top (exclusions given) ⟨.root, ["a"]⟩ = true := by
    rintro given (h | h)
    all_goals
      rw [h]
      cbv
  have hseen : ∀ given, exclusions given = [] ∨ exclusions given = ["a/**"] →
      (List.flatMap (lookedUp (twoFolders "") .top (exclusions given))
        [⟨.root, ["a"]⟩]).find? (twoFolders "").isRefused = none := by
    rintro given (h | h)
    all_goals
      rw [h]
      cbv
  have hfolders : ∀ given, inclusions given = ["a/**"] →
      exclusions given = [] ∨ exclusions given = ["a/**"] →
        foldersOf (twoFolders takenBack) .top given = .ok [⟨.root, ["a"]⟩] := by
    intro given hin hout
    rw [foldersOf_congr (shape_twoFolders takenBack ""), foldersOf_of_places hin hplaces
      (hseen given hout), List.filter_singleton, hfolder given hout]
    simp [List.eraseDups_cons]
  rw [packageFolders_of_patterns hpatterns]
  exact ⟨hpatterns, hfolders _ (by cbv) (.inl (by cbv)), hfolders _ (by cbv) (.inr (by cbv))⟩

end Workspace

end WorkspaceCycles
