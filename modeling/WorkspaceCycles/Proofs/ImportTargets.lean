import Mathlib
import WorkspaceCycles.Proofs.ImportCycles
import WorkspaceCycles.Proofs.RelativeImports

namespace WorkspaceCycles

theorem Text.exists_mem_split_iff {α : Type} [DecidableEq α] {sep c : α} (hc : c ≠ sep)
    (s : List α) : (∃ piece ∈ split sep s, c ∈ piece) ↔ c ∈ s := by
  induction s with
  | nil => simp [split]
  | cons a s ih =>
    rw [split]
    split
    · rename_i ha
      rw [List.exists_mem_cons_iff, ih, List.mem_cons, ha]
      simp [hc]
    · split
      · rename_i hs
        exact absurd hs (split_ne_nil sep s)
      · rename_i piece pieces hs
        rw [hs, List.exists_mem_cons_iff] at ih
        rw [List.exists_mem_cons_iff, List.mem_cons, List.mem_cons, or_assoc, ih]

theorem Path.exists_mem_ofString_iff {c : Char} (hslash : c ≠ '/') (hdot : c ≠ '.') (s : String) :
    (∃ part ∈ (ofString s).parts, c ∈ part.toList) ↔ c ∈ s.toList := by
  rw [← Text.exists_mem_split_iff hslash s.toList]
  simp only [ofString, names, List.mem_map, List.mem_filter, Bool.and_eq_true, bne_iff_ne]
  constructor
  · rintro ⟨part, ⟨piece, ⟨hp, -⟩, rfl⟩, hc⟩
    exact ⟨piece, hp, by simpa using hc⟩
  · rintro ⟨piece, hp, hc⟩
    refine ⟨String.ofList piece, ⟨piece, ⟨hp, ?_, ?_⟩, rfl⟩, by simpa using hc⟩
    · rintro rfl
      simp at hc
    · rintro rfl
      exact hdot (List.mem_singleton.mp hc)

theorem FileTree.canonical_anchor (t : FileTree) (p : Path) : (t.canonical p).anchor = .root := by
  unfold canonical
  split <;> rfl

theorem FileTree.canonical_eq_top_iff {t : FileTree} {p : Path} :
    t.canonical p = .top ↔ (t.canonical p).parts = [] := by
  have hanchor := t.canonical_anchor p
  revert hanchor
  generalize t.canonical p = q
  cases q
  rintro rfl
  simp [Path.top]

theorem FileTree.resolves_iff_of_links_eq_nil {t : FileTree} (h : t.links = []) {p : Path} :
    t.Resolves p ↔ ∀ part ∈ p.parts, '\x00' ∉ part.toList :=
  ⟨fun hr => hr.without_null, fun hnull =>
    exists_canonical?_iff.mp ⟨_, canonical?_of_links_eq_nil h hnull⟩⟩

namespace Source

def namedPath (importer : Path) (specifier : String) : Path :=
  importer.parent.join (Path.ofString specifier)

section Resolve

variable {t : FileTree} {importer : Path} {s : String} {known : List Path}

theorem exists_candidates_iff {base : Path} :
    (∃ cs, candidates base = .ok cs) ↔ base.parts ≠ [] := by
  constructor
  · rintro ⟨cs, hc⟩ hnil
    rw [candidates, if_pos hnil] at hc
    cases hc
  · intro hne
    obtain ⟨others, hc⟩ := exists_candidates hne
    exact ⟨_, hc⟩

theorem resolve_of_not_isRelative (h : ¬ isRelative s) : resolve t importer s known = .ok none := by
  rw [resolve, if_neg h]
  rfl

theorem resolve_of_isRelative (h : isRelative s) : resolve t importer s known =
    (t.canonical? (namedPath importer s)).bind fun base =>
      (candidates base).map fun cs => cs.find? (· ∈ known) := by
  rw [resolve, if_pos h]
  change (t.canonical? (namedPath importer s) >>= _) = _
  cases t.canonical? (namedPath importer s) with
  | error fault => rfl
  | ok base =>
    change (candidates base >>= _) = (candidates base).map _
    cases candidates base <;> rfl

theorem mem_of_resolve {p : Path} (h : resolve t importer s known = .ok (some p)) : p ∈ known := by
  by_cases hr : isRelative s
  · rw [resolve_of_isRelative hr] at h
    obtain ⟨base, -, h⟩ := exists_of_bind_eq_ok h
    cases hc : candidates base with
    | error fault =>
      rw [hc] at h
      cases h
    | ok cs =>
      rw [hc] at h
      simpa using List.find?_some (Except.ok.inj h)
  · rw [resolve_of_not_isRelative hr] at h
    cases h

theorem exists_resolve_iff : (∃ r, resolve t importer s known = .ok r) ↔ (isRelative s →
    t.Resolves (namedPath importer s) ∧ t.canonical (namedPath importer s) ≠ .top) := by
  by_cases hr : isRelative s
  · rw [resolve_of_isRelative hr, ← FileTree.exists_canonical?_iff, Ne,
      FileTree.canonical_eq_top_iff]
    simp only [hr, true_imp_iff]
    constructor
    · rintro ⟨r, h⟩
      obtain ⟨base, hb, h⟩ := exists_of_bind_eq_ok h
      refine ⟨⟨base, hb⟩, ?_⟩
      rw [← FileTree.canonical?_eq_ok hb]
      refine exists_candidates_iff.mp ?_
      cases hc : candidates base with
      | error fault =>
        rw [hc] at h
        cases h
      | ok cs => exact ⟨cs, rfl⟩
    · rintro ⟨⟨base, hb⟩, hne⟩
      rw [← FileTree.canonical?_eq_ok hb] at hne
      obtain ⟨cs, hc⟩ := exists_candidates_iff.mpr hne
      rw [hb]
      change ∃ r, (candidates base).map _ = .ok r
      rw [hc]
      exact ⟨_, rfl⟩
  · simp only [hr, Bool.false_eq_true, false_imp_iff, iff_true]
    exact ⟨none, resolve_of_not_isRelative hr⟩

theorem parts_namedPath (hr : isRelative s) :
    (namedPath importer s).parts = importer.parent.parts ++ (Path.ofString s).parts := by
  have hdot : s.toList.head? = some '.' := of_decide_eq_true hr
  have hanchor : (Path.ofString s).anchor = .relative :=
    Path.anchorOf_of_head (by simp [hdot])
  rw [namedPath, Path.join, if_neg (by simp [Path.isAbsolute, hanchor])]

theorem exists_resolve_iff_of_links_eq_nil (h : t.links = []) :
    (∃ r, resolve t importer s known = .ok r) ↔ (isRelative s →
      (∀ part ∈ importer.parent.parts, '\x00' ∉ part.toList) ∧ '\x00' ∉ s.toList ∧
        FileTree.walk [] (importer.parent.parts ++ (Path.ofString s).parts) ≠ []) := by
  rw [exists_resolve_iff]
  refine imp_congr_right fun hr => ?_
  have hnull : (∀ part ∈ (Path.ofString s).parts, '\x00' ∉ part.toList) ↔ '\x00' ∉ s.toList := by
    rw [← Path.exists_mem_ofString_iff (by decide) (by decide) s]
    simp only [not_exists, not_and]
  rw [FileTree.resolves_iff_of_links_eq_nil h, Ne, FileTree.canonical_eq_top_iff, parts_namedPath hr,
    List.forall_mem_append, hnull, and_assoc, FileTree.canonical, parts_namedPath hr,
    FileTree.follow_of_links_eq_nil h]

theorem resolve_of_top (hr : isRelative s) (h : t.canonical? (namedPath importer s) = .ok .top) :
    resolve t importer s known = .error (.emptyName .top) := by
  rw [resolve_of_isRelative hr, h]
  rfl

end Resolve

theorem exists_resolve_of_importsOf {t : FileTree} {root importer : Path} {known : List Path}
    {o : NativeOptions} {e : String × List String} {s : String}
    (h : importsOf t root known o importer = .ok e) (hs : s ∈ specifiersAt t importer o) :
    ∃ r, resolve t importer s known = .ok r := by
  obtain ⟨name, -, h⟩ := exists_of_bind_eq_ok h
  obtain ⟨targets, ht, -⟩ := exists_of_bind_eq_ok h
  obtain ⟨target, htarget⟩ := exists_of_filterMapM_eq_ok ht s hs
  obtain ⟨r, hr, -⟩ := exists_of_bind_eq_ok htarget
  exact ⟨r, hr⟩

theorem exists_resolve_of_importGraph {t : FileTree} {package root importer : Path}
    {known : List Path} {o : NativeOptions} {g : NameGraph} {s : String}
    (hk : canonicalFiles t package = .ok (root, known)) (hi : importer ∈ known)
    (hs : s ∈ specifiersAt t importer o) (h : importGraph t package o = .ok g) :
    ∃ r, resolve t importer s known = .ok r := by
  obtain ⟨⟨root', known'⟩, hk', h⟩ := exists_of_bind_eq_ok h
  rw [hk, Except.ok.injEq] at hk'
  cases hk'
  obtain ⟨entries, he, -⟩ := exists_of_bind_eq_ok h
  obtain ⟨e, -, he⟩ := (mem_of_mapM_eq_ok he).1 importer hi
  exact exists_resolve_of_importsOf he hs

/-- A specifier is resolved, to a known source or to none, unless it is relative and the path it
names cannot be looked up or is the top of the tree. Where no links are, that is a path with a null
character or with as many steps up as lead to the top. No scan that is made to its end has met a
specifier that is not resolved. -/
theorem resolve_contract (t : FileTree) (importer : Path) (s : String) (known : List Path) :
    ((∃ r, resolve t importer s known = .ok r) ↔ (isRelative s →
        t.Resolves (namedPath importer s) ∧ t.canonical (namedPath importer s) ≠ .top)) ∧
      (∀ p, resolve t importer s known = .ok (some p) → p ∈ known) ∧
      (isRelative s → t.canonical? (namedPath importer s) = .ok .top →
        resolve t importer s known = .error (.emptyName .top)) ∧
      (t.links = [] → ((∃ r, resolve t importer s known = .ok r) ↔ (isRelative s →
        (∀ part ∈ importer.parent.parts, '\x00' ∉ part.toList) ∧ '\x00' ∉ s.toList ∧
          FileTree.walk [] (importer.parent.parts ++ (Path.ofString s).parts) ≠ []))) ∧
      ∀ package root o g, canonicalFiles t package = .ok (root, known) → importer ∈ known →
        s ∈ specifiersAt t importer o → importGraph t package o = .ok g →
          ∃ r, resolve t importer s known = .ok r :=
  ⟨exists_resolve_iff, fun _ h => mem_of_resolve h, resolve_of_top,
    exists_resolve_iff_of_links_eq_nil, fun _ _ _ _ hk hi hs h =>
      exists_resolve_of_importGraph hk hi hs h⟩

theorem not_resolve_of_steps_to_top :
    specifiers "import '../..';\n".toList true true = ["../.."] ∧
      ¬ ∃ r, resolve .empty ⟨.root, ["pkg", "src", "a.ts"]⟩ "../.." [] = .ok r := by
  have hs : statement? "import '../..';\n".toList =
      some ((false, ⟨8, "../..".toList⟩), ";\n".toList) := by decide +kernel
  refine ⟨specifiers_of_line (by cbv) hs (by cbv), ?_⟩
  rw [exists_resolve_iff_of_links_eq_nil (by decide)]
  decide

structure LeadsTo (t : FileTree) (importer : Path) (s : String) (p : Path) : Prop where
  isRelative : isRelative s
  canonical?_eq : t.canonical? (namedPath importer s) = .ok p

theorem leadsTo_of_isSpelling {t : FileTree} {importer folder : Path} {s : String}
    {place : List String} (hlinks : t.links = [])
    (hfolder : t.canonical? importer.parent = .ok folder)
    (hs : Path.IsSpelling folder.parts place s) (hplace : ∀ name ∈ place, Path.IsName name) :
    LeadsTo t importer s ⟨.root, place⟩ where
  isRelative := by
    rw [isRelative, hs.head?_eq]
    rfl
  canonical?_eq := canonical?_join hlinks hfolder hs hplace

end Source

namespace Path

theorem splitSuffix_append (s : List Char) {tail : List Char} (hd : '.' ∉ tail) :
    splitSuffix (s ++ '.' :: tail) =
      if tail = [] ∨ s = [] then (s ++ '.' :: tail, []) else (s, '.' :: tail) := by
  have hreverse : (s ++ '.' :: tail).reverse = tail.reverse ++ '.' :: s.reverse := by simp
  have htail : ((s ++ '.' :: tail).reverse.takeWhile (· != '.')).reverse = tail := by
    rw [hreverse, List.takeWhile_append_of_pos]
    · simp
    · intro c hc
      have hne : c ≠ '.' := by
        rintro rfl
        exact hd (List.mem_reverse.mp hc)
      simpa using hne
  have hlength : (s ++ '.' :: tail).length - tail.length - 1 = s.length := by
    simp only [List.length_append, List.length_cons]
    omega
  have hne : tail.length ≠ (s ++ '.' :: tail).length := by
    simp only [List.length_append, List.length_cons]
    omega
  simp only [splitSuffix, htail, hlength, List.take_left, hne, false_or]

theorem splitSuffix_of_not_mem {s : List Char} (h : '.' ∉ s) : splitSuffix s = (s, []) := by
  have htake : (s.reverse.takeWhile (· != '.')).reverse = s := by
    rw [List.takeWhile_eq_self_iff.mpr, List.reverse_reverse]
    intro c hc
    have hne : c ≠ '.' := by
      rintro rfl
      exact h (List.mem_reverse.mp hc)
    simpa using hne
  simp only [splitSuffix, htake, true_or, or_true, if_true]

structure HasSuffix (name stem tail : String) : Prop where
  stem_ne : stem ≠ ""
  tail_ne : tail ≠ ""
  dotless : '.' ∉ tail.toList
  name_eq : name = stem ++ "." ++ tail

theorem HasSuffix.splitSuffix_eq {name stem tail : String} (h : HasSuffix name stem tail) :
    splitSuffix name.toList = (stem.toList, '.' :: tail.toList) := by
  have hchars : name.toList = stem.toList ++ '.' :: tail.toList := by simp [h.name_eq]
  rw [hchars, splitSuffix_append _ h.dotless, if_neg (by simp [h.stem_ne, h.tail_ne])]

theorem splitSuffix_eq_self_or (name : String) :
    splitSuffix name.toList = (name.toList, []) ∨ ∃ stem tail, HasSuffix name stem tail := by
  by_cases hd : '.' ∈ name.toList
  · obtain ⟨tail, stem, hs, ht⟩ := List.eq_append_cons_of_mem (List.mem_reverse.mpr hd)
    have hdotless : '.' ∉ tail.reverse := by simpa using ht
    have hname : name.toList = stem.reverse ++ '.' :: tail.reverse := by
      rw [← List.reverse_reverse name.toList, hs]
      simp
    by_cases hne : tail.reverse = [] ∨ stem.reverse = []
    · left
      rw [hname, splitSuffix_append _ hdotless, if_pos hne]
    · right
      rw [not_or] at hne
      refine ⟨String.ofList stem.reverse, String.ofList tail.reverse, ?_, ?_, ?_, ?_⟩
      · simpa using hne.2
      · simpa using hne.1
      · simpa using ht
      · rw [← String.toList_inj, hname]
        simp
  · exact .inl (splitSuffix_of_not_mem hd)

def withoutSuffix (name : String) : String :=
  String.ofList (splitSuffix name.toList).1

theorem HasSuffix.withoutSuffix_eq {name stem tail : String} (h : HasSuffix name stem tail) :
    withoutSuffix name = stem := by
  rw [withoutSuffix, h.splitSuffix_eq, String.ofList_toList]

theorem withoutSuffix_eq_self_iff {name : String} :
    withoutSuffix name = name ↔ ∀ stem tail, ¬ HasSuffix name stem tail := by
  constructor
  · intro h stem tail hs
    have hlength := congrArg String.length hs.name_eq
    rw [← hs.withoutSuffix_eq, h, String.length_append, String.length_append] at hlength
    have hdot : ".".length = 1 := rfl
    omega
  · intro h
    rcases splitSuffix_eq_self_or name with hs | ⟨stem, tail, hs⟩
    · rw [withoutSuffix, hs, String.ofList_toList]
    · exact absurd hs (h stem tail)

theorem withSuffix_child (p : Path) (name e : String) :
    (p.child name).withSuffix e = p.child (withoutSuffix name ++ e) := by
  rw [withSuffix, name_child, withName_child, withoutSuffix]

theorem HasSuffix.suffix_child {name stem tail : String} (h : HasSuffix name stem tail) (p : Path) :
    (p.child name).suffix = "." ++ tail := by
  rw [suffix, name_child, h.splitSuffix_eq, ← String.toList_inj]
  simp

theorem child_inj {p : Path} {a b : String} : p.child a = p.child b ↔ a = b := by
  simp [child]

theorem child_child_ne (p : Path) (a b c : String) : (p.child a).child b ≠ p.child c := by
  intro h
  have hparts := congrArg (fun q => q.parts.length) h
  simp [child] at hparts

end Path

namespace Source

section Script

variable {t : FileTree} {importer d : Path} {n e s : String} {known : List Path}

theorem hasSuffix_append (hn : n ≠ "") (he : e ∈ scriptSuffixes) :
    ∃ tail, e = "." ++ tail ∧ Path.HasSuffix (n ++ e) n tail := by
  have htail : ∀ tail : String, tail ≠ "" → '.' ∉ tail.toList →
      Path.HasSuffix (n ++ ("." ++ tail)) n tail :=
    fun tail ht hd => ⟨hn, ht, hd, by rw [String.append_assoc]⟩
  simp only [scriptSuffixes, List.mem_cons, List.not_mem_nil, or_false] at he
  rcases he with rfl | rfl | rfl | rfl
  · exact ⟨"js", rfl, htail "js" (by decide) (by decide)⟩
  · exact ⟨"jsx", rfl, htail "jsx" (by decide) (by decide)⟩
  · exact ⟨"mjs", rfl, htail "mjs" (by decide) (by decide)⟩
  · exact ⟨"cjs", rfl, htail "cjs" (by decide) (by decide)⟩

def untyped (d : Path) (script : String) : List Path :=
  suffixes.map (fun x => d.child (script ++ x)) ++
    suffixes.map fun x => (d.child script).child ("index" ++ x)

theorem candidates_of_script (hn : n ≠ "") (he : e ∈ scriptSuffixes) :
    candidates (d.child (n ++ e)) =
      .ok (d.child (n ++ e) :: d.child (Path.withoutSuffix n ++ ".ts") ::
        d.child (Path.withoutSuffix n ++ ".tsx") :: untyped d (n ++ e)) := by
  obtain ⟨tail, htail, hs⟩ := hasSuffix_append hn he
  have hsuffix : (d.child (n ++ e)).suffix ∈ scriptSuffixes := by
    rwa [hs.suffix_child, ← htail]
  have hbare : (d.child (n ++ e)).withSuffix "" = d.child n := by
    rw [Path.withSuffix_child, hs.withoutSuffix_eq, String.append_empty]
  simp only [candidates, if_neg (show (d.child (n ++ e)).parts ≠ [] by simp [Path.child]),
    if_pos hsuffix, hbare, Path.withSuffix_child, Path.name_child, Path.withName_child, untyped,
    typedSuffixes, List.map_cons, List.map_nil, List.cons_append, List.nil_append]

theorem typed_not_mem_untyped {x : String} (he : e ∈ scriptSuffixes) (hx : x ∈ typedSuffixes) :
    d.child (n ++ x) ∉ untyped d (n ++ e) := by
  have hdouble : ∀ e ∈ scriptSuffixes, ∀ y ∈ suffixes, e ++ y ∉ typedSuffixes := by decide
  intro hm
  rcases List.mem_append.mp hm with hm | hm
  · obtain ⟨y, hy, heq⟩ := List.mem_map.mp hm
    rw [Path.child_inj, String.append_assoc, String.append_right_inj] at heq
    exact hdouble e he y hy (heq ▸ hx)
  · obtain ⟨y, -, heq⟩ := List.mem_map.mp hm
    exact Path.child_child_ne _ _ _ _ heq

def typedSource (known : List Path) (d : Path) (n : String) : Path :=
  if d.child (n ++ ".ts") ∈ known then d.child (n ++ ".ts") else d.child (n ++ ".tsx")

theorem resolve_of_leadsTo {base : Path} {cs : List Path} (h : LeadsTo t importer s base)
    (hc : candidates base = .ok cs) :
    resolve t importer s known = .ok (cs.find? (· ∈ known)) := by
  rw [resolve_of_isRelative h.isRelative, h.canonical?_eq]
  change (candidates base).map _ = _
  rw [hc]
  rfl

variable (hn : n ≠ "") (he : e ∈ scriptSuffixes) (hs : LeadsTo t importer s (d.child (n ++ e)))
  (hshadow : d.child (n ++ e) ∉ known)

include hn he hs hshadow

theorem resolve_script (h : d.child (Path.withoutSuffix n ++ ".ts") ∈ known ∨
    d.child (Path.withoutSuffix n ++ ".tsx") ∈ known) :
    resolve t importer s known = .ok (some (typedSource known d (Path.withoutSuffix n))) := by
  rw [resolve_of_leadsTo hs (candidates_of_script hn he), List.find?_cons_of_neg (by simpa)]
  by_cases hts : d.child (Path.withoutSuffix n ++ ".ts") ∈ known
  · rw [List.find?_cons_of_pos (by simpa), typedSource, if_pos hts]
  · rw [List.find?_cons_of_neg (by simpa), List.find?_cons_of_pos (by simpa using h.resolve_left hts),
      typedSource, if_neg hts]

theorem resolve_script_ne {stem tail x : String} (hsuffix : Path.HasSuffix n stem tail)
    (hx : x ∈ typedSuffixes) :
    resolve t importer s known ≠ .ok (some (d.child (n ++ x))) := by
  have hlength : ∀ y ∈ typedSuffixes, 3 ≤ y.length ∧ y.length ≤ 4 := by decide
  have hne : ∀ y ∈ typedSuffixes, stem ++ y ≠ n ++ x := by
    intro y hy heq
    have hsum := congrArg String.length heq
    have htail : tail.length ≠ 0 := by simpa using hsuffix.tail_ne
    have hdot : ".".length = 1 := rfl
    have hxl := hlength x hx
    have hyl := hlength y hy
    simp only [hsuffix.name_eq, String.length_append] at hsum
    omega
  rw [resolve_of_leadsTo hs (candidates_of_script hn he), List.find?_cons_of_neg (by simpa),
    hsuffix.withoutSuffix_eq]
  intro h
  have hm := List.mem_of_find?_eq_some (Except.ok.inj h)
  rw [List.mem_cons, List.mem_cons, Path.child_inj, Path.child_inj] at hm
  rcases hm with hts | htsx | hm
  · exact hne ".ts" (by decide) hts.symm
  · exact hne ".tsx" (by decide) htsx.symm
  · exact typed_not_mem_untyped he hx hm

end Script

/-- A specifier that names a script stands for the typed source of the same name, `.ts` before
`.tsx`, exactly if the name has no suffix left when that of the script is taken away. If there is
one it is taken away as well, so that another source is found or none. -/
theorem script_name_resolves_iff {t : FileTree} {importer d : Path} {n e s : String}
    {known : List Path} (hn : n ≠ "") (he : e ∈ scriptSuffixes)
    (hs : LeadsTo t importer s (d.child (n ++ e))) (hshadow : d.child (n ++ e) ∉ known) :
    (d.child (n ++ ".ts") ∈ known ∨ d.child (n ++ ".tsx") ∈ known →
      (resolve t importer s known = .ok (some (typedSource known d n)) ↔
        ∀ stem tail, ¬ Path.HasSuffix n stem tail)) ∧
    ∀ stem tail, Path.HasSuffix n stem tail →
      (∀ x ∈ typedSuffixes, resolve t importer s known ≠ .ok (some (d.child (n ++ x)))) ∧
      (d.child (stem ++ ".ts") ∈ known ∨ d.child (stem ++ ".tsx") ∈ known →
        resolve t importer s known = .ok (some (typedSource known d stem))) := by
  have hne : ∀ stem tail, Path.HasSuffix n stem tail →
      ∀ x ∈ typedSuffixes, resolve t importer s known ≠ .ok (some (d.child (n ++ x))) :=
    fun stem tail hsuffix x hx => resolve_script_ne hn he hs hshadow hsuffix hx
  refine ⟨fun hknown => ⟨fun h stem tail hsuffix => ?_, fun hbare => ?_⟩,
    fun stem tail hsuffix => ⟨hne stem tail hsuffix, fun hknown => ?_⟩⟩
  · unfold typedSource at h
    split at h
    · exact hne stem tail hsuffix ".ts" (by decide) h
    · exact hne stem tail hsuffix ".tsx" (by decide) h
  · have hself := Path.withoutSuffix_eq_self_iff.mpr hbare
    have hr := resolve_script hn he hs hshadow (by rwa [hself])
    rwa [hself] at hr
  · have hstem := hsuffix.withoutSuffix_eq
    have hr := resolve_script hn he hs hshadow (by rwa [hstem])
    rwa [hstem] at hr

def typedSources : List Path :=
  [⟨.root, ["p", "src", "b.ts"]⟩, ⟨.root, ["p", "src", "b.tsx"]⟩,
    ⟨.root, ["p", "src", "b.model.ts"]⟩]

theorem leadsTo_script {place : List String} {s : String} (hplace : ∀ name ∈ place, Path.IsName name)
    (hs : Path.IsSpelling ["p", "src"] place s) :
    LeadsTo .empty ⟨.root, ["p", "src", "a.ts"]⟩ s ⟨.root, place⟩ := by
  have hfolder : FileTree.empty.canonical? (⟨.root, ["p", "src", "a.ts"]⟩ : Path).parent =
      .ok ⟨.root, ["p", "src"]⟩ := by cbv
  exact leadsTo_of_isSpelling (by decide) hfolder hs hplace

theorem script_name_resolves_iff_model :
    LeadsTo .empty ⟨.root, ["p", "src", "a.ts"]⟩ "./b.js" ⟨.root, ["p", "src", "b.js"]⟩ ∧
      resolve .empty ⟨.root, ["p", "src", "a.ts"]⟩ "./b.js" typedSources =
        .ok (some ⟨.root, ["p", "src", "b.ts"]⟩) ∧
      LeadsTo .empty ⟨.root, ["p", "src", "a.ts"]⟩ "./b.model.js"
        ⟨.root, ["p", "src", "b.model.js"]⟩ ∧
      resolve .empty ⟨.root, ["p", "src", "a.ts"]⟩ "./b.model.js" typedSources =
        .ok (some ⟨.root, ["p", "src", "b.ts"]⟩) := by
  have hb : LeadsTo .empty ⟨.root, ["p", "src", "a.ts"]⟩ "./b.js" ⟨.root, ["p", "src", "b.js"]⟩ :=
    leadsTo_script (by decide) (.inside ["b.js"] rfl (by decide))
  have hmodel : LeadsTo .empty ⟨.root, ["p", "src", "a.ts"]⟩ "./b.model.js"
      ⟨.root, ["p", "src", "b.model.js"]⟩ :=
    leadsTo_script (by decide) (.inside ["b.model.js"] rfl (by decide))
  have hbare : ∀ stem tail, ¬ Path.HasSuffix "b" stem tail :=
    Path.withoutSuffix_eq_self_iff.mp (by decide)
  have hsuffix : Path.HasSuffix "b.model" "b" "model" := ⟨by decide, by decide, by decide, rfl⟩
  refine ⟨hb, ?_, hmodel, ?_⟩
  · exact ((script_name_resolves_iff (d := ⟨.root, ["p", "src"]⟩) (n := "b") (e := ".js")
      (by decide) (by decide) hb (by decide)).1 (by decide)).mpr hbare
  · exact ((script_name_resolves_iff (d := ⟨.root, ["p", "src"]⟩) (n := "b.model") (e := ".js")
      (by decide) (by decide) hmodel (by decide)).2 "b" "model" hsuffix).2 (by decide)

theorem script_name_not_resolved :
    LeadsTo .empty ⟨.root, ["p", "src", "a.ts"]⟩ "./b.model.js"
        ⟨.root, ["p", "src", "b.model.js"]⟩ ∧
      ⟨.root, ["p", "src", "b.model.js"]⟩ ∉ [(⟨.root, ["p", "src", "b.model.ts"]⟩ : Path)] ∧
      resolve .empty ⟨.root, ["p", "src", "a.ts"]⟩ "./b.model.js"
        [⟨.root, ["p", "src", "b.model.ts"]⟩] = .ok none := by
  have hmodel : LeadsTo .empty ⟨.root, ["p", "src", "a.ts"]⟩ "./b.model.js"
      ⟨.root, ["p", "src", "b.model.js"]⟩ :=
    leadsTo_script (by decide) (.inside ["b.model.js"] rfl (by decide))
  refine ⟨hmodel, by decide, ?_⟩
  have hc := candidates_of_script (d := ⟨.root, ["p", "src"]⟩) (n := "b.model") (e := ".js")
    (by decide) (by decide)
  rw [resolve_of_leadsTo hmodel hc]
  decide

end Source

end WorkspaceCycles
