import Mathlib
import WorkspaceCycles.Proofs.LinkedSources
import WorkspaceCycles.Proofs.ListedHits

open scoped List

namespace WorkspaceCycles

structure NativeOptions.IsNarrower (o o' : NativeOptions) : Prop where
  skipTypeOnly : o'.skipTypeOnly = true → o.skipTypeOnly = true
  skipDynamicImports : o'.skipDynamicImports = true → o.skipDynamicImports = true
  maxCycleLength : o.maxCycleLength ≤ o'.maxCycleLength

namespace NameGraph

theorem IsElementary.mono {g g' : NameGraph} (h : ∀ a b, b ∈ g.neighbours a → b ∈ g'.neighbours a)
    {c : Cycle} (hc : g.IsElementary c) : g'.IsElementary c where
  closed := ⟨hc.closed.ne_nil, fun e he => h _ _ (hc.closed.edge e he)⟩
  nodup := hc.nodup

theorem mem_nodes_of_mem_neighbours_ofEntries {entries : List (String × List String)}
    {a b : String} (h : b ∈ (ofEntries entries).neighbours a) : a ∈ (ofEntries entries).nodes := by
  obtain ⟨e, he, rfl, -⟩ := mem_neighbours_ofEntries.mp h
  exact mem_nodes_ofEntries.mpr ⟨e, he, rfl⟩

end NameGraph

namespace Source

section Lists

variable {α : Type} {p : α → Bool} {xs : List α} (h : xs.Pairwise fun a b => p b = true → p a = true)

include h

theorem takeWhile_eq_filter_of_pairwise : xs.takeWhile p = xs.filter p := by
  induction h with
  | nil => rfl
  | @cons x xs hx _ ih =>
    cases hp : p x with
    | true => rw [List.takeWhile_cons_of_pos hp, List.filter_cons_of_pos hp, ih]
    | false =>
      rw [List.takeWhile_cons_of_neg (by simp [hp]), List.filter_cons_of_neg (by simp [hp])]
      refine (List.filter_eq_nil_iff.mpr fun a ha hpa => ?_).symm
      rw [hx a ha hpa] at hp
      cases hp

theorem dropWhile_eq_filter_of_pairwise : xs.dropWhile p = xs.filter (!p ·) := by
  induction h with
  | nil => rfl
  | @cons x xs hx _ ih =>
    cases hp : p x with
    | true => rw [List.dropWhile_cons_of_pos hp, List.filter_cons_of_neg (by simp [hp]), ih]
    | false =>
      rw [List.dropWhile_cons_of_neg (by simp [hp])]
      refine (List.filter_eq_self.mpr fun a ha => ?_).symm
      rcases List.mem_cons.mp ha with rfl | ha
      · rw [hp, Bool.not_false]
      · apply (Bool.not_eq_true' _).mpr
        apply Bool.eq_false_iff.mpr
        intro hpa
        rw [hx a ha hpa] at hp
        cases hp

end Lists

theorem pairwise_sorted (hits : List Hit) :
    (sorted hits).Pairwise fun a b => b.left ≤ a.left := by
  have hle : (sorted hits).Pairwise fun a b => decide (b.left ≤ a.left) = true := by
    apply List.pairwise_mergeSort
    · intro a b c hab hbc
      simp only [decide_eq_true_eq] at hab hbc ⊢
      omega
    · intro a b
      simp only [Bool.or_eq_true, decide_eq_true_eq]
      omega
  exact hle.imp fun h => of_decide_eq_true h

theorem sorted_cons_eq_filter (hit : Hit) (hits : List Hit) : sorted (hit :: hits) =
    (sorted hits).filter (hit.left < ·.left) ++
      hit :: (sorted hits).filter fun a => !decide (hit.left < a.left) := by
  have h : (sorted hits).Pairwise fun a b =>
      decide (hit.left < b.left) = true → decide (hit.left < a.left) = true := by
    refine (pairwise_sorted hits).imp fun {a b} hab hb => ?_
    simp only [decide_eq_true_eq] at hb ⊢
    omega
  rw [sorted_cons, takeWhile_eq_filter_of_pairwise h, dropWhile_eq_filter_of_pairwise h]

theorem sorted_sublist {hits more : List Hit} (h : hits <+ more) : sorted hits <+ sorted more := by
  induction h with
  | slnil => exact .refl _
  | @cons hits more hit _ ih =>
    refine ih.trans ?_
    rw [sorted_cons]
    conv_lhs => rw [← List.takeWhile_append_dropWhile (p := (hit.left < ·.left)) (l := sorted more)]
    exact (List.sublist_cons_self hit _).append_left _
  | @cons_cons hits more hit _ ih =>
    rw [sorted_cons_eq_filter, sorted_cons_eq_filter]
    exact (ih.filter _).append ((ih.filter _).cons_cons hit)

theorem inOrder_sublist {hits more : List Hit} (h : hits <+ more) : inOrder hits <+ inOrder more :=
  (sorted_sublist h).map _

variable {o o' : NativeOptions} (ho : o.IsNarrower o')

include ho

theorem staticHits_sublist (s : List Char) :
    staticHits s o.skipTypeOnly <+ staticHits s o'.skipTypeOnly := by
  apply List.Sublist.map
  apply List.monotone_filter_right
  intro found hf
  simp only [Bool.not_eq_true', Bool.and_eq_false_iff] at hf ⊢
  refine hf.imp_right fun hkept => ?_
  cases hskip : o'.skipTypeOnly with
  | false => rfl
  | true =>
    rw [ho.skipTypeOnly hskip] at hkept
    cases hkept

theorem callHits_sublist (s : List Char) :
    callHits s o.skipDynamicImports <+ callHits s o'.skipDynamicImports := by
  apply List.Sublist.append_left
  cases hskip : o'.skipDynamicImports with
  | true => rw [ho.skipDynamicImports hskip]
  | false =>
    cases o.skipDynamicImports with
    | true => exact List.nil_sublist _
    | false => exact .refl _

theorem specifiers_sublist (source : List Char) :
    specifiers source o.skipTypeOnly o.skipDynamicImports <+
      specifiers source o'.skipTypeOnly o'.skipDynamicImports := by
  rw [specifiers_eq, specifiers_eq]
  exact inOrder_sublist ((staticHits_sublist ho _).append (callHits_sublist ho _))

theorem specifiersAt_sublist (t : FileTree) (file : Path) :
    specifiersAt t file o <+ specifiersAt t file o' := by
  unfold specifiersAt
  split
  · exact specifiers_sublist ho _
  · exact .slnil

variable {t : FileTree} {package root : Path} {known : List Path}

theorem Imports.of_isNarrower {a b : String} (h : Imports t root known o a b) :
    Imports t root known o' a b := by
  obtain ⟨file, hfile, ha, specifier, hs, htarget⟩ := h
  exact ⟨file, hfile, ha, specifier, (specifiersAt_sublist ho t file).subset hs, htarget⟩

theorem exists_importGraph {g' : NameGraph} (h : importGraph t package o' = .ok g') :
    ∃ g, importGraph t package o = .ok g := by
  obtain ⟨hresolves, hscanned⟩ := exists_importGraph_iff.mp ⟨g', h⟩
  refine exists_importGraph_iff.mpr ⟨hresolves, fun names hn => ?_⟩
  obtain ⟨hnames, hinside, hresolved⟩ := hscanned names hn
  exact ⟨hnames, hinside, fun s hs => hresolved s ((specifiersAt_sublist ho t _).subset hs)⟩

omit ho in
theorem importCycles_eq_ok {expired : Bool} {cycles : List Cycle}
    (h : importCycles t package o expired = .ok cycles) :
    ∃ g, importGraph t package o = .ok g ∧
      cycles = g.elementaryCycles o.maxCycleLength.toNat := by
  have hfound : ∀ r : Except PathFault NameGraph,
      (do return (← r.mapError ScanFault.path).elementaryCycles o.maxCycleLength.toNat) =
        (.ok cycles : Except ScanFault (List Cycle)) →
      ∃ g, r = .ok g ∧ cycles = g.elementaryCycles o.maxCycleLength.toNat := by
    rintro (fault | g) h
    · cases h
    · exact ⟨g, rfl, (Except.ok.inj h).symm⟩
  cases expired with
  | false => exact hfound _ h
  | true =>
    unfold importCycles at h
    simp only [if_true] at h
    obtain ⟨root, -, h⟩ := exists_of_bind_eq_ok h
    split at h
    · cases h
    · exact hfound _ h

theorem exists_importCycles_of_isNarrower {expired : Bool} {cycles' : List Cycle}
    (h : importCycles t package o' expired = .ok cycles') :
    ∃ cycles, importCycles t package o expired = .ok cycles := by
  obtain ⟨g', hg', -⟩ := importCycles_eq_ok h
  obtain ⟨g, hg⟩ := exists_importGraph ho hg'
  cases expired with
  | false => exact ⟨_, exists_importCycles hg⟩
  | true =>
    unfold importCycles at h ⊢
    simp only [if_true] at h ⊢
    obtain ⟨root, hroot, h⟩ := exists_of_bind_eq_ok h
    rw [hroot, hg]
    split at h
    · cases h
    · rename_i hfiles
      exact ⟨_, if_neg hfiles⟩

/-- Whenever the wider scan comes to an end, so does the narrower one. It lists of each file some of
the specifiers, in the same order, its graph has the same nodes and some of the edges, and all that
it finds is found by the wider one. -/
theorem wider_scan_keeps_cycles {expired' : Bool} {cycles' : List Cycle}
    (h : importCycles t package o' expired' = .ok cycles') :
    (∀ file, specifiersAt t file o <+ specifiersAt t file o') ∧
      (∃ cycles, importCycles t package o expired' = .ok cycles) ∧
      ∃ g g', importGraph t package o = .ok g ∧ importGraph t package o' = .ok g' ∧
        (∀ a, a ∈ g.nodes ↔ a ∈ g'.nodes) ∧
        (∀ a b, b ∈ g.neighbours a → b ∈ g'.neighbours a) ∧
        ∀ expired cycles, importCycles t package o expired = .ok cycles →
          ∀ c ∈ cycles, ∃ d ∈ cycles', d ~r c := by
  obtain ⟨g', hg', rfl⟩ := importCycles_eq_ok h
  obtain ⟨g, hg⟩ := exists_importGraph ho hg'
  obtain ⟨root, known, hknown, -, hnodes, hedges⟩ := importGraph_eq_ok hg
  obtain ⟨root', known', hknown', ⟨entries, rfl⟩, hnodes', hedges'⟩ := importGraph_eq_ok hg'
  cases hknown.symm.trans hknown'
  have hwider : ∀ a b, b ∈ g.neighbours a → b ∈ (NameGraph.ofEntries entries).neighbours a :=
    fun a b hb => (hedges' a b).mpr (((hedges a b).mp hb).of_isNarrower ho)
  refine ⟨specifiersAt_sublist ho t, exists_importCycles_of_isNarrower ho h, g, _, hg, hg',
    fun a => (hnodes a).trans (hnodes' a).symm, hwider, fun expired cycles hcycles c hc => ?_⟩
  obtain ⟨g₁, hg₁, rfl⟩ := importCycles_eq_ok hcycles
  cases hg.symm.trans hg₁
  obtain ⟨helementary, hlength, -⟩ := NameGraph.mem_elementaryCycles hc
  refine ⟨c.rotateToLeast, ?_, Cycle.rotateToLeast_isRotated c⟩
  have hmax := ho.maxCycleLength
  apply NameGraph.rotateToLeast_mem_elementaryCycles
  · exact fun a b => NameGraph.mem_nodes_of_mem_neighbours_ofEntries
  · exact helementary.mono hwider
  · omega

omit ho

section LateImport

def lateLine : List UInt8 := "import('./c');\n".toList.map fun c => c.toNat.toUInt8

def lateImport : FileTree where
  root := .folder [("src", .folder [("a.ts", .file (importing "./b") false),
    ("b.ts", .file (importing "./a") false), ("c.ts", .file lateLine false)])]

def lateFiles : List Path :=
  [⟨.root, ["src", "a.ts"]⟩, ⟨.root, ["src", "b.ts"]⟩, ⟨.root, ["src", "c.ts"]⟩]

def eager : NativeOptions := { skipDynamicImports := false }

theorem specifiersAt_of_text {file : Path} (bytes : List UInt8) {text : List Char}
    {specifiers' : List String} (hr : t.read file = .ok bytes)
    (ht : Text.unifyNewlines (Text.Utf8.decodeLoosely bytes) = text)
    (hs : specifiers text o.skipTypeOnly o.skipDynamicImports = specifiers') :
    specifiersAt t file o = specifiers' := by
  rw [specifiersAt, hr]
  simp only [ht, hs]

theorem importGraph_lateImport (late : List String)
    (ha : specifiers "import './b';\n".toList o.skipTypeOnly o.skipDynamicImports = ["./b"])
    (hb : specifiers "import './a';\n".toList o.skipTypeOnly o.skipDynamicImports = ["./a"])
    (hc : specifiersAt lateImport ⟨.root, ["src", "c.ts"]⟩ o = late)
    (hl : late = [] ∨ late = ["./c"]) :
    importGraph lateImport ⟨.root, []⟩ o = .ok (.ofEntries [("src/a.ts", ["src/b.ts"]),
      ("src/b.ts", ["src/a.ts"]), ("src/c.ts", late.map fun _ => "src/c.ts")]) := by
  have hfiles : canonicalFiles lateImport ⟨.root, []⟩ = .ok (⟨.root, []⟩, lateFiles) := by cbv
  have ha : specifiersAt lateImport ⟨.root, ["src", "a.ts"]⟩ o = ["./b"] :=
    specifiersAt_of_text (importing "./b") (by cbv) (by cbv) ha
  have hb : specifiersAt lateImport ⟨.root, ["src", "b.ts"]⟩ o = ["./a"] :=
    specifiersAt_of_text (importing "./a") (by cbv) (by cbv) hb
  have ha : importsOf lateImport ⟨.root, []⟩ lateFiles o ⟨.root, ["src", "a.ts"]⟩ =
      .ok ("src/a.ts", ["src/b.ts"]) := by
    rw [importsOf, ha]
    cbv
  have hb : importsOf lateImport ⟨.root, []⟩ lateFiles o ⟨.root, ["src", "b.ts"]⟩ =
      .ok ("src/b.ts", ["src/a.ts"]) := by
    rw [importsOf, hb]
    cbv
  have hc : importsOf lateImport ⟨.root, []⟩ lateFiles o ⟨.root, ["src", "c.ts"]⟩ =
      .ok ("src/c.ts", late.map fun _ => "src/c.ts") := by
    rw [importsOf, hc]
    rcases hl with rfl | rfl
    · cbv
    · cbv
  rw [importGraph, hfiles]
  change (List.mapM (importsOf _ _ _ _) _ >>= _) = _
  rw [lateFiles, List.mapM_cons, ← lateFiles, ha, List.mapM_cons, hb, List.mapM_cons, hc]
  rfl

theorem importGraph_lateImport_default : importGraph lateImport ⟨.root, []⟩ {} =
    .ok (.ofEntries [("src/a.ts", ["src/b.ts"]), ("src/b.ts", ["src/a.ts"]), ("src/c.ts", [])]) := by
  have hc : specifiersAt lateImport ⟨.root, ["src", "c.ts"]⟩ {} = [] :=
    specifiersAt_of_text lateLine (by cbv) (by cbv) (by decide +kernel)
  exact importGraph_lateImport [] (by decide +kernel) (by decide +kernel) hc (.inl rfl)

theorem importGraph_lateImport_eager : importGraph lateImport ⟨.root, []⟩ eager =
    .ok (.ofEntries [("src/a.ts", ["src/b.ts"]), ("src/b.ts", ["src/a.ts"]),
      ("src/c.ts", ["src/c.ts"])]) := by
  have hc : specifiersAt lateImport ⟨.root, ["src", "c.ts"]⟩ eager = ["./c"] :=
    specifiersAt_of_text lateLine (by cbv) (by cbv) (by decide +kernel)
  exact importGraph_lateImport ["./c"] (by decide +kernel) (by decide +kernel) hc (.inr rfl)

theorem wider_scan_keeps_cycles_late :
    NativeOptions.IsNarrower {} eager ∧
      importCycles lateImport ⟨.root, []⟩ {} false = .ok [["src/a.ts", "src/b.ts"]] ∧
      importCycles lateImport ⟨.root, []⟩ eager false =
        .ok [["src/c.ts"], ["src/a.ts", "src/b.ts"]] ∧
      ∃ d ∈ [["src/c.ts"], ["src/a.ts", "src/b.ts"]], d ~r ["src/a.ts", "src/b.ts"] := by
  have ho : NativeOptions.IsNarrower {} eager :=
    ⟨fun _ => rfl, fun h => (nomatch h), Int.le_refl _⟩
  have hnarrow : importCycles lateImport ⟨.root, []⟩ {} false =
      .ok [["src/a.ts", "src/b.ts"]] := by
    rw [exists_importCycles importGraph_lateImport_default]
    cbv
  have hwide : importCycles lateImport ⟨.root, []⟩ eager false =
      .ok [["src/c.ts"], ["src/a.ts", "src/b.ts"]] := by
    rw [exists_importCycles importGraph_lateImport_eager]
    cbv
  obtain ⟨-, -, g, g', -, -, -, -, hkept⟩ := wider_scan_keeps_cycles ho hwide
  exact ⟨ho, hnarrow, hwide, hkept false _ hnarrow _ List.mem_cons_self⟩

end LateImport

end Source

end WorkspaceCycles
