import Mathlib
import WorkspaceCycles.Proofs.ElementaryCycles
import WorkspaceCycles.Proofs.ToolRuns

namespace WorkspaceCycles

namespace NameGraph

theorem nodup_neighbours_ofEntries (entries : List (String × List String)) (name : String) :
    ((ofEntries entries).neighbours name).Nodup := by
  rw [neighbours_ofEntries]
  exact nodup_eraseDups _

end NameGraph

namespace Source

variable {t : FileTree} {package root : Path} {known : List Path} {o : NativeOptions}

def Imports (t : FileTree) (root : Path) (known : List Path) (o : NativeOptions)
    (a b : String) : Prop :=
  ∃ file ∈ known, nameOf root file = .ok a ∧ ∃ specifier ∈ specifiersAt t file o,
    ∃ target, resolve t file specifier known = .ok (some target) ∧ nameOf root target = .ok b

theorem importsOf_eq_ok {file : Path} {e : String × List String}
    (h : importsOf t root known o file = .ok e) :
    nameOf root file = .ok e.1 ∧ ∀ b, b ∈ e.2 ↔ ∃ specifier ∈ specifiersAt t file o,
      ∃ target, resolve t file specifier known = .ok (some target) ∧
        nameOf root target = .ok b := by
  obtain ⟨name, hn, h⟩ := exists_of_bind_eq_ok h
  obtain ⟨targets, ht, h⟩ := exists_of_bind_eq_ok h
  cases h
  refine ⟨hn, fun b => ?_⟩
  rw [List.mem_eraseDups, mem_of_filterMapM_eq_ok ht]
  refine exists_congr fun specifier => and_congr_right fun _ => ?_
  constructor
  · intro h
    obtain ⟨target?, hr, h⟩ := exists_of_bind_eq_ok h
    cases target? with
    | none => cases h
    | some target =>
      obtain ⟨name', hn', h⟩ := exists_of_bind_eq_ok h
      cases h
      exact ⟨target, hr, hn'⟩
  · rintro ⟨target, hr, hb⟩
    rw [hr]
    change (nameOf root target >>= fun b => pure (some b)) = _
    rw [hb]
    rfl

theorem importGraph_eq_ok {g : NameGraph} (h : importGraph t package o = .ok g) :
    ∃ root known, canonicalFiles t package = .ok (root, known) ∧
      (∃ entries, g = .ofEntries entries) ∧
      (∀ a, a ∈ g.nodes ↔ ∃ file ∈ known, nameOf root file = .ok a) ∧
      ∀ a b, b ∈ g.neighbours a ↔ Imports t root known o a b := by
  obtain ⟨⟨root, known⟩, hk, h⟩ := exists_of_bind_eq_ok h
  obtain ⟨entries, he, h⟩ := exists_of_bind_eq_ok h
  cases h
  obtain ⟨hall, hmem⟩ := mem_of_mapM_eq_ok he
  refine ⟨root, known, hk, ⟨entries, rfl⟩, fun a => ?_, fun a b => ?_⟩
  · rw [NameGraph.mem_nodes_ofEntries]
    constructor
    · rintro ⟨e, he, rfl⟩
      obtain ⟨file, hf, hi⟩ := hmem e he
      exact ⟨file, hf, (importsOf_eq_ok hi).1⟩
    · rintro ⟨file, hf, ha⟩
      obtain ⟨e, he, hi⟩ := hall file hf
      exact ⟨e, he, Except.ok.inj ((importsOf_eq_ok hi).1.symm.trans ha)⟩
  · rw [NameGraph.mem_neighbours_ofEntries]
    constructor
    · rintro ⟨e, he, rfl, hb⟩
      obtain ⟨file, hf, hi⟩ := hmem e he
      obtain ⟨hn, hm⟩ := importsOf_eq_ok hi
      exact ⟨file, hf, hn, (hm b).mp hb⟩
    · rintro ⟨file, hf, ha, hb⟩
      obtain ⟨e, he, hi⟩ := hall file hf
      obtain ⟨hn, hm⟩ := importsOf_eq_ok hi
      exact ⟨e, he, Except.ok.inj (hn.symm.trans ha), (hm b).mpr hb⟩

theorem exists_importCycles {g : NameGraph} (h : importGraph t package o = .ok g) :
    importCycles t package o false = .ok (g.elementaryCycles o.maxCycleLength.toNat) := by
  unfold importCycles
  rw [h]
  rfl

/-- The graph leads from each source to those that its specifiers stand for, and the cycles of the
scan are its elementary cycles of at most the given length: one of each class of rotations, the
shorter ones first and of one length those with the lesser sorted members. -/
theorem import_cycles_exact {g : NameGraph} (h : importGraph t package o = .ok g) :
    ∃ root known cycles, canonicalFiles t package = .ok (root, known) ∧
      importCycles t package o false = .ok cycles ∧
      (∀ a, a ∈ g.nodes ↔ ∃ file ∈ known, nameOf root file = .ok a) ∧
      (∀ a b, b ∈ g.neighbours a ↔ Imports t root known o a b) ∧
      (∀ c : Cycle, g.IsElementary c ∧ (c.length : Int) ≤ o.maxCycleLength ↔
        ∃ d ∈ cycles, d ~r c) ∧
      cycles.Pairwise (fun c d => ¬ c ~r d) ∧
      cycles.Pairwise fun c d => c.length < d.length ∨
        c.length = d.length ∧ Text.namesLe c.members d.members = true := by
  obtain ⟨root, known, hk, ⟨entries, rfl⟩, hnodes, hedges⟩ := importGraph_eq_ok h
  refine ⟨root, known, _, hk, exists_importCycles h, hnodes, hedges, fun c => ?_, ?_,
    NameGraph.pairwise_elementaryCycles⟩
  · constructor
    · rintro ⟨hc, hl⟩
      refine ⟨_, NameGraph.rotateToLeast_mem_elementaryCycles ?_ hc (by omega),
        Cycle.rotateToLeast_isRotated c⟩
      intro a b hb
      obtain ⟨e, he, rfl, -⟩ := NameGraph.mem_neighbours_ofEntries.mp hb
      exact NameGraph.mem_nodes_ofEntries.mpr ⟨e, he, rfl⟩
    · rintro ⟨d, hd, hr⟩
      obtain ⟨hde, hl, -⟩ := NameGraph.mem_elementaryCycles hd
      have hpos := List.length_pos_of_ne_nil hde.closed.ne_nil
      refine ⟨hde.of_isRotated hr, ?_⟩
      rw [← hr.perm.length_eq]
      omega
  · exact NameGraph.pairwise_not_isRotated_elementaryCycles (nodup_eraseDups _)
      (NameGraph.nodup_neighbours_ofEntries entries)

section MutualImports

def importing (specifier : String) : List UInt8 :=
  ("import '" ++ specifier ++ "';\n").toList.map fun c => c.toNat.toUInt8

def mutualImports : FileTree where
  root := .folder [("src", .folder [("a.ts", .file (importing "./b") false),
    ("b.ts", .file (importing "./a") false)])]

def mutualGraph : NameGraph :=
  .ofEntries [("src/a.ts", ["src/b.ts"]), ("src/b.ts", ["src/a.ts"])]

theorem specifiers_of_line {text specifier : List Char} {left : Nat}
    (hd : dropComments text = text)
    (hs : statement? text = some ((false, ⟨left, specifier⟩), ";\n".toList))
    (hc : calls "require".toList false text = []) :
    specifiers text true true = [String.ofList specifier] := by
  have hend : splitLine ";\n".toList = (";".toList, some []) := by decide
  have hnil : statements [] = [] := by
    rw [statements_of_none rfl]
    rfl
  rw [specifiers, hd, statements_of_some hs, hend, Option.elim, hnil, hc]
  simp

theorem specifiersAt_a : specifiersAt mutualImports ⟨.root, ["src", "a.ts"]⟩ {} = ["./b"] := by
  have hr : mutualImports.read ⟨.root, ["src", "a.ts"]⟩ = .ok (importing "./b") := by cbv
  have ht : Text.unifyNewlines (Text.Utf8.decodeLoosely (importing "./b")) =
      "import './b';\n".toList := by cbv
  have hs : statement? "import './b';\n".toList =
      some ((false, ⟨6, "./b".toList⟩), ";\n".toList) := by decide +kernel
  rw [specifiersAt, hr]
  simp only [ht]
  exact specifiers_of_line (by cbv) hs (by cbv)

theorem specifiersAt_b : specifiersAt mutualImports ⟨.root, ["src", "b.ts"]⟩ {} = ["./a"] := by
  have hr : mutualImports.read ⟨.root, ["src", "b.ts"]⟩ = .ok (importing "./a") := by cbv
  have ht : Text.unifyNewlines (Text.Utf8.decodeLoosely (importing "./a")) =
      "import './a';\n".toList := by cbv
  have hs : statement? "import './a';\n".toList =
      some ((false, ⟨6, "./a".toList⟩), ";\n".toList) := by decide +kernel
  rw [specifiersAt, hr]
  simp only [ht]
  exact specifiers_of_line (by cbv) hs (by cbv)

theorem importGraph_mutualImports :
    importGraph mutualImports ⟨.root, []⟩ {} = .ok mutualGraph := by
  have hfiles : canonicalFiles mutualImports ⟨.root, []⟩ =
      .ok (⟨.root, []⟩, [⟨.root, ["src", "a.ts"]⟩, ⟨.root, ["src", "b.ts"]⟩]) := by cbv
  have ha : importsOf mutualImports ⟨.root, []⟩
      [⟨.root, ["src", "a.ts"]⟩, ⟨.root, ["src", "b.ts"]⟩] {} ⟨.root, ["src", "a.ts"]⟩ =
        .ok ("src/a.ts", ["src/b.ts"]) := by
    rw [importsOf, specifiersAt_a]
    cbv
  have hb : importsOf mutualImports ⟨.root, []⟩
      [⟨.root, ["src", "a.ts"]⟩, ⟨.root, ["src", "b.ts"]⟩] {} ⟨.root, ["src", "b.ts"]⟩ =
        .ok ("src/b.ts", ["src/a.ts"]) := by
    rw [importsOf, specifiersAt_b]
    cbv
  rw [importGraph, hfiles]
  change (List.mapM (importsOf _ _ _ _) _ >>= _) = _
  rw [List.mapM_cons, ha, List.mapM_cons, hb]
  rfl

theorem import_cycles_exact_mutual :
    importGraph mutualImports ⟨.root, []⟩ {} = .ok mutualGraph ∧
      importCycles mutualImports ⟨.root, []⟩ {} false = .ok [["src/a.ts", "src/b.ts"]] ∧
      ∀ c : Cycle, mutualGraph.IsElementary c ∧ (c.length : Int) ≤ 10 ↔
        ["src/a.ts", "src/b.ts"] ~r c := by
  have h := importGraph_mutualImports
  have hcycles : mutualGraph.elementaryCycles 10 = [["src/a.ts", "src/b.ts"]] := by cbv
  have hi : importCycles mutualImports ⟨.root, []⟩ {} false = .ok [["src/a.ts", "src/b.ts"]] :=
    hcycles ▸ exists_importCycles h
  obtain ⟨root, known, cycles, -, hc, -, -, hall, -⟩ := import_cycles_exact h
  obtain rfl := Except.ok.inj (hi.symm.trans hc)
  exact ⟨h, hi, fun c => (hall c).trans (by simp)⟩

end MutualImports

end Source

end WorkspaceCycles
