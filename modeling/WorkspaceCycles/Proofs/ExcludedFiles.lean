import Mathlib
import WorkspaceCycles.Proofs.GlobMatches
import WorkspaceCycles.Proofs.LinkedSources
import WorkspaceCycles.Proofs.PlainTrees

/-!
Files that are left out. A scan of a package without links sees nothing of it but its sources: on
two trees that have the same sources there it goes the same way, whatever else they hold.
-/

namespace WorkspaceCycles.Source

section Names

def IsExcluded (name : String) : Prop :=
  name = "node_modules" ∨ name = "__tests__" ∨ ".d.ts".toList <:+ name.toList ∨
    ".test.".toList <:+: name.toList ∨ ".spec.".toList <:+: name.toList

theorem isMatch_star_iff {pattern : String} {tail : List Char} {name : String}
    (h : Glob.parse pattern.toList = .anyRun :: (tail.map .literal ++ [])) :
    Glob.isMatch pattern name = true ↔ tail <:+ name.toList := by
  rw [Glob.isMatch_iff, h, Glob.matches_run_iff]
  constructor
  · rintro ⟨front, rest, hname, hrest⟩
    obtain ⟨last, rfl, hlast⟩ := Glob.matches_literals_iff.mp hrest
    cases hlast
    exact ⟨front, by simpa using hname.symm⟩
  · rintro ⟨front, hname⟩
    exact ⟨front, tail, hname.symm, Glob.matches_literals_iff.mpr ⟨[], by simp, .nil⟩⟩

theorem isMatch_stars_iff {pattern : String} {inner : List Char} {name : String}
    (h : Glob.parse pattern.toList = .anyRun :: (inner.map .literal ++ [.anyRun])) :
    Glob.isMatch pattern name = true ↔ inner <:+: name.toList := by
  rw [Glob.isMatch_iff, h, Glob.matches_run_iff]
  constructor
  · rintro ⟨front, rest, hname, hrest⟩
    obtain ⟨last, rfl, -⟩ := Glob.matches_literals_iff.mp hrest
    exact ⟨front, last, by simpa using hname.symm⟩
  · rintro ⟨front, last, hname⟩
    exact ⟨front, inner ++ last, by simpa using hname.symm,
      Glob.matches_literals_iff.mpr ⟨last, rfl, .run last⟩⟩

theorem matchesAny_skipped_iff {name : String} :
    Glob.matchesAny skipped name = true ↔ IsExcluded name := by
  have hdeclaration : Glob.isMatch "*.d.ts" name = true ↔ ".d.ts".toList <:+ name.toList :=
    isMatch_star_iff (by cbv)
  have htest : Glob.isMatch "*.test.*" name = true ↔ ".test.".toList <:+: name.toList :=
    isMatch_stars_iff (by cbv)
  have hspec : Glob.isMatch "*.spec.*" name = true ↔ ".spec.".toList <:+: name.toList :=
    isMatch_stars_iff (by cbv)
  have hinstalled : Glob.isMatch "node_modules" name = true ↔ name = "node_modules" :=
    Glob.isMatch_of_plain (by decide) (by decide) (by decide)
  have htests : Glob.isMatch "__tests__" name = true ↔ name = "__tests__" :=
    Glob.isMatch_of_plain (by decide) (by decide) (by decide)
  simp only [Glob.matchesAny, skipped, List.any_cons, List.any_nil, Bool.or_eq_true, hdeclaration,
    htest, hspec, hinstalled, htests, IsExcluded, Bool.false_eq_true, or_false]

end Names

structure IsAnalyzable (names : List String) : Prop where
  inSrc : names.head? = some "src"
  suffix : Path.suffix ⟨.relative, names⟩ ∈ [".ts", ".tsx", ".js", ".jsx"]
  kept : ∀ name ∈ names, ¬ IsExcluded name

theorem isAnalyzable_iff {names : List String} :
    IsAnalyzable names ↔ names.head? = some "src" ∧ isSource names = true := by
  have hsource : isSource names = true ↔ Path.suffix ⟨.relative, names⟩ ∈ suffixes ∧
      ∀ name ∈ names, ¬ IsExcluded name := by
    simp [isSource, ← matchesAny_skipped_iff]
  rw [hsource]
  exact ⟨fun h => ⟨h.inSrc, h.suffix, h.kept⟩, fun h => ⟨h.1, h.2.1, h.2.2⟩⟩

def HasSource (n : Node) (names : List String) (bytes : List UInt8) : Prop :=
  IsAnalyzable names ∧ ∃ executable, n.descend? names = some (.file bytes executable)

section Files

variable {t : FileTree} {package : Path} {n : Node} {names : List String}

theorem mem_walked : names ∈ walked t package ↔ ∃ es,
    t.node (package.child "src") = .ok (.folder es) ∧
      ∃ d ∈ (Node.folder es).descendants, "src" :: d.1 = names := by
  unfold walked
  split
  · rename_i es hes
    simp [hes]
  · rename_i hne
    simp only [List.not_mem_nil, false_iff, not_exists, not_and]
    exact fun es hes => absurd hes (hne es)

theorem mem_files : names ∈ files t package ↔ ∃ es, t.node (package.child "src") = .ok (.folder es) ∧
    (∃ d ∈ (Node.folder es).descendants, "src" :: d.1 = names) ∧ isSource names = true ∧
      t.isFolder (package.join ⟨.relative, names⟩) = false := by
  simp only [files, List.mem_filter, mem_walked, Bool.and_eq_true, Bool.not_eq_true',
    ← exists_and_right, and_assoc]

theorem pairwise_walked : (walked t package).Pairwise fun a b => Text.namesLe a b = true := by
  unfold walked
  split
  · refine List.pairwise_mergeSort ?_ ?_ _
    · exact fun _ _ _ => Text.namesLe_trans
    · exact Text.namesLe_total
  · exact .nil

theorem pairwise_files : (files t package).Pairwise fun a b => Text.namesLe a b = true :=
  pairwise_walked.filter _

variable (hn : t.node package = .ok n) (hplain : n.IsPlain)

include hn hplain

theorem node_src_iff {m : Node} :
    t.node (package.child "src") = .ok m ↔ n.descend? ["src"] = some m :=
  FileTree.node_join_iff hn hplain.linkless (by simp)

theorem nodup_walked : (walked t package).Nodup := by
  unfold walked
  split
  · rename_i es hes
    have hsrc := hplain.of_descend? ((node_src_iff hn hplain).mp hes)
    apply (List.mergeSort_perm _ _).nodup_iff.mpr
    have hnames := hsrc.unique.map (f := ("src" :: ·)) fun _ _ he => (List.cons.inj he).2
    rwa [List.map_map] at hnames
  · exact List.nodup_nil

theorem nodup_files : (files t package).Nodup :=
  (nodup_walked hn hplain).filter _

theorem mem_files_iff : names ∈ files t package ↔ ∃ bytes, HasSource n names bytes := by
  rw [mem_files]
  constructor
  · rintro ⟨es, hes, ⟨⟨below, m⟩, hd, rfl⟩, hsource, hfolder⟩
    have hbelow := Node.mem_descendants_below ((node_src_iff hn hplain).mp hes) hd
    have hfound : n.descend? ("src" :: below) = some m :=
      Node.descend?_of_mem_descendants hplain.unique hbelow
    have hlink : m.isLink = false := hplain.linkless _ hbelow
    cases m with
    | file bytes executable =>
      exact ⟨bytes, isAnalyzable_iff.mpr ⟨rfl, hsource⟩, executable, hfound⟩
    | folder =>
      rw [FileTree.isFolder, FileTree.node_join hn hplain hfound] at hfolder
      cases hfolder
    | link => cases hlink
  · rintro ⟨bytes, hanalyzable, executable, hfile⟩
    obtain ⟨hhead, hsource⟩ := isAnalyzable_iff.mp hanalyzable
    obtain ⟨rest, rfl⟩ := List.head?_eq_some_iff.mp hhead
    obtain ⟨m, hsrc, hrest⟩ := Option.bind_eq_some_iff.mp
      ((Node.descend?_append n ["src"] rest).symm.trans hfile)
    have hne : rest ≠ [] := by
      rintro rfl
      exact absurd hsource (by decide)
    have hm := Node.mem_descendants_of_descend? hne hrest
    cases m with
    | file | link => cases hm
    | folder es =>
      exact ⟨es, (node_src_iff hn hplain).mpr hsrc, ⟨_, hm, rfl⟩, hsource,
        by rw [FileTree.isFolder, FileTree.node_join hn hplain hfile]⟩

end Files

theorem takeWhile_congr {α : Type} {p q : α → Bool} {xs : List α} (h : ∀ x ∈ xs, p x = q x) :
    xs.takeWhile p = xs.takeWhile q := by
  induction xs with
  | nil => rfl
  | cons x xs ih =>
    obtain ⟨hx, hxs⟩ := List.forall_mem_cons.mp h
    rw [List.takeWhile_cons, List.takeWhile_cons, hx, ih hxs]

structure SameScan (t t' : FileTree) (package : Path) : Prop where
  canonical?_eq : ∀ p, t.canonical? p = t'.canonical? p
  files_eq : files t package = files t' package
  files_canonical_eq : files t (t.canonical package) = files t' (t.canonical package)
  read_eq : ∀ names ∈ files t (t.canonical package),
    t.read (linkedFile t package names) = t'.read (linkedFile t package names)

namespace SameScan

variable {t t' : FileTree} {package : Path} (h : SameScan t t' package)

include h

theorem resolve_eq (importer : Path) (s : String) (known : List Path) :
    resolve t importer s known = resolve t' importer s known := by
  rw [resolve, resolve, h.canonical?_eq]

theorem canonicalFiles_eq : canonicalFiles t package = canonicalFiles t' package := by
  rw [canonicalFiles, canonicalFiles, ← h.canonical?_eq]
  cases hroot : t.canonical? package with
  | error fault => rfl
  | ok root =>
    obtain rfl := FileTree.canonical?_eq_ok hroot
    simp only [bind, Except.bind, h.files_canonical_eq, h.canonical?_eq]

section Known

variable {root file : Path} {known : List Path}
  (hknown : canonicalFiles t package = .ok (root, known)) (hfile : file ∈ known)

include hknown hfile

theorem read_known_eq : t.read file = t'.read file := by
  obtain ⟨-, rfl, -, hmem⟩ := canonicalFiles_eq_ok hknown
  obtain ⟨names, hnames, rfl⟩ := (hmem file).mp hfile
  exact h.read_eq names hnames

theorem importsOf_eq (o : NativeOptions) :
    importsOf t root known o file = importsOf t' root known o file := by
  have hspecifiers : specifiersAt t file o = specifiersAt t' file o := by
    rw [specifiersAt, specifiersAt, h.read_known_eq hknown hfile]
  simp only [importsOf, hspecifiers, h.resolve_eq]

end Known

theorem importGraph_eq (o : NativeOptions) : importGraph t package o = importGraph t' package o := by
  rw [importGraph, importGraph, ← h.canonicalFiles_eq]
  cases hknown : canonicalFiles t package with
  | error fault => rfl
  | ok found =>
    obtain ⟨root, known⟩ := found
    simp only [bind, Except.bind]
    rw [mapM_congr fun file hfile => h.importsOf_eq hknown hfile o]

theorem unreadable_eq (o : NativeOptions) : unreadable t package o = unreadable t' package o := by
  rw [unreadable, unreadable, ← h.canonicalFiles_eq]
  cases hknown : canonicalFiles t package with
  | error fault => rfl
  | ok found =>
    obtain ⟨root, known⟩ := found
    have hscanned : (known.takeWhile fun file => (importsOf t root known o file).isOk) =
        known.takeWhile fun file => (importsOf t' root known o file).isOk :=
      takeWhile_congr fun file hfile => by rw [h.importsOf_eq hknown hfile o]
    simp only [hscanned]
    refine List.filterMap_congr fun file hfile => ?_
    rw [h.read_known_eq hknown ((List.takeWhile_sublist _).mem hfile)]

theorem importCycles_eq (o : NativeOptions) (expired : Bool) :
    importCycles t package o expired = importCycles t' package o expired := by
  rw [importCycles, importCycles, h.importGraph_eq o, ← h.canonical?_eq]
  cases hroot : t.canonical? package with
  | error fault => rfl
  | ok root =>
    obtain rfl := FileTree.canonical?_eq_ok hroot
    simp only [Except.mapError, bind, Except.bind, h.files_canonical_eq]

end SameScan

theorem runNative_eq {h h' : Host} {package : Path} (hscan : SameScan h.files h'.files package)
    (hpace : h.pace package = h'.pace package) (o : NativeOptions) :
    Tool.runNative h o package = Tool.runNative h' o package := by
  simp only [Tool.runNative, hscan.unreadable_eq, hscan.importCycles_eq, hpace]

theorem mem_calls_start {h : Host} {tool : Tool} {folder : Path} {arguments : Path → List String}
    {read : Output → Outcome × Log} {c : Call}
    (hc : c ∈ (Tool.start h tool folder arguments read).calls) :
    ∃ executable, c.arguments = arguments executable := by
  unfold Tool.start at hc
  split at hc
  · cases hc
  · cases hc
  · rename_i executable _
    refine ⟨executable, ?_⟩
    split at hc <;> rw [List.mem_singleton] at hc <;> rw [hc]

theorem arguments_of_mem_calls {h : Host} {o : DpdmOptions} {package : Path} {c : Call}
    (hc : c ∈ (Tool.runDpdm h o package).calls) : ∃ executable, c.arguments =
      o.arguments executable h.reportFile.text ((files h.files package).map Path.relativeText) := by
  simp only [Tool.runDpdm] at hc
  split at hc
  · cases hc
  split at hc
  · cases hc
  · obtain ⟨executable, harguments⟩ := mem_calls_start hc
    exact ⟨executable.text, harguments⟩

section Irrelevance

variable {t t' : FileTree} {package : Path} {n n' : Node}

theorem read_of_hasSource {names : List String} {bytes : List UInt8} (hn : t.node package = .ok n)
    (hplain : n.IsPlain) (h : HasSource n names bytes) :
    t.read (package.join ⟨.relative, names⟩) = .ok bytes ∧
      t.read (t.canonical (package.join ⟨.relative, names⟩)) = .ok bytes := by
  obtain ⟨-, executable, hfile⟩ := h
  have hnode := FileTree.node_join hn hplain hfile
  rw [FileTree.read, FileTree.read, hnode, FileTree.node_canonical hnode]
  exact ⟨rfl, rfl⟩

theorem hasSource_iff {names : List String} {bytes : List UInt8} (hn : t.node package = .ok n)
    (hplain : n.IsPlain) : HasSource n names bytes ↔
      names ∈ files t package ∧ t.read (package.join ⟨.relative, names⟩) = .ok bytes := by
  rw [mem_files_iff hn hplain]
  constructor
  · exact fun h => ⟨⟨bytes, h⟩, (read_of_hasSource hn hplain h).1⟩
  · rintro ⟨⟨bytes', h⟩, hread⟩
    rw [(read_of_hasSource hn hplain h).1, Except.ok.injEq] at hread
    rwa [← hread]

theorem files_eq_of_hasSource_iff (hn : t.node package = .ok n) (hn' : t'.node package = .ok n')
    (hplain : n.IsPlain) (hplain' : n'.IsPlain)
    (hsame : ∀ names bytes, HasSource n names bytes ↔ HasSource n' names bytes) :
    files t package = files t' package := by
  refine List.Perm.eq_of_pairwise (fun _ _ _ _ => Text.namesLe_antisymm) pairwise_files
    pairwise_files ((List.perm_ext_iff_of_nodup (nodup_files hn hplain)
      (nodup_files hn' hplain')).mpr fun names => ?_)
  rw [mem_files_iff hn hplain, mem_files_iff hn' hplain']
  exact exists_congr fun bytes => hsame names bytes

theorem sameScan_of_hasSource_iff (hn : t.node package = .ok n) (hn' : t'.node package = .ok n')
    (hplain : n.IsPlain) (hplain' : n'.IsPlain) (hlinks : t.SameLinks t')
    (hsame : ∀ names bytes, HasSource n names bytes ↔ HasSource n' names bytes) :
    SameScan t t' package := by
  -- the native scan goes to the package behind its links, dpdm to its path as given
  have hroot := FileTree.node_canonical hn
  have hroot' := FileTree.node_canonical hn'
  rw [← hlinks.canonical_eq] at hroot'
  refine ⟨hlinks.canonical?_eq, files_eq_of_hasSource_iff hn hn' hplain hplain' hsame,
    files_eq_of_hasSource_iff hroot hroot' hplain hplain' hsame, fun names hnames => ?_⟩
  obtain ⟨bytes, h⟩ := (mem_files_iff hroot hplain).mp hnames
  have hread' := (read_of_hasSource hroot' hplain' ((hsame names bytes).mp h)).2
  rw [← hlinks.canonical_eq] at hread'
  rw [linkedFile, (read_of_hasSource hroot hplain h).2, hread']

/-- The sources of a package without links are its analyzable files. Two such packages that have the
same ones, and differ in whatever else, list them in the same order and have the same graph and the
same cycles under all options; the native scan runs in the same way, with the same log, and dpdm is
given the same entries. -/
theorem excluded_files_irrelevant (hn : t.node package = .ok n) (hn' : t'.node package = .ok n')
    (hplain : n.IsPlain) (hplain' : n'.IsPlain) (hlinks : t.SameLinks t')
    (hsame : ∀ names bytes, HasSource n names bytes ↔ HasSource n' names bytes) :
    (∀ names, names ∈ files t package ↔ ∃ bytes, HasSource n names bytes) ∧
      files t package = files t' package ∧
      (∀ o, importGraph t package o = importGraph t' package o) ∧
      (∀ o expired, importCycles t package o expired = importCycles t' package o expired) ∧
      (∀ (o : NativeOptions) (h h' : Host), h.files = t → h'.files = t' →
        h.pace package = h'.pace package →
          Tool.runNative h o package = Tool.runNative h' o package) ∧
      ∀ (o : DpdmOptions) (h : Host), h.files = t ∨ h.files = t' →
        ∀ c ∈ (Tool.runDpdm h o package).calls, ∃ executable, c.arguments =
          o.arguments executable h.reportFile.text ((files t package).map Path.relativeText) := by
  have hscan := sameScan_of_hasSource_iff hn hn' hplain hplain' hlinks hsame
  refine ⟨fun _ => mem_files_iff hn hplain, hscan.files_eq, hscan.importGraph_eq,
    hscan.importCycles_eq, ?_, ?_⟩
  · rintro o h h' rfl rfl hpace
    exact runNative_eq hscan hpace o
  · rintro o h (rfl | rfl) c hc
    · exact arguments_of_mem_calls hc
    · rw [hscan.files_eq]
      exact arguments_of_mem_calls hc

end Irrelevance

section Crowded

def crowdedSources : List (String × Node) :=
  [("__tests__", .folder [("a.ts", .file (importing "../b") false)]),
    ("a.test.ts", .file (importing "./b") false), ("a.ts", .file (importing "./b") true),
    ("b", .folder [("index.d.ts", .file [] false)]), ("b.d.ts", .file (importing "./a") false),
    ("b.ts", .file (importing "./a") false), ("node_modules", .folder [])]

def crowdedImports : FileTree where
  root := .folder [("lib", .folder [("a.ts", .file (importing "../src/b") false)]),
    ("src", .folder crowdedSources)]

theorem files_crowdedImports :
    files crowdedImports ⟨.root, []⟩ = [["src", "a.ts"], ["src", "b.ts"]] := by
  have hsrc : crowdedImports.node (Path.child ⟨.root, []⟩ "src") = .ok (.folder crowdedSources) := by
    cbv
  have hsorted : ((Node.folder crowdedSources).descendants.map fun d => "src" :: d.1).Pairwise
      fun a b => Text.namesLe a b = true := by decide +kernel
  simp only [files, walked, hsrc]
  rw [List.mergeSort_of_pairwise hsorted]
  cbv

theorem excluded_files_irrelevant_crowded :
    (∀ names bytes, HasSource mutualImports.root names bytes ↔
        HasSource crowdedImports.root names bytes) ∧
      importGraph crowdedImports ⟨.root, []⟩ {} = .ok mutualGraph ∧
      importCycles crowdedImports ⟨.root, []⟩ {} false = .ok [["src/a.ts", "src/b.ts"]] := by
  have hn : mutualImports.node ⟨.root, []⟩ = .ok mutualImports.root := by cbv
  have hn' : crowdedImports.node ⟨.root, []⟩ = .ok crowdedImports.root := by cbv
  have hplain : mutualImports.root.IsPlain := ⟨by decide, by decide, by decide⟩
  have hplain' : crowdedImports.root.IsPlain := ⟨by decide, by decide, by decide⟩
  have hfiles : files mutualImports ⟨.root, []⟩ = [["src", "a.ts"], ["src", "b.ts"]] := by cbv
  have hread : ∀ names ∈ [["src", "a.ts"], ["src", "b.ts"]],
      mutualImports.read (.join ⟨.root, []⟩ ⟨.relative, names⟩) =
        crowdedImports.read (.join ⟨.root, []⟩ ⟨.relative, names⟩) := by
    intro names hnames
    rcases List.mem_pair.mp hnames with rfl | rfl <;> cbv
  have hsame : ∀ names bytes, HasSource mutualImports.root names bytes ↔
      HasSource crowdedImports.root names bytes := by
    intro names bytes
    rw [hasSource_iff hn hplain, hasSource_iff hn' hplain', hfiles, files_crowdedImports]
    exact and_congr_right fun hnames => by rw [hread names hnames]
  have hlinks : mutualImports.SameLinks crowdedImports :=
    .of_links_eq_nil (by decide) (by decide)
  obtain ⟨-, -, hgraph, hcycles, -, -⟩ :=
    excluded_files_irrelevant hn hn' hplain hplain' hlinks hsame
  have hmutual : mutualGraph.elementaryCycles 10 = [["src/a.ts", "src/b.ts"]] := by cbv
  refine ⟨hsame, (hgraph {}).symm.trans importGraph_mutualImports, ?_⟩
  rw [← hcycles, exists_importCycles importGraph_mutualImports]
  exact congrArg _ hmutual

end Crowded

end WorkspaceCycles.Source
