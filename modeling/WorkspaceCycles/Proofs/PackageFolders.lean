import Mathlib
import WorkspaceCycles.Proofs.ClosedWalk
import WorkspaceCycles.Proofs.FollowedLinks
import WorkspaceCycles.Proofs.ListedPatterns
import WorkspaceCycles.Proofs.PathText
import WorkspaceCycles.Proofs.TreeShape
import WorkspaceCycles.Proofs.WorkspaceFile

namespace WorkspaceCycles

namespace Workspace

variable {t : FileTree} {root : Path} {given : List String} {folders : List Path}

theorem packageFolders_eq_bind (t : FileTree) (root : Path) :
    packageFolders t root = patterns t root >>= foldersOf t root := rfl

theorem packageFolders_of_patterns (h : patterns t root = .ok given) :
    packageFolders t root = foldersOf t root given := by
  rw [packageFolders_eq_bind, h]
  rfl

structure IsPackageAt (t : FileTree) (p : Path) (names : List String) : Prop where
  isFolder : t.isFolder p = true
  holdsManifest : t.isFile (p.child Package.manifestName) = true
  visible : ∀ name ∈ names, name ≠ "node_modules" ∧ name.toList.head? ≠ some '.'

theorem isPackageFolder_iff {exclusions : List String} {p : Path} :
    isPackageFolder t root exclusions p = true ↔ ∃ names, p.below? root = some names ∧
      IsPackageAt t p names ∧
        ∀ pattern ∈ exclusions, Glob.isMatch pattern (Path.relativeText names) = false := by
  unfold isPackageFolder
  cases p.below? root with
  | none => simp
  | some names =>
    simp only [Bool.and_eq_true, Bool.not_eq_true', Option.some.injEq, exists_eq_left']
    constructor
    · rintro ⟨⟨⟨hfolder, hhidden⟩, hexcluded⟩, hmanifest⟩
      refine ⟨⟨hfolder, hmanifest, ?_⟩, ?_⟩
      · simpa [isHidden] using hhidden
      · simpa [Glob.matchesAny] using hexcluded
    · rintro ⟨⟨hfolder, hmanifest, hvisible⟩, hexcluded⟩
      refine ⟨⟨⟨hfolder, ?_⟩, ?_⟩, hmanifest⟩
      · simpa [isHidden] using hvisible
      · simpa [Glob.matchesAny] using hexcluded

theorem mem_inclusions {pattern : String} : pattern ∈ inclusions given ↔
    ∃ p ∈ given, isExclusion p = false ∧ withoutSlashes p.toList = pattern := by
  simp [inclusions, and_assoc]

theorem mem_exclusions {pattern : String} : pattern ∈ exclusions given ↔
    ∃ p ∈ given, isExclusion p = true ∧ withoutSlashes p.toList.tail = pattern := by
  simp [exclusions, and_assoc]

theorem nodup_foldersOf (h : foldersOf t root given = .ok folders) : folders.Nodup := by
  obtain ⟨found, -, h⟩ := exists_of_bind_eq_ok h
  cases h
  exact nodup_eraseDups _

theorem exists_filter_of_foldersAlong {exclusions : List String} {pattern : String}
    (h : foldersAlong t root exclusions pattern = .ok folders) :
    ∃ places, placesOf t root pattern = .ok places ∧
      places.filter (isPackageFolder t root exclusions) = folders := by
  obtain ⟨places, hplaces, h⟩ := exists_of_bind_eq_ok h
  split at h
  · cases h
  · cases h
    exact ⟨places, hplaces, rfl⟩

theorem mem_foldersOf (h : foldersOf t root given = .ok folders) {p : Path} : p ∈ folders ↔
    (∃ pattern ∈ inclusions given, ∃ places, placesOf t root pattern = .ok places ∧ p ∈ places) ∧
      isPackageFolder t root (exclusions given) p = true := by
  obtain ⟨found, hfound, h⟩ := exists_of_bind_eq_ok h
  cases h
  rw [List.mem_eraseDups, List.mem_flatten]
  obtain ⟨hto, hfrom⟩ := mem_of_mapM_eq_ok hfound
  constructor
  · rintro ⟨along, halong, hp⟩
    obtain ⟨pattern, hpattern, he⟩ := hfrom along halong
    obtain ⟨places, hplaces, rfl⟩ := exists_filter_of_foldersAlong he
    obtain ⟨hm, hfolder⟩ := List.mem_filter.mp hp
    exact ⟨⟨pattern, hpattern, places, hplaces, hm⟩, hfolder⟩
  · rintro ⟨⟨pattern, hpattern, places, hplaces, hm⟩, hfolder⟩
    obtain ⟨along, halong, he⟩ := hto pattern hpattern
    obtain ⟨places', hplaces', rfl⟩ := exists_filter_of_foldersAlong he
    cases hplaces.symm.trans hplaces'
    exact ⟨_, halong, List.mem_filter.mpr ⟨hm, hfolder⟩⟩

theorem exists_isPackageAt (h : foldersOf t root given = .ok folders) {p : Path}
    (hp : p ∈ folders) : ∃ names, p.below? root = some names ∧ IsPackageAt t p names ∧
      ∀ pattern ∈ exclusions given, Glob.isMatch pattern (Path.relativeText names) = false :=
  isPackageFolder_iff.mp ((mem_foldersOf h).mp hp).2

section Shape

theorem placesOf_shape (t : FileTree) (root : Path) (pattern : String) :
    placesOf t.shape root pattern = placesOf t root pattern := by
  unfold placesOf
  rw [FileTree.find_shape]

theorem isPackageFolder_shape (t : FileTree) (root : Path) (exclusions : List String) (p : Path) :
    isPackageFolder t.shape root exclusions p = isPackageFolder t root exclusions p := by
  unfold isPackageFolder
  simp only [FileTree.isFolder_shape, FileTree.isFile_shape]

theorem lookedUp_shape (t : FileTree) (root : Path) (exclusions : List String) (p : Path) :
    lookedUp t.shape root exclusions p = lookedUp t root exclusions p := by
  unfold lookedUp
  simp only [FileTree.isFolder_shape]

theorem foldersAlong_shape (t : FileTree) (root : Path) (exclusions : List String)
    (pattern : String) :
    foldersAlong t.shape root exclusions pattern = foldersAlong t root exclusions pattern := by
  have hfolder : isPackageFolder t.shape root exclusions = isPackageFolder t root exclusions :=
    funext (isPackageFolder_shape t root exclusions)
  have hseen : lookedUp t.shape root exclusions = lookedUp t root exclusions :=
    funext (lookedUp_shape t root exclusions)
  have hrefused : t.shape.isRefused = t.isRefused := funext t.isRefused_shape
  simp only [foldersAlong, placesOf_shape, hfolder, hseen, hrefused]

theorem foldersOf_shape (t : FileTree) (root : Path) (given : List String) :
    foldersOf t.shape root given = foldersOf t root given := by
  have halong : foldersAlong t.shape root (exclusions given) =
      foldersAlong t root (exclusions given) := funext (foldersAlong_shape t root _)
  rw [foldersOf, foldersOf, halong]

theorem foldersOf_congr {t' : FileTree} (h : t'.shape = t.shape) :
    foldersOf t' root given = foldersOf t root given := by
  rw [← foldersOf_shape, h, foldersOf_shape]

end Shape

theorem foldersAlong_congr {exclusions exclusions' : List String}
    (h : ∀ pattern, pattern ∈ exclusions' ↔ pattern ∈ exclusions) :
    foldersAlong t root exclusions' = foldersAlong t root exclusions := by
  have hmatches : Glob.matchesAny exclusions' = Glob.matchesAny exclusions := by
    funext name
    rw [Bool.eq_iff_iff]
    simp [Glob.matchesAny, h]
  have hfolder : isPackageFolder t root exclusions' = isPackageFolder t root exclusions := by
    funext p
    simp only [isPackageFolder, hmatches]
  have hseen : lookedUp t root exclusions' = lookedUp t root exclusions := by
    funext p
    simp only [lookedUp, hmatches]
  funext pattern
  rw [foldersAlong, foldersAlong, hfolder, hseen]

theorem foldersOf_of_same_patterns {given' : List String} (hsame : ∀ p, p ∈ given' ↔ p ∈ given)
    (h : foldersOf t root given = .ok folders) :
    ∃ folders', foldersOf t root given' = .ok folders' ∧ folders'.Perm folders := by
  have hin : ∀ pattern, pattern ∈ inclusions given' ↔ pattern ∈ inclusions given := by
    intro pattern
    simp only [mem_inclusions, hsame]
  have hout : ∀ pattern, pattern ∈ exclusions given' ↔ pattern ∈ exclusions given := by
    intro pattern
    simp only [mem_exclusions, hsame]
  obtain ⟨folders', h'⟩ : ∃ folders', foldersOf t root given' = .ok folders' := by
    apply exists_foldersOf_iff.mpr
    intro pattern hp
    rw [foldersAlong_congr hout]
    exact exists_foldersOf_iff.mp ⟨folders, h⟩ pattern ((hin pattern).mp hp)
  refine ⟨folders', h', ?_⟩
  apply (List.perm_ext_iff_of_nodup (nodup_foldersOf h') (nodup_foldersOf h)).mpr
  intro p
  have hfolder : isPackageFolder t root (exclusions given') p = true ↔
      isPackageFolder t root (exclusions given) p = true := by
    simp only [isPackageFolder_iff, hout]
  rw [mem_foldersOf h', mem_foldersOf h, hfolder]
  simp only [hin]

theorem IsPackageAt.not_mem {p : Path} {names : List String} (h : IsPackageAt t p names) :
    ".." ∉ names :=
  fun hm => (h.visible ".." hm).2 rfl

theorem locate_package_eq (hlinks : t.links = []) {p : Path} {names more place : List String}
    (hp : p.below? root = some names) (hat : IsPackageAt t p names) (hmore : ".." ∉ more)
    (h : t.locate FileTree.maxLinks [] (p.parts ++ more) = .ok place) :
    place = FileTree.walk [] root.parts ++ (names ++ more) := by
  have hnames : ".." ∉ names ++ more := by simp [hat.not_mem, hmore]
  rw [FileTree.locate_eq_walk hlinks h, Path.below?_eq_some_iff.mp hp]
  change FileTree.walk [] (root.parts ++ names ++ more) = _
  rw [List.append_assoc, FileTree.walk_append, FileTree.walk_of_not_mem hnames]

theorem eq_of_locate_eq (hlinks : t.links = []) (h : foldersOf t root given = .ok folders)
    {p q : Path} (hp : p ∈ folders) (hq : q ∈ folders) {more place : List String}
    (hmore : ".." ∉ more) (hplace : t.locate FileTree.maxLinks [] (p.parts ++ more) = .ok place)
    (hplace' : t.locate FileTree.maxLinks [] (q.parts ++ more) = .ok place) : p = q := by
  obtain ⟨names, hbelow, hat, -⟩ := exists_isPackageAt h hp
  obtain ⟨names', hbelow', hat', -⟩ := exists_isPackageAt h hq
  have he := locate_package_eq hlinks hbelow hat hmore hplace
  rw [locate_package_eq hlinks hbelow' hat' hmore hplace'] at he
  obtain rfl : names' = names := by simpa using he
  rw [Path.below?_eq_some_iff.mp hbelow, Path.below?_eq_some_iff.mp hbelow']

/-- The folders are distinct packages which no pattern excludes, and any list of the same patterns
leads to the same folders. -/
theorem package_folders_set_function (h : packageFolders t root = .ok folders) :
    ∃ given, patterns t root = .ok given ∧ folders.Nodup ∧
      (∀ p ∈ folders, ∃ names, p.below? root = some names ∧ IsPackageAt t p names ∧
        ∀ pattern ∈ given, isExclusion pattern = true →
          Glob.isMatch (withoutSlashes pattern.toList.tail) (Path.relativeText names) = false) ∧
      (t.links = [] → ∀ p ∈ folders, ∀ q ∈ folders, ∀ place,
        t.locate FileTree.maxLinks [] p.parts = .ok place →
          t.locate FileTree.maxLinks [] q.parts = .ok place → p = q) ∧
      ∀ t' given', t'.shape = t.shape → (∀ pattern, pattern ∈ given' ↔ pattern ∈ given) →
        ∃ folders', foldersOf t' root given' = .ok folders' ∧ folders'.Perm folders ∧
          (patterns t' root = .ok given' → packageFolders t' root = .ok folders') := by
  obtain ⟨given, hgiven, hfolders⟩ := exists_of_bind_eq_ok h
  change foldersOf t root given = .ok folders at hfolders
  refine ⟨given, hgiven, nodup_foldersOf hfolders, fun p hp => ?_, ?_, ?_⟩
  · obtain ⟨names, hbelow, hat, hexcluded⟩ := exists_isPackageAt hfolders hp
    refine ⟨names, hbelow, hat, fun pattern hpattern hout => hexcluded _ ?_⟩
    exact mem_exclusions.mpr ⟨pattern, hpattern, hout, rfl⟩
  · intro hlinks p hp q hq place hplace hplace'
    rw [← List.append_nil p.parts] at hplace
    rw [← List.append_nil q.parts] at hplace'
    exact eq_of_locate_eq hlinks hfolders hp hq List.not_mem_nil hplace hplace'
  · intro t' given' hshape hsame
    obtain ⟨folders', hfolders', hperm⟩ := foldersOf_of_same_patterns hsame hfolders
    rw [← foldersOf_congr hshape] at hfolders'
    exact ⟨folders', hfolders', hperm, fun hp => (packageFolders_of_patterns hp).trans hfolders'⟩

section TwoFolders

def twoFolders (lines : String) : FileTree where
  root := .folder [("pnpm-workspace.yaml", .file (lines.toList.map (·.toNat.toUInt8)) false),
    ("a", .folder [("package.json", .file [] false)]),
    ("b", .folder [("package.json", .file [] false)])]

theorem shape_twoFolders (lines lines' : String) :
    (twoFolders lines).shape = (twoFolders lines').shape := rfl

def forwards : String := "packages:\n- 'a*'\n- 'a'\n- 'b'\n- '!b*'\n"

def backwards : String := "packages:\n- '!b*'\n- 'b'\n- 'a'\n- 'a*'\n"

theorem patterns_forwards :
    patterns (twoFolders forwards) .top = .ok ["a*", "a", "b", "!b*"] :=
  patterns_of_tokens forwards.toList (by cbv) rfl (by decide +kernel)

theorem patterns_backwards :
    patterns (twoFolders backwards) .top = .ok ["!b*", "b", "a", "a*"] :=
  patterns_of_tokens backwards.toList (by cbv) rfl (by decide +kernel)

theorem foldersOf_twoFolders (lines : String) :
    foldersOf (twoFolders lines) .top ["a*", "a", "b", "!b*"] = .ok [⟨.root, ["a"]⟩] := by
  have hin : inclusions ["a*", "a", "b", "!b*"] = ["a*", "a", "b"] := by cbv
  have hout : exclusions ["a*", "a", "b", "!b*"] = ["b*"] := by cbv
  have hglob : placesOf (twoFolders "") .top "a*" = .ok [⟨.root, ["a"]⟩] := by cbv
  have ha : placesOf (twoFolders "") .top "a" = .ok [⟨.root, ["a"]⟩] := by cbv
  have hb : placesOf (twoFolders "") .top "b" = .ok [⟨.root, ["b"]⟩] := by cbv
  have hfolder : isPackageFolder (twoFolders "") .top ["b*"] ⟨.root, ["a"]⟩ = true := by cbv
  have hexcluded : isPackageFolder (twoFolders "") .top ["b*"] ⟨.root, ["b"]⟩ = false := by cbv
  have hseen : (lookedUp (twoFolders "") .top ["b*"] ⟨.root, ["a"]⟩).find?
      (twoFolders "").isRefused = none := by cbv
  have hseen' : (lookedUp (twoFolders "") .top ["b*"] ⟨.root, ["b"]⟩).find?
      (twoFolders "").isRefused = none := by cbv
  have halong : ∀ pattern, placesOf (twoFolders "") .top pattern = .ok [⟨.root, ["a"]⟩] →
      foldersAlong (twoFolders "") .top ["b*"] pattern = .ok [⟨.root, ["a"]⟩] := by
    intro pattern hplaces
    simp [foldersAlong, hplaces, hseen, hfolder, bind, Except.bind, pure, Except.pure]
  have halong' : foldersAlong (twoFolders "") .top ["b*"] "b" = .ok [] := by
    simp [foldersAlong, hb, hseen', hexcluded, bind, Except.bind, pure, Except.pure]
  rw [foldersOf_congr (shape_twoFolders lines ""), foldersOf, hin, hout, List.mapM_cons,
    halong _ hglob, List.mapM_cons, halong _ ha, List.mapM_cons, halong']
  simp [bind, Except.bind, pure, Except.pure, List.eraseDups_cons]

theorem package_folders_set_function_backwards :
    packageFolders (twoFolders forwards) .top = .ok [⟨.root, ["a"]⟩] ∧
      packageFolders (twoFolders backwards) .top = .ok [⟨.root, ["a"]⟩] := by
  have h := (packageFolders_of_patterns patterns_forwards).trans (foldersOf_twoFolders _)
  refine ⟨h, ?_⟩
  obtain ⟨given, hgiven, -, -, -, hall⟩ := package_folders_set_function h
  cases patterns_forwards.symm.trans hgiven
  obtain ⟨folders', -, hperm, he⟩ := hall (twoFolders backwards) ["!b*", "b", "a", "a*"]
    (shape_twoFolders _ _) fun pattern => (List.reverse_perm ["a*", "a", "b", "!b*"]).mem_iff
  rw [he patterns_backwards, List.perm_singleton.mp hperm]

end TwoFolders

end Workspace

end WorkspaceCycles
