import Mathlib
import WorkspaceCycles.Proofs.PackageFolders
import WorkspaceCycles.Proofs.ReadingLimits

namespace WorkspaceCycles

namespace Package

def HoldsObject (t : FileTree) (folder : Path) (fields : List (String × Json)) : Prop :=
  ∃ bytes text, t.read (folder.child manifestName) = .ok bytes ∧
    Text.Utf8.decode bytes = .ok text ∧ Json.read (Text.unifyNewlines text) = .ok (.object fields)

def IsNamed (t : FileTree) (folder : Path) : Prop :=
  ∃ fields name, HoldsObject t folder fields ∧ Assoc.get? fields "name" = some (.text name)

structure IsOfFields (p : Package) (folder : Path) (fields : List (String × Json)) : Prop where
  name : Assoc.get? fields "name" = some (.text p.name)
  folder : p.folder = folder
  version : p.version = if ((Assoc.get? fields "version").getD .null).isTruthy then
    (Assoc.get? fields "version").getD .null else .text "0.0.0"
  isPrivate : p.isPrivate = ((Assoc.get? fields "private").getD .null).isTruthy
  dependencies : p.dependencies = textFields (Assoc.get? fields "dependencies")
  devDependencies : p.devDependencies = textFields (Assoc.get? fields "devDependencies")
  scripts : p.scripts = textFields (Assoc.get? fields "scripts")

theorem ofManifest?_object {folder : Path} {fields : List (String × Json)} {p : Package} :
    ofManifest? folder (.object fields) = some p ↔ p.IsOfFields folder fields := by
  simp only [ofManifest?, Json.get?, bind, Option.bind_eq_some_iff, pure, Option.some.injEq]
  constructor
  · rintro ⟨given, hgiven, name, hname, rfl⟩
    cases given with
    | text s =>
      cases Option.some.inj hname
      exact ⟨hgiven, rfl, rfl, rfl, rfl, rfl, rfl⟩
    | _ => cases hname
  · intro h
    refine ⟨_, h.name, p.name, rfl, ?_⟩
    obtain ⟨name, folder', version, isPrivate, dependencies, devDependencies, scripts⟩ := p
    obtain ⟨-, rfl, rfl, rfl, rfl, rfl, rfl⟩ := h
    rfl

theorem exists_object_of_ofManifest? {folder : Path} {manifest : Json} {p : Package}
    (h : ofManifest? folder manifest = some p) : ∃ fields, manifest = .object fields := by
  cases manifest with
  | object fields => exact ⟨fields, rfl⟩
  | _ => cases h

theorem exists_isOfFields {folder : Path} {fields : List (String × Json)} {name : String}
    (h : Assoc.get? fields "name" = some (.text name)) : ∃ p : Package, p.IsOfFields folder fields :=
  ⟨⟨name, folder, _, _, _, _, _⟩, h, rfl, rfl, rfl, rfl, rfl, rfl⟩

variable {t : FileTree} {folder : Path}

theorem exists_manifest_of_load {p : Package} (h : load t folder = .ok p) :
    ∃ source manifest, t.readText (folder.child manifestName) = .ok source ∧
      Json.readWithin t.limits.levels source = .ok manifest ∧
        ofManifest? folder manifest = some p := by
  obtain ⟨source, hsource, hrest⟩ := exists_of_bind_eq_ok h
  obtain ⟨manifest, hmanifest, hp⟩ := exists_of_bind_eq_ok hrest
  rw [mapError_eq_ok_iff] at hsource hmanifest
  cases ho : ofManifest? folder manifest with
  | none =>
    rw [ho] at hp
    cases hp
  | some p' =>
    rw [ho] at hp
    cases hp
    exact ⟨source, manifest, hsource, hmanifest, ho⟩

theorem readWithin_eq_read {bytes : List UInt8} {text : List Char} (hdeep : ¬ IsTooDeep t folder)
    (hr : t.read (folder.child manifestName) = .ok bytes)
    (hd : Text.Utf8.decode bytes = .ok text) :
    Json.readWithin t.limits.levels (Text.unifyNewlines text) =
      Json.read (Text.unifyNewlines text) :=
  (Json.read_eq_readWithin fun kind hk => hdeep ⟨bytes, hr, text, kind, hd, hk⟩).symm

theorem load_eq_ok_iff {p : Package} (hdeep : ¬ IsTooDeep t folder) : load t folder = .ok p ↔
    ∃ fields, HoldsObject t folder fields ∧ p.IsOfFields folder fields := by
  constructor
  · intro h
    obtain ⟨source, manifest, hsource, hmanifest, ho⟩ := exists_manifest_of_load h
    obtain ⟨bytes, text, hr, hd, rfl⟩ := FileTree.readText_eq_ok_iff.mp hsource
    obtain ⟨fields, rfl⟩ := exists_object_of_ofManifest? ho
    rw [readWithin_eq_read hdeep hr hd] at hmanifest
    exact ⟨fields, ⟨bytes, text, hr, hd, hmanifest⟩, ofManifest?_object.mp ho⟩
  · rintro ⟨fields, ⟨bytes, text, hr, hd, hj⟩, hp⟩
    have hsource := FileTree.readText_eq_ok_iff.mpr ⟨bytes, text, hr, hd, rfl⟩
    rw [← readWithin_eq_read hdeep hr hd] at hj
    simp only [load, hsource, hj, ofManifest?_object.mpr hp, Except.mapError, bind, Except.bind]

theorem exists_load_iff (hdeep : ¬ IsTooDeep t folder) :
    (∃ p, load t folder = .ok p) ↔ IsNamed t folder := by
  simp only [load_eq_ok_iff hdeep]
  constructor
  · rintro ⟨p, fields, hfields, hp⟩
    exact ⟨fields, p.name, hfields, hp.name⟩
  · rintro ⟨fields, name, hfields, hname⟩
    obtain ⟨p, hp⟩ := exists_isOfFields hname
    exact ⟨p, fields, hfields, hp⟩

theorem folder_of_load {p : Package} (h : load t folder = .ok p) : p.folder = folder := by
  obtain ⟨source, manifest, -, -, ho⟩ := exists_manifest_of_load h
  obtain ⟨fields, rfl⟩ := exists_object_of_ofManifest? ho
  exact (ofManifest?_object.mp ho).folder

theorem isNamed_iff : IsNamed t folder ↔
    ((t.readText (folder.child manifestName)).toOption.bind fun source =>
      (Json.read source).toOption.bind (ofManifest? folder)).isSome = true := by
  simp only [Option.isSome_iff_exists, Option.bind_eq_some_iff, toOption_eq_some_iff,
    FileTree.readText_eq_ok_iff]
  constructor
  · rintro ⟨fields, name, ⟨bytes, text, hr, hd, hj⟩, hname⟩
    obtain ⟨p, hp⟩ := exists_isOfFields hname
    exact ⟨p, _, ⟨bytes, text, hr, hd, rfl⟩, _, hj, ofManifest?_object.mpr hp⟩
  · rintro ⟨p, -, ⟨bytes, text, hr, hd, rfl⟩, manifest, hj, ho⟩
    obtain ⟨fields, rfl⟩ := exists_object_of_ofManifest? ho
    exact ⟨fields, p.name, ⟨bytes, text, hr, hd, hj⟩, (ofManifest?_object.mp ho).name⟩

instance (t : FileTree) : DecidablePred (IsNamed t) := fun _ => decidable_of_iff' _ isNamed_iff

theorem load_congr {t' : FileTree} (hlimits : t'.limits = t.limits)
    (h : t'.read (folder.child manifestName) = t.read (folder.child manifestName)) :
    load t' folder = load t folder := by
  unfold load FileTree.readText
  rw [h, hlimits]

end Package

namespace Workspace

variable {t : FileTree} {start root : Path} {folders : List Path}

structure Warns (line : LogLine) (folder : Path) : Prop where
  level : line.level = .warning
  source : line.source = .workspace
  text : ∃ reason, line.text = "Failed to load package at " ++ folder.text ++ ": " ++ reason

theorem forall₂_loadPackages {r : List Package × Log} (h : loadPackages t folders = .ok r) :
    List.Forall₂ (fun p folder => ∃ fields, Package.HoldsObject t folder fields ∧
        p.IsOfFields folder fields) r.1 (folders.filter (Package.IsNamed t)) ∧
      List.Forall₂ Warns r.2 (folders.filter fun folder => ¬ Package.IsNamed t folder) := by
  induction folders generalizing r with
  | nil =>
    cases h
    exact ⟨.nil, .nil⟩
  | cons folder folders ih =>
    have hdeep := exists_loadPackages_iff.mp ⟨r, h⟩ folder List.mem_cons_self
    obtain ⟨r₀, hr₀, hstep⟩ := loadPackages_cons_eq_ok h
    obtain ⟨hpackages, hlog⟩ := ih hr₀
    rcases hstep with ⟨p, hload, rfl⟩ | ⟨fault, hload, rfl⟩
    · have hnamed : Package.IsNamed t folder := (Package.exists_load_iff hdeep).mp ⟨p, hload⟩
      simp only [List.filter_cons, hnamed, decide_true, not_true, decide_false, if_true,
        Bool.false_eq_true, if_false]
      exact ⟨.cons ((Package.load_eq_ok_iff hdeep).mp hload) hpackages, hlog⟩
    · have hnamed : ¬ Package.IsNamed t folder := by
        rw [← Package.exists_load_iff hdeep]
        simp [hload]
      simp only [List.filter_cons, hnamed, decide_true, not_false_iff, decide_false, if_true,
        Bool.false_eq_true, if_false]
      exact ⟨hpackages, .cons ⟨rfl, rfl, fault.message, rfl⟩ hlog⟩

theorem filter_loadPackages {t' : FileTree} (keeps : Path → Bool) {r r' : List Package × Log}
    (h : ∀ folder ∈ folders, keeps folder = true → Package.load t' folder = Package.load t folder)
    (hr : loadPackages t folders = .ok r) (hr' : loadPackages t' folders = .ok r') :
    r'.1.filter (keeps ·.folder) = r.1.filter (keeps ·.folder) := by
  induction folders generalizing r r' with
  | nil =>
    cases hr
    cases hr'
    rfl
  | cons folder folders ih =>
    obtain ⟨hfolder, hrest⟩ := List.forall_mem_cons.mp h
    -- the packages that are kept of the folder are the same, those of the others are by induction
    have hhead : ∀ {t : FileTree} {r : List Package × Log},
        loadPackages t (folder :: folders) = .ok r → ∃ r₀, loadPackages t folders = .ok r₀ ∧
          r.1.filter (keeps ·.folder) = (if keeps folder = true then
            (Package.load t folder).toOption.toList else []) ++ r₀.1.filter (keeps ·.folder) := by
      intro t r h
      obtain ⟨r₀, hr₀, hstep⟩ := loadPackages_cons_eq_ok h
      refine ⟨r₀, hr₀, ?_⟩
      rcases hstep with ⟨p, hload, rfl⟩ | ⟨fault, hload, rfl⟩
      · rw [List.filter_cons, Package.folder_of_load hload, hload]
        split <;> rfl
      · rw [hload]
        split <;> rfl
    obtain ⟨r₀, hr₀, he⟩ := hhead hr
    obtain ⟨r₀', hr₀', he'⟩ := hhead hr'
    rw [he, he', ih hrest hr₀ hr₀']
    congr 1
    split
    · rename_i hkeeps
      rw [hfolder hkeeps]
    · rfl

section Replacing

theorem findRoot_congr {t' : FileTree} (h : t'.shape = t.shape) :
    findRoot t' start = findRoot t start := by
  have hfile : ∀ p, t'.isFile? p = t.isFile? p := fun p => by
    rw [← FileTree.isFile?_shape, h, FileTree.isFile?_shape]
  have hstart : t'.canonical? start = t.canonical? start := by
    rw [← FileTree.canonical?_shape, h, FileTree.canonical?_shape]
  simp only [findRoot, hstart, hfile]

theorem patterns_congr {t' : FileTree} (hlimits : t'.limits = t.limits)
    (h : t'.read (root.child fileName) = t.read (root.child fileName)) :
    patterns t' root = patterns t root := by
  unfold patterns FileTree.readText
  rw [h, hlimits]

def HasManifestAt (t : FileTree) (place : List String) (folder : Path) : Prop :=
  t.locate FileTree.maxLinks [] (folder.child Package.manifestName).parts = .ok place

instance (t : FileTree) (place : List String) : DecidablePred (HasManifestAt t place) := fun _ =>
  inferInstanceAs (Decidable (_ = _))

variable {place : List String} {old : List UInt8} {executable : Bool}

theorem packageFolders_overwrite (h : t.root.descend? place = some (.file old executable))
    (bytes : List UInt8)
    (hfile : t.locate FileTree.maxLinks [] (root.child fileName).parts ≠ .ok place) :
    packageFolders (t.put ⟨.root, place⟩ (.file bytes executable)) root = packageFolders t root := by
  have hfolders : foldersOf (t.put ⟨.root, place⟩ (.file bytes executable)) root =
      foldersOf t root := funext fun _ => foldersOf_congr (FileTree.shape_overwrite h bytes)
  have hpatterns : patterns (t.put ⟨.root, place⟩ (.file bytes executable)) root =
      patterns t root := patterns_congr rfl (FileTree.read_overwrite h bytes hfile)
  rw [packageFolders_eq_bind, packageFolders_eq_bind, hfolders, hpatterns]

theorem load_overwrite (h : t.root.descend? place = some (.file old executable))
    (bytes : List UInt8) {folder : Path} (hfolder : ¬ HasManifestAt t place folder) :
    Package.load (t.put ⟨.root, place⟩ (.file bytes executable)) folder = Package.load t folder :=
  Package.load_congr rfl (FileTree.read_overwrite h bytes hfolder)

theorem isTooDeep_overwrite_iff (h : t.root.descend? place = some (.file old executable))
    (bytes : List UInt8) {folder : Path} (hfolder : ¬ HasManifestAt t place folder) :
    Package.IsTooDeep (t.put ⟨.root, place⟩ (.file bytes executable)) folder ↔
      Package.IsTooDeep t folder := by
  rw [Package.isTooDeep_iff, Package.isTooDeep_iff, load_overwrite h bytes hfolder]

theorem nestsTooDeep_of_isTooDeep (h : t.root.descend? place = some (.file old executable))
    {bytes : List UInt8} {folder : Path} (hfolder : HasManifestAt t place folder)
    (hdeep : Package.IsTooDeep (t.put ⟨.root, place⟩ (.file bytes executable)) folder) :
    Json.NestsTooDeep t.limits.levels bytes := by
  obtain ⟨bytes', hr, hdeep⟩ := hdeep
  rw [FileTree.read_overwritten h bytes hfolder] at hr
  cases hr
  exact hdeep

theorem eq_of_hasManifestAt (hlinks : t.links = []) (hfolders : packageFolders t root = .ok folders)
    {folder folder' : Path} (hm : folder ∈ folders) (hm' : folder' ∈ folders)
    (h : HasManifestAt t place folder) (h' : HasManifestAt t place folder') : folder = folder' := by
  obtain ⟨given, -, hgiven⟩ := exists_of_bind_eq_ok hfolders
  have hmore : ".." ∉ [Package.manifestName] := by decide
  exact eq_of_locate_eq hlinks hgiven hm hm' hmore h h'

theorem not_hasManifestAt_file (hlinks : t.links = [])
    (hfile : t.locate FileTree.maxLinks [] (root.child fileName).parts = .ok place)
    (folder : Path) : ¬ HasManifestAt t place folder := by
  intro h
  have he := FileTree.locate_eq_walk hlinks hfile
  rw [FileTree.locate_eq_walk hlinks h] at he
  change FileTree.walk [] (folder.parts ++ ["package.json"]) =
    FileTree.walk [] (root.parts ++ ["pnpm-workspace.yaml"]) at he
  rw [FileTree.walk_append, FileTree.walk_append] at he
  exact absurd (List.append_inj_right' he rfl) (by decide)

end Replacing

/-- The packages are those of the folders whose manifest is an object with a name, and each other
folder is told in one warning. Whatever one manifest is replaced with, the other folders keep their
packages. No manifest may be nested too deep, nor may what one is replaced with. -/
theorem broken_manifest_isolated (hroot : findRoot t start = .ok root)
    (hfolders : packageFolders t root = .ok folders)
    (hnested : ∀ folder ∈ folders, ¬ Package.IsTooDeep t folder) :
    ∃ w log, discover t start = .ok (w, log) ∧ w.root = root ∧
      List.Forall₂ (fun p folder => ∃ fields, Package.HoldsObject t folder fields ∧
        p.IsOfFields folder fields) w.packages (folders.filter (Package.IsNamed t)) ∧
      List.Forall₂ Warns log (folders.filter fun folder => ¬ Package.IsNamed t folder) ∧
      (t.links = [] → ∀ place, ∀ folder ∈ folders, HasManifestAt t place folder →
        t.locate FileTree.maxLinks [] (root.child fileName).parts ≠ .ok place ∧
          ∀ folder' ∈ folders, HasManifestAt t place folder' → folder' = folder) ∧
      ∀ place old executable bytes, t.root.descend? place = some (.file old executable) →
        t.locate FileTree.maxLinks [] (root.child fileName).parts ≠ .ok place →
        ¬ Json.NestsTooDeep t.limits.levels bytes →
          ∃ w' log', discover (t.put ⟨.root, place⟩ (.file bytes executable)) start =
            .ok (w', log') ∧ w'.root = root ∧
            packageFolders (t.put ⟨.root, place⟩ (.file bytes executable)) root = .ok folders ∧
            (∀ folder, ¬ HasManifestAt t place folder →
              Package.load (t.put ⟨.root, place⟩ (.file bytes executable)) folder =
                Package.load t folder) ∧
            w'.packages.filter (¬ HasManifestAt t place ·.folder) =
              w.packages.filter (¬ HasManifestAt t place ·.folder) := by
  obtain ⟨r, hr⟩ := exists_loadPackages_iff.mpr hnested
  obtain ⟨hpackages, hlog⟩ := forall₂_loadPackages hr
  refine ⟨_, _, discover_of_loadPackages hroot hfolders hr, rfl, hpackages, hlog, ?_, ?_⟩
  · intro hlinks place folder hm hat
    refine ⟨fun hfile => not_hasManifestAt_file hlinks hfile folder hat, ?_⟩
    exact fun folder' hm' hat' => eq_of_hasManifestAt hlinks hfolders hm' hm hat' hat
  · intro place old executable bytes hold hfile hbytes
    have hroot' := (findRoot_congr (FileTree.shape_overwrite hold bytes)).trans hroot
    have hfolders' := (packageFolders_overwrite hold bytes hfile).trans hfolders
    obtain ⟨r', hr'⟩ : ∃ r', loadPackages (t.put ⟨.root, place⟩ (.file bytes executable)) folders =
        .ok r' := by
      refine exists_loadPackages_iff.mpr fun folder hm hdeep => ?_
      by_cases hat : HasManifestAt t place folder
      · exact hbytes (nestsTooDeep_of_isTooDeep hold hat hdeep)
      · exact hnested folder hm ((isTooDeep_overwrite_iff hold bytes hat).mp hdeep)
    refine ⟨_, _, discover_of_loadPackages hroot' hfolders' hr', rfl, hfolders', ?_, ?_⟩
    · exact fun folder hfolder => load_overwrite hold bytes hfolder
    · refine filter_loadPackages (fun folder => ¬ HasManifestAt t place folder) ?_ hr hr'
      exact fun folder _ hfolder => load_overwrite hold bytes (of_decide_eq_true hfolder)

section OneBroken

def oneBroken : FileTree where
  root := .folder [("pnpm-workspace.yaml",
      .file ("packages:\n- 'a'\n- 'b'\n".toList.map (·.toNat.toUInt8)) false),
    ("a", .folder [("package.json", .file [0xff] false)]),
    ("b", .folder [("package.json",
      .file ("\x7b\"name\":\"b\"\x7d".toList.map (·.toNat.toUInt8)) false)])]

theorem shape_oneBroken : oneBroken.shape = (twoFolders "").shape := rfl

theorem packageFolders_oneBroken :
    packageFolders oneBroken .top = .ok [⟨.root, ["a"]⟩, ⟨.root, ["b"]⟩] := by
  have hpatterns : patterns oneBroken .top = .ok ["a", "b"] :=
    patterns_of_tokens "packages:\n- 'a'\n- 'b'\n".toList (by cbv) rfl (by decide +kernel)
  rw [packageFolders_of_patterns hpatterns, foldersOf_congr shape_oneBroken]
  cbv

theorem load_a : Package.load oneBroken ⟨.root, ["a"]⟩ =
    .error (.text (.undecodable ⟨0, 0xff, [], .invalidStart⟩)) := by
  cbv

theorem load_b : Package.load oneBroken ⟨.root, ["b"]⟩ =
    .ok { name := "b", folder := ⟨.root, ["b"]⟩ } := by
  cbv

theorem not_isTooDeep_a : ¬ Package.IsTooDeep oneBroken ⟨.root, ["a"]⟩ := by
  simp [Package.isTooDeep_iff, load_a]

theorem not_isTooDeep_b : ¬ Package.IsTooDeep oneBroken ⟨.root, ["b"]⟩ := by
  simp [Package.isTooDeep_iff, load_b]

theorem isNamed_b : Package.IsNamed oneBroken ⟨.root, ["b"]⟩ :=
  (Package.exists_load_iff not_isTooDeep_b).mp ⟨_, load_b⟩

theorem not_isNamed_a : ¬ Package.IsNamed oneBroken ⟨.root, ["a"]⟩ := by
  rw [← Package.exists_load_iff not_isTooDeep_a, load_a]
  simp

theorem broken_manifest_isolated_oneBroken :
    ∃ w log, discover oneBroken .top = .ok (w, log) ∧
      w.packages.map (·.folder) = [⟨.root, ["b"]⟩] ∧ log.length = 1 ∧
      ∀ bytes, ¬ Json.NestsTooDeep oneBroken.limits.levels bytes →
        ∃ w' log', discover (oneBroken.put ⟨.root, ["a", "package.json"]⟩
        (.file bytes false)) .top = .ok (w', log') ∧
        Package.load (oneBroken.put ⟨.root, ["a", "package.json"]⟩ (.file bytes false))
          ⟨.root, ["b"]⟩ = Package.load oneBroken ⟨.root, ["b"]⟩ := by
  have hroot : findRoot oneBroken .top = .ok .top := by cbv
  have hfile : oneBroken.locate FileTree.maxLinks [] (Path.top.child fileName).parts =
      .ok ["pnpm-workspace.yaml"] := by cbv
  have hb : oneBroken.locate FileTree.maxLinks []
      (Path.child ⟨.root, ["b"]⟩ Package.manifestName).parts = .ok ["b", "package.json"] := by cbv
  have hnested : ∀ folder ∈ ([⟨.root, ["a"]⟩, ⟨.root, ["b"]⟩] : List Path),
      ¬ Package.IsTooDeep oneBroken folder := by
    rw [List.forall_mem_cons, List.forall_mem_singleton]
    exact ⟨not_isTooDeep_a, not_isTooDeep_b⟩
  obtain ⟨w, log, hw, -, hpackages, hlog, -, hreplaced⟩ :=
    broken_manifest_isolated hroot packageFolders_oneBroken hnested
  simp only [List.filter_cons, List.filter_nil, isNamed_b, not_isNamed_a, decide_true, decide_false,
    not_true, not_false_iff, if_true, Bool.false_eq_true, if_false] at hpackages hlog
  refine ⟨w, log, hw, ?_, hlog.length_eq, fun bytes hbytes => ?_⟩
  · obtain ⟨p, packages, ⟨fields, -, hp⟩, hnil, hcons⟩ := List.forall₂_cons_right_iff.mp hpackages
    rw [hcons, List.forall₂_nil_right_iff.mp hnil, List.map_singleton, hp.folder]
  · obtain ⟨w', log', hw', -, -, hload, -⟩ := hreplaced ["a", "package.json"] [0xff] false bytes rfl
      (by rw [hfile]; decide) hbytes
    refine ⟨w', log', hw', hload _ ?_⟩
    rw [HasManifestAt, hb]
    decide

end OneBroken

end Workspace

end WorkspaceCycles
