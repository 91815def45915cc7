import Mathlib
import WorkspaceCycles.CommandLine
import WorkspaceCycles.Proofs.ReadingLimits
import WorkspaceCycles.Proofs.SettingsRules
import WorkspaceCycles.Proofs.ToolRuns

/-!
What can come of a settings file. Whatever its bytes are, the settings are loaded within their
bounds or the fault is told as one of the settings, with four exceptions: bytes that are no text,
numbers of JSON that are too long, lists and objects of JSON that are nested too deep, and values
of YAML that cannot be made out.
-/

namespace WorkspaceCycles

namespace Settings

def IsYaml (file : Path) : Prop :=
  file.suffix = ".yaml" ∨ file.suffix = ".yml"

def candidates (root : Path) : Option Path → List Path
  | some p => [root.join p]
  | none => fileNames.map root.child

def file? (t : FileTree) (root : Path) (given : Option Path) : Except PathFault (Option Path) :=
  (candidates root given).findM? t.isFile?

/-- What a file may hold that makes loading fail with a fault that is not one of the settings. -/
inductive Unanswered (limits : Limits) (file : Path) (bytes : List UInt8) : Prop
  | noText {error : Text.Utf8.DecodeError} (h : Text.Utf8.decode bytes = .error error)
  | longNumber {text : List Char} {digits : Nat} (h : Text.Utf8.decode bytes = .ok text)
      (hfile : ¬ IsYaml file) (hblank : Text.trim (Text.unifyNewlines text) ≠ [])
      (hread : Json.readWithin limits.levels (Text.unifyNewlines text) = .error (.tooLong digits))
  | deepNesting {text : List Char} {kind : String} (h : Text.Utf8.decode bytes = .ok text)
      (hfile : ¬ IsYaml file) (hblank : Text.trim (Text.unifyNewlines text) ≠ [])
      (hread : Json.readWithin limits.levels (Text.unifyNewlines text) = .error (.tooDeep kind))
  | noValue {text : List Char} {fault : Yaml.Fault} (h : Text.Utf8.decode bytes = .ok text)
      (hfile : IsYaml file)
      (hread : Yaml.readWithin limits.isTooNested (Text.unifyNewlines text) = .error fault)
      (hfault : fault ≠ .malformed)

def IsAnswered (r : Except SettingsFault (Settings × Log)) : Prop :=
  (∃ s log, r = .ok (s, log) ∧ s.circular.IsValid) ∨
    ∃ fault, r = .error fault ∧ fault.isReported

theorem not_isAnswered_of_unreported {fault : SettingsFault} (h : fault.isReported = false) :
    ¬ IsAnswered (.error fault) := by
  rintro (⟨s, log, hs, -⟩ | ⟨fault', hf, hreported⟩)
  · cases hs
  · cases hf
    rw [h] at hreported
    cases hreported

theorem isValid_of_ofDocument {file : Path} {v : Value} {s : Settings}
    (h : ofDocument file v = .ok s) : s.circular.IsValid := by
  simp only [ofDocument] at h
  split at h
  · cases h
  · split at h
    · rename_i hr
      cases h
      exact isValid_of_rule hr
    · cases h

theorem isReported_of_ofDocument {file : Path} {v : Value} {fault : SettingsFault}
    (h : ofDocument file v = .error fault) : fault.isReported := by
  simp only [ofDocument] at h
  split at h
  · cases h
    rfl
  · split at h
    · cases h
    · cases h
      rfl

theorem readDocument_eq_error {limits : Limits} {file : Path} {source : List Char}
    {fault : SettingsFault} (h : readDocument limits file source = .error fault) :
    (IsYaml file ∧ ∃ f, Yaml.readWithin limits.isTooNested source = .error f ∧
        fault = .yaml f file) ∨
      (¬ IsYaml file ∧ Text.trim source ≠ [] ∧
        ∃ f, Json.readWithin limits.levels source = .error f ∧ fault = .json f file source) := by
  unfold readDocument at h
  split at h
  · rename_i hy
    cases hread : Yaml.readWithin limits.isTooNested source with
    | ok v =>
      rw [hread] at h
      cases h
    | error f =>
      rw [hread] at h
      cases h
      exact .inl ⟨hy, f, rfl, rfl⟩
  · rename_i hy
    split at h
    · cases h
    · rename_i hblank
      split at h
      · cases h
      · rename_i f hread
        cases h
        exact .inr ⟨hy, hblank, f, hread, rfl⟩

theorem readDocument_of_json {limits : Limits} {file : Path} {source : List Char} {f : Json.Fault}
    (hfile : ¬ IsYaml file) (hblank : Text.trim source ≠ [])
    (hread : Json.readWithin limits.levels source = .error f) :
    readDocument limits file source = .error (.json f file source) := by
  unfold IsYaml at hfile
  rw [readDocument, if_neg hfile, if_neg hblank, hread]

theorem readDocument_of_yaml {limits : Limits} {file : Path} {source : List Char} {f : Yaml.Fault}
    (hfile : IsYaml file) (hread : Yaml.readWithin limits.isTooNested source = .error f) :
    readDocument limits file source = .error (.yaml f file) := by
  unfold IsYaml at hfile
  rw [readDocument, if_pos hfile, hread]
  rfl

section File

variable {t : FileTree} {file : Path} {bytes : List UInt8}

theorem ofFile_of_readDocument {text : List Char} {fault : SettingsFault}
    (hr : t.read file = .ok bytes) (hd : Text.Utf8.decode bytes = .ok text)
    (h : readDocument t.limits file (Text.unifyNewlines text) = .error fault) :
    ofFile t file = .error fault := by
  rw [ofFile, FileTree.readText_of_decode hr hd]
  exact bind_eq_error.mpr (.inr ⟨_, rfl, bind_eq_error.mpr (.inl h)⟩)

theorem unanswered_of_ofFile {fault : SettingsFault} (hr : t.read file = .ok bytes)
    (h : ofFile t file = .error fault) (hf : fault.isReported = false) :
    Unanswered t.limits file bytes := by
  cases hd : Text.Utf8.decode bytes with
  | error error => exact .noText hd
  | ok text =>
    rw [ofFile, FileTree.readText_of_decode hr hd] at h
    rcases bind_eq_error.mp h with h | ⟨source, hs, h⟩
    · cases h
    cases hs
    -- either the parser fails or what it gives is refused, and that is always reported
    rcases bind_eq_error.mp h with h | ⟨v, -, h⟩
    · rcases readDocument_eq_error h with ⟨hy, f, hread, rfl⟩ | ⟨hy, hblank, f, hread, rfl⟩
      · refine .noValue hd hy hread ?_
        rintro rfl
        cases hf
      · cases f with
        | syntaxFault => cases hf
        | tooLong digits => exact .longNumber hd hy hblank hread
        | tooDeep kind => exact .deepNesting hd hy hblank hread
    · rw [isReported_of_ofDocument h] at hf
      cases hf

theorem ofFile_of_unanswered (hr : t.read file = .ok bytes) (h : Unanswered t.limits file bytes) :
    ∃ fault, ofFile t file = .error fault ∧ fault.isReported = false := by
  cases h with
  | @noText error hd =>
    refine ⟨.text (.undecodable error) file, ?_, rfl⟩
    rw [ofFile, FileTree.readText_of_undecodable hr hd]
    rfl
  | longNumber hd hfile hblank hread =>
    exact ⟨_, ofFile_of_readDocument hr hd (readDocument_of_json hfile hblank hread), rfl⟩
  | deepNesting hd hfile hblank hread =>
    exact ⟨_, ofFile_of_readDocument hr hd (readDocument_of_json hfile hblank hread), rfl⟩
  | noValue hd hfile hread hfault =>
    refine ⟨_, ofFile_of_readDocument hr hd (readDocument_of_yaml hfile hread), ?_⟩
    simpa [SettingsFault.isReported] using hfault

end File

theorem isValid_of_ofFile {t : FileTree} {file : Path} {s : Settings}
    (h : ofFile t file = .ok s) : s.circular.IsValid := by
  obtain ⟨source, -, h⟩ := exists_of_bind_eq_ok h
  obtain ⟨v, -, h⟩ := exists_of_bind_eq_ok h
  exact isValid_of_ofDocument h

section Load

variable {t : FileTree} {root : Path} {given : Option Path}

theorem file?_some (t : FileTree) (root p : Path) : file? t root (some p) =
    (t.isFile? (root.join p)).map fun found => if found then some (root.join p) else none := by
  rw [file?, candidates]
  cases hp : t.isFile? (root.join p) with
  | error fault =>
    rw [List.findM?, hp]
    rfl
  | ok found =>
    rw [findM?_cons_of_eq_ok hp]
    cases found <;> rfl

theorem load_of_refused {fault : PathFault} (h : file? t root given = .error fault) :
    load t root given = .error (.path fault) := by
  cases given with
  | some p =>
    rw [file?_some] at h
    cases hfile : t.isFile? (root.join p) with
    | error f =>
      rw [hfile] at h
      cases h
      simp only [load, hfile]
      rfl
    | ok found =>
      rw [hfile] at h
      cases h
  | none =>
    have hfind : findFile t root = .error fault := h
    simp only [load, hfind]
    rfl

theorem load_of_file {file : Path} (h : file? t root given = .ok (some file)) :
    load t root given = (ofFile t file).map fun s => (s, []) := by
  cases given with
  | some p =>
    obtain ⟨hm, hfile⟩ := eq_true_of_findM?_eq_some h
    obtain rfl := List.mem_singleton.mp hm
    simp only [load, hfile]
    rfl
  | none =>
    have hfind : findFile t root = .ok (some file) := h
    simp only [load, hfind]
    rfl

theorem isAnswered_of_file?_eq_none (h : file? t root given = .ok none) :
    IsAnswered (load t root given) := by
  cases given with
  | some p =>
    rw [file?_some] at h
    cases hfile : t.isFile? (root.join p) with
    | error f =>
      rw [hfile] at h
      cases h
    | ok found =>
      rw [hfile] at h
      cases found with
      | true => cases h
      | false =>
        refine .inr ⟨.missing (root.join p), ?_, rfl⟩
        simp only [load, hfile]
        rfl
  | none =>
    have hfind : findFile t root = .ok none := h
    obtain ⟨log, hload⟩ : ∃ log, load t root none = .ok ({}, log) := by
      simp only [load, hfind]
      exact ⟨_, rfl⟩
    exact .inl ⟨{}, log, hload, CircularSettings.isValid_default⟩

theorem exists_read_of_file? {file : Path} (h : file? t root given = .ok (some file)) :
    ∃ bytes, t.read file = .ok bytes :=
  FileTree.exists_read_of_isFile (FileTree.isFile_of_isFile? (eq_true_of_findM?_eq_some h).2)

theorem load_of_unanswered {file : Path} {bytes : List UInt8}
    (h : file? t root given = .ok (some file)) (hr : t.read file = .ok bytes)
    (hu : Unanswered t.limits file bytes) :
    ∃ fault, load t root given = .error fault ∧ fault.isReported = false := by
  obtain ⟨fault, hf, hreported⟩ := ofFile_of_unanswered hr hu
  refine ⟨fault, ?_, hreported⟩
  rw [load_of_file h, hf]
  rfl

theorem isAnswered_load_iff {file : Path} {bytes : List UInt8}
    (h : file? t root given = .ok (some file)) (hr : t.read file = .ok bytes) :
    IsAnswered (load t root given) ↔ ¬ Unanswered t.limits file bytes := by
  constructor
  · intro ha hu
    obtain ⟨fault, hf, hreported⟩ := load_of_unanswered h hr hu
    rw [hf] at ha
    exact not_isAnswered_of_unreported hreported ha
  · intro hu
    have hload := load_of_file h
    cases hs : ofFile t file with
    | ok s =>
      rw [hs] at hload
      exact .inl ⟨s, [], hload, isValid_of_ofFile hs⟩
    | error fault =>
      rw [hs] at hload
      refine .inr ⟨fault, hload, ?_⟩
      cases hf : fault.isReported with
      | true => rfl
      | false => exact absurd (unanswered_of_ofFile hr hs hf) hu

theorem isAnswered_load_iff_of_any : IsAnswered (load t root given) ↔
    CanSearch t.isFile? (candidates root given) ∧
      ¬ ∃ file bytes, file? t root given = .ok (some file) ∧ t.read file = .ok bytes ∧
        Unanswered t.limits file bytes := by
  rw [← exists_findM?_iff]
  change _ ↔ (∃ r, file? t root given = .ok r) ∧ _
  cases hfile : file? t root given with
  | error fault =>
    rw [load_of_refused hfile]
    exact iff_of_false (not_isAnswered_of_unreported rfl) fun ⟨⟨r, hr⟩, _⟩ => nomatch hr
  | ok found =>
    cases found with
    | none =>
      refine iff_of_true (isAnswered_of_file?_eq_none hfile) ⟨⟨_, rfl⟩, ?_⟩
      rintro ⟨file, bytes, h, -⟩
      cases h
    | some file =>
      obtain ⟨bytes, hr⟩ := exists_read_of_file? hfile
      rw [isAnswered_load_iff hfile hr]
      simp [hr]

theorem isAnswered_of_short {file : Path} {bytes : List UInt8} {text : List Char}
    (h : file? t root given = .ok (some file)) (hr : t.read file = .ok bytes)
    (hd : Text.Utf8.decode bytes = .ok text) (hfile : ¬ IsYaml file)
    (hdigits : text.length ≤ Json.maxDigits) (hlevels : text.length ≤ t.limits.levels) :
    IsAnswered (load t root given) := by
  rw [isAnswered_load_iff h hr]
  have hunify := Text.length_unifyNewlines_le text
  obtain ⟨hlong, hdeep⟩ := Json.readWithin_isBounded t.limits.levels (Text.unifyNewlines text)
  intro hu
  cases hu with
  | noText he =>
    rw [hd] at he
    cases he
  | longNumber ht _ _ hread =>
    rw [hd] at ht
    cases ht
    have := hlong _ hread
    omega
  | deepNesting ht _ _ hread =>
    rw [hd] at ht
    cases ht
    have := hdeep _ hread
    omega
  | noValue _ hy => exact hfile hy

end Load

end Settings

namespace CommandLine

variable {h : Host} {work : Path} {colours verbose asJson : Bool} {args : List String}
  {options : CheckOptions} {given : Option Path} {root : Path}

theorem run_of_settingsFault {fault : SettingsFault}
    (hargs : Request.ofArguments h.files work args = .ok (.check verbose options given asJson))
    (hroot : Workspace.findRoot h.files options.folder = .ok root)
    (hload : Settings.load h.files root given = .error fault) :
    run h work colours args =
      if fault.isReported then
        .ok {
          exitCode := 1
          stderr :=
            if colours then failureText (.settings fault)
            else Text.withoutEscapes (failureText (.settings fault)) }
      else .error (.settings fault) := by
  have hcheck : runCheck h options given = .error { fault := .settings fault } := by
    rw [runCheck, hroot]
    change (Except.mapError _ (Settings.load h.files root given) >>= _) = _
    rw [hload]
    rfl
  simp only [run, hargs, hcheck]
  rfl

/-- Settings are loaded within their bounds, or their fault is told by the program, which then ends
with the exit code one. It fails in no other way but where a file cannot be looked up, and for files
that are no text, numbers of JSON of more digits than are read, lists and objects of JSON that are
nested too deep, and values of YAML that cannot be made out. -/
theorem load_contract (h : Host) (root : Path) (given : Option Path) :
    (Settings.IsAnswered (Settings.load h.files root given) ↔
      CanSearch h.files.isFile? (Settings.candidates root given) ∧
        ¬ ∃ file bytes, Settings.file? h.files root given = .ok (some file) ∧
          h.files.read file = .ok bytes ∧ Settings.Unanswered h.files.limits file bytes) ∧
    (∀ file, Settings.file? h.files root given = .ok (some file) →
      ∃ bytes, h.files.read file = .ok bytes ∧
        (Settings.IsAnswered (Settings.load h.files root given) ↔
          ¬ Settings.Unanswered h.files.limits file bytes) ∧
        ∀ text, Text.Utf8.decode bytes = .ok text → ¬ Settings.IsYaml file →
          text.length ≤ Json.maxDigits → text.length ≤ h.files.limits.levels →
            Settings.IsAnswered (Settings.load h.files root given)) ∧
    ∀ work colours args verbose options asJson,
      Request.ofArguments h.files work args = .ok (.check verbose options given asJson) →
      Workspace.findRoot h.files options.folder = .ok root →
      (∀ fault, Settings.load h.files root given = .error fault → fault.isReported →
        run h work colours args = .ok {
          exitCode := 1
          stderr :=
            if colours then failureText (.settings fault)
            else Text.withoutEscapes (failureText (.settings fault)) }) ∧
      (∀ fault, Settings.file? h.files root given = .error fault →
        run h work colours args = .error (.settings (.path fault))) ∧
      ∀ file bytes, Settings.file? h.files root given = .ok (some file) →
        h.files.read file = .ok bytes → Settings.Unanswered h.files.limits file bytes →
        ∃ fault, run h work colours args = .error (.settings fault) := by
  refine ⟨Settings.isAnswered_load_iff_of_any, fun file hf => ?_, ?_⟩
  · obtain ⟨bytes, hr⟩ := Settings.exists_read_of_file? hf
    exact ⟨bytes, hr, Settings.isAnswered_load_iff hf hr, fun text hd hy hdigits hlevels =>
      Settings.isAnswered_of_short hf hr hd hy hdigits hlevels⟩
  intro work colours args verbose options asJson hargs hroot
  refine ⟨fun fault hload hreported => ?_, fun fault hf => ?_, fun file bytes hf hr hu => ?_⟩
  · rw [run_of_settingsFault hargs hroot hload, if_pos hreported]
  · rw [run_of_settingsFault hargs hroot (Settings.load_of_refused hf)]
    rfl
  · obtain ⟨fault, hload, hreported⟩ := Settings.load_of_unanswered hf hr hu
    refine ⟨fault, ?_⟩
    rw [run_of_settingsFault hargs hroot hload, hreported]
    rfl

def brokenHost : Host where
  files := { root := .folder [("pnpm-workspace.yaml", .file [] false),
    ("monorepo.config.json", .file [0xff] false)] }
  searchPath := []
  execute := fun _ _ => .notStarted ""
  reportFile := .top

theorem not_isAnswered_of_byte :
    ¬ Settings.IsAnswered (Settings.load brokenHost.files ⟨.root, []⟩ none) ∧
      ∃ fault, run brokenHost ⟨.root, []⟩ false ["check"] = .error (.settings fault) := by
  have hfile : Settings.file? brokenHost.files ⟨.root, []⟩ none =
      .ok (some ⟨.root, ["monorepo.config.json"]⟩) := by cbv
  have hr : brokenHost.files.read ⟨.root, ["monorepo.config.json"]⟩ = .ok [0xff] := by cbv
  have hd : Text.Utf8.decode [0xff] = .error ⟨0, 0xff, [], .invalidStart⟩ := by cbv
  have hu : Settings.Unanswered brokenHost.files.limits ⟨.root, ["monorepo.config.json"]⟩ [0xff] :=
    .noText hd
  have hargs : Request.ofArguments brokenHost.files ⟨.root, []⟩ ["check"] =
      .ok (.check false { folder := ⟨.root, []⟩ } none false) := by cbv
  have hroot : Workspace.findRoot brokenHost.files ⟨.root, []⟩ = .ok ⟨.root, []⟩ := by cbv
  obtain ⟨fault, hload, hreported⟩ := Settings.load_of_unanswered hfile hr hu
  refine ⟨fun h => (Settings.isAnswered_load_iff hfile hr).mp h hu, fault, ?_⟩
  rw [run_of_settingsFault hargs hroot hload, hreported]
  rfl

end CommandLine

end WorkspaceCycles
