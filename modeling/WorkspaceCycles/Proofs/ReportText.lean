import Mathlib
import WorkspaceCycles.CommandLine
import WorkspaceCycles.Proofs.Faults
import WorkspaceCycles.Proofs.PrintableJson

namespace WorkspaceCycles

namespace Issue

theorem toJson_eq_object (i : Issue) : ∃ fields, i.toJson = .object fields ∧
    (Assoc.keys fields).Sublist ["severity", "type", "message", "package", "file", "fix"] ∧
    ∀ f ∈ fields, ∃ s, f.2 = .text s := by
  obtain ⟨severity, kind, message, package, file, fix⟩ := i
  refine ⟨_, rfl, ?_, ?_⟩
  · cases package <;> cases file <;> cases fix <;> simp [Assoc.keys]
  · cases package <;> cases file <;> cases fix <;> simp

theorem isPlain_toJson (i : Issue) : i.toJson.IsPlain := by
  obtain ⟨fields, hi, hkeys, htexts⟩ := toJson_eq_object i
  rw [hi]
  refine .object (hkeys.nodup (by decide)) fun f hf => ?_
  obtain ⟨s, hs⟩ := htexts f hf
  rw [hs]
  exact .text s

end Issue

namespace Report

theorem count_le_total (r : Report) (s : Severity) : r.count s ≤ r.total :=
  List.countP_le_length

theorem isPlain_toJson {r : Report} (h : r.total < 10 ^ Json.maxDigits) : r.toJson.IsPlain := by
  have hissues : ∀ v ∈ r.issues.map Issue.toJson, v.IsPlain :=
    List.forall_mem_map.mpr fun i _ => i.isPlain_toJson
  have hcounts : ∀ f ∈ [Severity.critical, .high, .medium, .low].map
      fun s => (s.text, Json.int (r.count s)), f.2.IsPlain :=
    List.forall_mem_map.mpr fun s _ => .int (Nat.lt_of_le_of_lt (r.count_le_total s) h)
  have hstats : (Json.object (("total", .int r.total) ::
      [Severity.critical, .high, .medium, .low].map fun s => (s.text, .int (r.count s)))).IsPlain :=
    .object (by decide : ["total", "critical", "high", "medium", "low"].Nodup)
      (List.forall_mem_cons.mpr ⟨.int h, hcounts⟩)
  refine .object (by decide : ["success", "issues", "stats"].Nodup) ?_
  simp only [List.forall_mem_cons]
  exact ⟨.bool _, .list hissues, hstats, List.forall_mem_nil _⟩

def stat? (r : Report) (name : String) : Option Json :=
  (r.toJson.get? "stats").bind (·.get? name)

structure IsTrue (r : Report) : Prop where
  success : r.toJson.get? "success" = some (.bool (decide (r.issues = [])))
  issues : r.toJson.get? "issues" = some (.list (r.issues.map Issue.toJson))
  total : r.stat? "total" = some (.int r.issues.length)
  bucket : ∀ s : Severity,
    r.stat? s.text = some (.int (r.issues.filter fun i => i.severity = s).length)
  sum : r.issues.length =
    (Severity.all.map fun s => (r.issues.filter fun i => i.severity = s).length).sum

theorem count_eq_length_filter (r : Report) (s : Severity) :
    r.count s = (r.issues.filter fun i => i.severity = s).length := by
  rw [count, List.countP_eq_length_filter]
  rfl

theorem isTrue (r : Report) : r.IsTrue where
  success := by
    cases h : r.issues <;> simp [toJson, Json.get?, Assoc.get?, passed, h]
  issues := rfl
  total := rfl
  bucket := by
    intro s
    rw [← count_eq_length_filter]
    cases s <;> rfl
  sum := by
    have hsum : r.issues.length = _ := r.total_eq_sum_count
    simp only [← count_eq_length_filter, Severity.all, List.map_cons, List.map_nil, List.sum_cons,
      List.sum_nil]
    omega

theorem read_indented {r : Report} (h : r.total < 10 ^ Json.maxDigits) :
    Json.read (Json.indented r.toJson ++ "\n").toList = .ok r.toJson := by
  have hnewline : ∀ c ∈ "\n".toList, Json.isSpace c = true := by simp [Json.isSpace]
  rw [String.toList_append, Json.indented, String.toList_ofList]
  exact Json.read_write Json.isBlank_newLine (isPlain_toJson h) 0 hnewline

theorem withoutEscapes_indented {r : Report} (h : r.total < 10 ^ Json.maxDigits) :
    Text.withoutEscapes (Json.indented r.toJson ++ "\n") = Json.indented r.toJson ++ "\n" := by
  apply Text.withoutEscapes_eq_self
  rw [String.toList_append, Json.indented, String.toList_ofList, List.mem_append]
  rintro (hmem | hmem)
  · have hshown := Json.forall_mem_write Json.isBlank_newLine (isPlain_toJson h) 0 _ hmem
    revert hshown
    decide
  · revert hmem
    decide

end Report

namespace CommandLine

variable {h : Host} {work root : Path} {args : List String} {verbose asJson : Bool}
  {options : CheckOptions} {file : Option Path} {settings : Settings} {log : Log} {c : Check}

theorem runCheck_eq_ok (hroot : Workspace.findRoot h.files options.folder = .ok root)
    (hload : Settings.load h.files root file = .ok (settings, log))
    (hcheck : Check.run h options settings.circular none = .ok c) :
    runCheck h options file = .ok { c with log := log ++ c.log } := by
  simp only [runCheck, hroot, hload, hcheck, Except.mapError, bind, Except.bind, pure, Except.pure]

/-- The exit code and the JSON of a check agree with each other and with the issues. The reader
takes numbers of `maxDigits` digits, which count more issues than there is room for. -/
theorem verdict_and_report_agree
    (hargs : Request.ofArguments h.files work args = .ok (.check verbose options file asJson))
    (hroot : Workspace.findRoot h.files options.folder = .ok root)
    (hload : Settings.load h.files root file = .ok (settings, log))
    (hcheck : Check.run h options settings.circular none = .ok c) (colours : Bool) :
    ∃ e, run h work colours args = .ok e ∧
      (e.exitCode = 0 ↔ c.report.issues = []) ∧
      (asJson = true → c.report.total < 10 ^ Json.maxDigits →
        Json.read e.stdout.toList = .ok c.report.toJson) ∧
      c.report.IsTrue := by
  unfold run
  simp only [hargs, runCheck_eq_ok hroot hload hcheck]
  refine ⟨_, rfl, ?_, ?_, c.report.isTrue⟩
  · simp [Report.passed]
  · rintro rfl hfew
    simp only [reportText, if_true, Report.withoutEscapes_indented hfew, ite_self]
    exact Report.read_indented hfew

def oddName : String := "\"\\\x1bé😀"

def ownManifest : Json :=
  .object [("name", .text oddName), ("dependencies", .object [(oddName, .text "workspace:*")])]

def ownPackage : Package :=
  { name := oddName, folder := .top, dependencies := [(oddName, "workspace:*")] }

def ownHost : Host where
  files := { root := .folder [
    ("pnpm-workspace.yaml", .file ("packages: .".toList.map (·.toNat.toUInt8)) false),
    ("package.json", .file ((Json.write Json.newLine 0 ownManifest).map (·.toNat.toUInt8)) false)] }
  searchPath := []
  execute := fun _ _ => .notStarted ""
  reportFile := .top

theorem read_ownManifest :
    Json.readWithin ownHost.files.limits.levels (Json.write Json.newLine 0 ownManifest) =
      .ok ownManifest := by
  have hplain : ownManifest.IsPlain := by
    refine .object (by decide : ["name", "dependencies"].Nodup) ?_
    simp only [List.forall_mem_cons]
    refine ⟨.text _, .object (List.nodup_singleton _) ?_, List.forall_mem_nil _⟩
    exact List.forall_mem_singleton.mpr (.text _)
  have hlength : (Json.write Json.newLine 0 ownManifest).length ≤ ownHost.files.limits.levels := by
    cbv
  rw [← List.append_nil (Json.write _ _ _)]
  exact Json.readWithin_write Json.isBlank_newLine hplain 0 hlength (List.forall_mem_nil _)

theorem load_ownPackage : Package.load ownHost.files .top = .ok ownPackage := by
  have htext : ownHost.files.readText (Path.top.child Package.manifestName) =
      .ok (Json.write Json.newLine 0 ownManifest) := by cbv
  have hpackage : Package.ofManifest? .top ownManifest = some ownPackage := rfl
  simp only [Package.load, htext, Except.mapError, bind, Except.bind, read_ownManifest, hpackage]

def ownPattern : Yaml.Node :=
  let entries : List (Yaml.Node × Yaml.Node) := [(.scalar .text "packages", .scalar .text ".")]
  .mapping .mapping true entries entries

theorem read_ownPattern :
    Yaml.read "packages: .".toList = .ok (.record [("packages", .text ".")]) := by
  have htokens : Yaml.tokens "packages: .".toList = .ok [.blockMappingStart, .key,
      .scalar true "packages", .value, .scalar true ".", .blockEnd] := by
    decide +kernel
  have hparse : ∃ h, Yaml.Node.parse Yaml.defaultHandles .block [] [.blockMappingStart, .key,
      .scalar true "packages", .value, .scalar true ".", .blockEnd] =
      .ok ⟨ownPattern, [], [], h⟩ := by
    have hkey : Yaml.Kind.ofPlain "packages" = .text := by decide +kernel
    have hpattern : Yaml.Kind.ofPlain "." = .text := by decide +kernel
    simp [ownPattern, Yaml.Node.parse, Yaml.Node.blockEntries, Yaml.Node.parseOrAbsent,
      Yaml.Node.mappingValue, Yaml.Node.afterToken, Yaml.splitProperties, Yaml.Node.tagOf,
      Yaml.Place.allowsBlock, Yaml.endsBlockKey, Yaml.register, Yaml.opened, Yaml.closed,
      Yaml.Node.collectionKind, Yaml.Node.scalarKind, Yaml.Parsed.widen, hkey, hpattern,
      Yaml.Node.ofEntries, Yaml.Node.kind, pure, Except.pure]
  have hvalue : (ownPattern.value 0).toExcept = .ok (.record [("packages", .text ".")]) := by cbv
  obtain ⟨_, hparse⟩ := hparse
  rw [Yaml.read, htokens]
  simp [Yaml.document, Yaml.readContent, hparse, Yaml.checkEnd, hvalue, bind, Except.bind,
    Except.map, pure, Except.pure]

theorem discover_ownHost : Workspace.discover ownHost.files .top =
    .ok ({ root := .top, packages := [ownPackage] }, []) := by
  have hroot : Workspace.findRoot ownHost.files .top = .ok .top := by cbv
  have htext : ownHost.files.readText (Path.top.child Workspace.fileName) =
      .ok "packages: .".toList := by cbv
  have hpatterns : Workspace.patternsOf (.record [("packages", .text ".")]) = .ok ["."] := by cbv
  have hin : Workspace.inclusions ["."] = ["."] := by cbv
  have hout : Workspace.exclusions ["."] = [] := by cbv
  have hplaces : Workspace.placesOf ownHost.files .top "." = .ok [.top] := if_pos (.inr rfl)
  have hfolder : Workspace.isPackageFolder ownHost.files .top [] .top = true := by cbv
  have hnested : ownHost.files.limits.isTooNested "packages: .".toList = false := rfl
  have hseen : (Workspace.lookedUp ownHost.files .top [] .top).find? ownHost.files.isRefused =
      none := by cbv
  have hfolders : Workspace.packageFolders ownHost.files .top = .ok [.top] := by
    simp only [Workspace.packageFolders, Workspace.patterns, htext, Yaml.readWithin, hnested,
      Bool.false_eq_true, if_false, Except.mapError, bind, Except.bind, read_ownPattern, hpatterns]
    simp [Workspace.foldersOf, Workspace.foldersAlong, hin, hout, hplaces, hseen, hfolder,
      List.eraseDups_cons, bind, Except.bind, pure, Except.pure]
  simp only [Workspace.discover, hroot, Except.mapError, bind, Except.bind, hfolders,
    Workspace.loadPackages, load_ownPackage, Except.map, pure, Except.pure]

def ownIssue : Issue where
  severity := .critical
  kind := .circularWorkspaceDependency
  message := "Circular workspace dependency: " ++ Cycle.chain [oddName, oddName]
  fix := some Issue.workspaceFix

theorem scan_ownPackage : Workspace.scan {} [ownPackage] = .ok ([ownIssue], []) := by
  have hwitnesses : (NameGraph.ofPackages [ownPackage]).witnesses = [[oddName]] := by cbv
  have hdistinct : Cycle.distinct [[oddName]] = [[oddName]] := rfl
  simp [Workspace.scan, Workspace.cycles, hwitnesses, hdistinct, Cycle.isIgnoredBySets,
    Issue.ofWorkspaceCycle, ownIssue, pure, Except.pure, bind, Except.bind]

def ownOptions : CheckOptions := { folder := .top, inter := true }

theorem run_ownHost : ∃ log,
    Check.run ownHost ownOptions {} none = .ok { report := ⟨[ownIssue]⟩, log := log } := by
  have hintra : ownOptions.runsIntra = false := rfl
  have hinter : ownOptions.runsInter = true := rfl
  have hdiscover : Workspace.discover ownHost.files ownOptions.folder =
    .ok ({ root := .top, packages := [ownPackage] }, []) := discover_ownHost
  simp only [Check.run, hdiscover, Check.ofWorkspace, hintra, hinter, Check.ofDependencies,
    scan_ownPackage, Except.mapError, pure, Except.pure, bind, Except.bind]
  exact ⟨_, rfl⟩

theorem load_ownHost : ∃ log, Settings.load ownHost.files .top none = .ok ({}, log) := by
  have hno : ∀ name ∈ Settings.fileNames,
      ownHost.files.isFile? (Path.top.child name) = .ok false := by
    simp only [Settings.fileNames, List.forall_mem_cons]
    refine ⟨?_, ?_, ?_, ?_, ?_, List.forall_mem_nil _⟩ <;> cbv
  have hfind : Settings.findFile ownHost.files .top = .ok none :=
    findM?_eq_none (List.forall_mem_map.mpr hno)
  simp only [Settings.load, hfind, Except.mapError, bind, Except.bind, pure, Except.pure]
  exact ⟨_, rfl⟩

theorem verdict_and_report_agree_own :
    ∃ settings log c, Request.ofArguments ownHost.files .top ["check", "--json", "--inter"] =
        .ok (.check false ownOptions none true) ∧
      Workspace.findRoot ownHost.files ownOptions.folder = .ok .top ∧
      Settings.load ownHost.files .top none = .ok (settings, log) ∧
      Check.run ownHost ownOptions settings.circular none = .ok c ∧
      ∃ e, run ownHost .top false ["check", "--json", "--inter"] = .ok e ∧ e.exitCode ≠ 0 ∧
        Json.read e.stdout.toList = .ok c.report.toJson ∧ c.report.IsTrue := by
  have hargs : Request.ofArguments ownHost.files .top ["check", "--json", "--inter"] =
      .ok (.check false ownOptions none true) := by cbv
  have hroot : Workspace.findRoot ownHost.files ownOptions.folder = .ok .top := by cbv
  obtain ⟨log, hload⟩ := load_ownHost
  obtain ⟨log', hcheck⟩ := run_ownHost
  obtain ⟨e, he, hexit, hread, htrue⟩ := verdict_and_report_agree hargs hroot hload hcheck false
  refine ⟨_, _, _, hargs, hroot, hload, hcheck, e, he, ?_, hread rfl ?_, htrue⟩
  · simp [hexit]
  · exact Nat.one_lt_pow (by decide) (by decide)

end CommandLine

end WorkspaceCycles
