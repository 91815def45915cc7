import Mathlib
import WorkspaceCycles.Proofs.FollowedLinks
import WorkspaceCycles.Proofs.ReadingLimits

/-!
What can come of the output of a tool that is a program of its own. Whatever it puts out, the cycles
are those entries that have the form of cycles, and the tool has failed only if it left nothing to
read; the exceptions are reports that are no text, numbers that are too long, and lists and objects
that are nested too deep.
-/

namespace WorkspaceCycles

namespace Cycle

inductive Taken : List Json → List Cycle → Prop
  | nil : Taken [] []
  | entry {v : Json} {vs : List Json} {c : Cycle} {cs : List Cycle} (h : c.IsEntry v)
      (hrest : Taken vs cs) : Taken (v :: vs) (c :: cs)
  | other {v : Json} {vs : List Json} {cs : List Cycle} (h : ∀ c : Cycle, ¬ c.IsEntry v)
      (hrest : Taken vs cs) : Taken (v :: vs) cs

theorem taken_filterMap (vs : List Json) : Taken vs (vs.filterMap ofJson?) := by
  induction vs with
  | nil => exact .nil
  | cons v vs ih =>
    cases h : ofJson? v with
    | none =>
      rw [List.filterMap_cons_none h]
      refine .other (fun c hc => ?_) ih
      rw [ofJson?_eq_some_iff.mpr hc] at h
      cases h
    | some c =>
      rw [List.filterMap_cons_some h]
      exact .entry (ofJson?_eq_some_iff.mp h) ih

theorem taken_allOfJson (v : Json) : Taken (v.list?.getD []) (allOfJson v) := by
  cases v with
  | list entries => exact taken_filterMap entries
  | _ => exact .nil

end Cycle

namespace Tool

def text? (tool : Tool) (o : Output) : Option (Except Text.Utf8.DecodeError (List Char)) :=
  match tool with
  | .dpdm => o.report.map fun bytes => (Text.Utf8.decode bytes).map Text.unifyNewlines
  | .madge =>
    let text := Text.Utf8.decodeLoosely o.stdout
    if Text.trim text = [] then none else some (.ok text)
  | .native => none

def payload (tool : Tool) (v : Json) : Json :=
  match tool with
  | .dpdm => (v.get? "circulars").getD .null
  | _ => v

def fileName (tool : Tool) (name : String) : String :=
  match tool with
  | .madge => "src/" ++ name
  | _ => name

/-- The cycles are taken from what the tool says, there are none in what cannot be made out, and a
tool that leaves nothing has failed unless its exit code is zero. -/
inductive Answers (tool : Tool) (levels : Nat) (o : Output) : Outcome → Prop
  | found {text : List Char} {v : Json} {cs : List Cycle} (htext : tool.text? o = some (.ok text))
      (hread : Json.readWithin levels text = .ok v)
      (hcs : Cycle.Taken ((tool.payload v).list?.getD []) cs) :
      Answers tool levels o (.cycles (cs.map fun c => c.map tool.fileName))
  | unreadable {text : List Char} {problem : Json.Problem} {left : Nat}
      (htext : tool.text? o = some (.ok text))
      (hread : Json.readWithin levels text = .error (.syntaxFault problem left)) :
      Answers tool levels o (.cycles [])
  | silent (htext : tool.text? o = none) (hcode : o.exitCode = some 0) :
      Answers tool levels o (.cycles [])
  | failed (htext : tool.text? o = none) (hcode : o.exitCode ≠ some 0) (reason : String) :
      Answers tool levels o (.failed (.tool tool reason))

/-- What a tool may leave that lets its run fail for another reason. -/
inductive Breaks (tool : Tool) (levels : Nat) (o : Output) : RunFault → Prop
  | noText {error : Text.Utf8.DecodeError} (htext : tool.text? o = some (.error error)) :
      Breaks tool levels o (.undecodable error)
  | longNumber {text : List Char} {digits : Nat} (htext : tool.text? o = some (.ok text))
      (hread : Json.readWithin levels text = .error (.tooLong digits)) :
      Breaks tool levels o (.tooLong digits)
  | deepNesting {text : List Char} {kind : String} (htext : tool.text? o = some (.ok text))
      (hread : Json.readWithin levels text = .error (.tooDeep kind)) :
      Breaks tool levels o (.tooDeep kind)

variable {h : Host} {s : CircularSettings} {folder : Path} {tool : Tool} {o : Output} {levels : Nat}

theorem exitCode_eq_zero_iff : exitCode o = 0 ↔ o.exitCode = some 0 := by
  unfold exitCode
  cases o.exitCode <;> simp

theorem answers_withoutOutput (htext : tool.text? o = none) :
    tool.Answers levels o (tool.withoutOutput o) := by
  unfold withoutOutput
  split
  · rename_i hcode
    exact .silent htext (exitCode_eq_zero_iff.mp hcode)
  · rename_i hcode
    exact .failed htext (fun hc => hcode (exitCode_eq_zero_iff.mpr hc)) _

theorem answers_found {text : List Char} {v : Json} (htext : tool.text? o = some (.ok text))
    (hread : Json.readWithin levels text = .ok v) :
    tool.Answers levels o
      (.cycles ((Cycle.allOfJson (tool.payload v)).map fun c => c.map tool.fileName)) :=
  .found htext hread (Cycle.taken_allOfJson _)

def IsSettled (tool : Tool) (levels : Nat) (o : Output) (outcome : Outcome) : Prop :=
  tool.Answers levels o outcome ∨ ∃ fault, tool.Breaks levels o fault ∧ outcome = .failed fault

theorem isSettled_readDpdm (levels : Nat) (folder : Path) (o : Output) :
    Tool.dpdm.IsSettled levels o (readDpdm levels folder o).1 := by
  unfold readDpdm
  split
  · rename_i hr
    exact .inl (answers_withoutOutput (by simp [text?, hr]))
  · rename_i bytes hr
    split
    · rename_i error hd
      exact .inr ⟨_, .noText (by simp [text?, hr, hd, Except.map]), rfl⟩
    · rename_i text hd
      have htext : Tool.dpdm.text? o = some (.ok (Text.unifyNewlines text)) := by
        simp [text?, hr, hd, Except.map]
      split
      · rename_i report hread
        have hname : Tool.dpdm.fileName = id := rfl
        have hfound := answers_found htext hread
        simp only [hname, List.map_id_fun, id_eq, List.map_id'] at hfound
        exact .inl hfound
      · rename_i digits hread
        exact .inr ⟨_, .longNumber htext hread, rfl⟩
      · rename_i kind hread
        exact .inr ⟨_, .deepNesting htext hread, rfl⟩
      · rename_i hread
        exact .inl (.unreadable htext hread)

theorem isSettled_readMadge (levels : Nat) (folder : Path) (o : Output) :
    Tool.madge.IsSettled levels o (readMadge levels folder o).1 := by
  simp only [readMadge]
  split
  · rename_i hblank
    exact .inl (answers_withoutOutput (by simpa [text?] using hblank))
  · rename_i hblank
    have htext : Tool.madge.text? o = some (.ok (Text.Utf8.decodeLoosely o.stdout)) := by
      simpa [text?] using hblank
    split
    · rename_i v hread
      exact .inl (answers_found htext hread)
    · rename_i digits hread
      exact .inr ⟨_, .longNumber htext hread, rfl⟩
    · rename_i kind hread
      exact .inr ⟨_, .deepNesting htext hread, rfl⟩
    · rename_i hread
      exact .inl (.unreadable htext hread)

theorem not_answers_of_breaks {outcome : Outcome} {fault : RunFault}
    (hb : tool.Breaks levels o fault) : ¬ tool.Answers levels o outcome := by
  intro ha
  cases hb <;> cases ha <;> simp_all

theorem IsSettled.answers_iff {outcome : Outcome} (h : tool.IsSettled levels o outcome) :
    tool.Answers levels o outcome ↔ ¬ ∃ fault, tool.Breaks levels o fault := by
  constructor
  · rintro ha ⟨fault, hb⟩
    exact not_answers_of_breaks hb ha
  · intro hb
    rcases h with ha | ⟨fault, hfault, -⟩
    · exact ha
    · exact absurd ⟨fault, hfault⟩ hb

theorem IsSettled.eq_failed {outcome : Outcome} {fault : RunFault}
    (h : tool.IsSettled levels o outcome) (hb : tool.Breaks levels o fault) :
    outcome = .failed fault := by
  rcases h with ha | ⟨fault', hb', rfl⟩
  · exact absurd ha (not_answers_of_breaks hb)
  · cases hb <;> cases hb' <;> simp_all

theorem not_breaks_of_short {text : List Char} (htext : tool.text? o = some (.ok text))
    (hdigits : text.length ≤ Json.maxDigits) (hlevels : text.length ≤ levels) :
    ¬ ∃ fault, tool.Breaks levels o fault := by
  obtain ⟨hlong, hdeep⟩ := Json.readWithin_isBounded levels text
  rintro ⟨fault, hb⟩
  cases hb with
  | noText he =>
    rw [htext] at he
    cases he
  | longNumber ht hread =>
    rw [htext] at ht
    cases ht
    obtain ⟨hmore, hle⟩ := hlong _ hread
    omega
  | deepNesting ht hread =>
    rw [htext] at ht
    cases ht
    have := hdeep _ hread
    omega

section Run

def HasSources (tool : Tool) (h : Host) (folder : Path) : Prop :=
  match tool with
  | .dpdm => Source.files h.files folder ≠ []
  | .madge => h.files.isFolder (folder.child "src")
  | .native => False

theorem HasSources.exists_node (hs : tool.HasSources h folder) :
    ∃ n, h.files.node (folder.child "src") = .ok n := by
  cases tool with
  | dpdm =>
    cases hn : h.files.node (folder.child "src") with
    | ok n => exact ⟨n, rfl⟩
    | error fault =>
      exact absurd (by simp only [Source.files, Source.walked, hn, List.filter_nil]) hs
  | madge =>
    simp only [HasSources, FileTree.isFolder] at hs
    split at hs
    · rename_i hn
      exact ⟨_, hn⟩
    · cases hs
  | native => exact hs.elim

theorem HasSources.resolves (hs : tool.HasSources h folder)
    (hnull : ∀ part ∈ folder.parts, '\x00' ∉ part.toList) : h.files.Resolves folder := by
  obtain ⟨n, hn⟩ := hs.exists_node
  exact FileTree.resolves_of_node ["src"] hnull hn

theorem run_of_refused (s : CircularSettings) (hs : tool.HasSources h folder) {fault : PathFault}
    (hrefused : (tool.visited h folder).findSome? h.refusal? = some fault) :
    (tool.run h s folder).outcome = .failed (.path fault) := by
  cases tool with
  | dpdm => simp only [run, runDpdm, hrefused]
  | madge => simp only [run, runMadge, hrefused]
  | native => exact hs.elim

theorem isSettled_run (s : CircularSettings) (hs : tool.HasSources h folder)
    (hunrefused : ∀ p ∈ tool.visited h folder, h.refusal? p = none) :
    ∃ arguments read, tool.run h s folder = start h tool folder arguments read ∧
      ∀ o, tool.IsSettled h.files.limits.levels o (read o).1 := by
  rw [← List.findSome?_eq_none_iff] at hunrefused
  cases tool with
  | dpdm =>
    have hne : ¬ ((Source.files h.files folder).map Path.relativeText).isEmpty = true := by
      simpa [HasSources] using hs
    refine ⟨fun program => s.dpdm.arguments program.text h.reportFile.text
        ((Source.files h.files folder).map Path.relativeText), _, ?_,
      isSettled_readDpdm _ folder⟩
    simp only [run, runDpdm, hunrefused]
    exact if_neg hne
  | madge =>
    refine ⟨fun program => s.madge.arguments program.text, _, ?_, isSettled_readMadge _ folder⟩
    simp only [run, runMadge, hunrefused]
    exact if_pos hs
  | native => exact hs.elim

section Start

variable {arguments : Path → List String} {read : Output → Outcome × Log} {executable : Path}

theorem start_of_refused {fault : PathFault}
    (he : h.findExecutable tool.name folder = .error fault) :
    (start h tool folder arguments read).outcome = .failed (.path fault) := by
  simp only [start, he]

theorem start_of_missing (he : h.findExecutable tool.name folder = .ok none) :
    (start h tool folder arguments read).outcome =
      .failed (.tool tool "executable not found") := by
  simp only [start, he]

theorem start_of_notStarted {reason : String}
    (he : h.findExecutable tool.name folder = .ok (some executable))
    (hx : h.execute executable folder = .notStarted reason) :
    (start h tool folder arguments read).outcome =
      .failed (.tool tool ("failed to start: " ++ reason)) := by
  simp only [start, he, hx]

theorem start_of_broken {reason : String}
    (he : h.findExecutable tool.name folder = .ok (some executable))
    (hx : h.execute executable folder = .broken reason) :
    (start h tool folder arguments read).outcome = .failed (.other reason) := by
  simp only [start, he, hx]

theorem start_of_hung {code : Option Int}
    (he : h.findExecutable tool.name folder = .ok (some executable))
    (hx : h.execute executable folder = .hung code) :
    (start h tool folder arguments read).outcome = .unfinished := by
  simp only [start, he, hx]

theorem start_of_finished (he : h.findExecutable tool.name folder = .ok (some executable))
    (hx : h.execute executable folder = .finished o) :
    (start h tool folder arguments read).outcome = (read o).1 := by
  simp only [start, he, hx]

end Start

/-- The run fails if its sources or the tool cannot be looked up, and a tool that is not found or
not started has failed. A tool that comes to an end is answered unless its output breaks the run. -/
theorem output_contract (h : Host) (s : CircularSettings) (hsources : tool.HasSources h folder)
    (hnull : ∀ part ∈ folder.parts, '\x00' ∉ part.toList) :
    ((∃ executable, h.findExecutable tool.name folder = .ok executable) ↔
      CanSearch h.isExecutable? (Host.installed tool.name (h.files.canonical folder))) ∧
    (∀ fault, (tool.visited h folder).findSome? h.refusal? = some fault →
      (tool.run h s folder).outcome = .failed (.path fault)) ∧
    ((∀ p ∈ tool.visited h folder, h.refusal? p = none) →
      (∀ fault, h.findExecutable tool.name folder = .error fault →
        (tool.run h s folder).outcome = .failed (.path fault)) ∧
      (h.findExecutable tool.name folder = .ok none →
        (tool.run h s folder).outcome = .failed (.tool tool "executable not found")) ∧
      ∀ program, h.findExecutable tool.name folder = .ok (some program) →
        (∀ reason, h.execute program folder = .notStarted reason →
          (tool.run h s folder).outcome =
            .failed (.tool tool ("failed to start: " ++ reason))) ∧
        (∀ reason, h.execute program folder = .broken reason →
          (tool.run h s folder).outcome = .failed (.other reason)) ∧
        (∀ code, h.execute program folder = .hung code →
          (tool.run h s folder).outcome = .unfinished) ∧
        ∀ o, h.execute program folder = .finished o →
          (tool.Answers h.files.limits.levels o (tool.run h s folder).outcome ↔
            ¬ ∃ fault, tool.Breaks h.files.limits.levels o fault) ∧
          (∀ fault, tool.Breaks h.files.limits.levels o fault →
            (tool.run h s folder).outcome = .failed fault) ∧
          ∀ text, tool.text? o = some (.ok text) → text.length ≤ Json.maxDigits →
            text.length ≤ h.files.limits.levels →
              tool.Answers h.files.limits.levels o (tool.run h s folder).outcome) ∧
    ∀ cs, (tool.run h s folder).outcome = .cycles cs → ∀ c ∈ cs, c ≠ [] := by
  refine ⟨?_, fun fault hrefused => run_of_refused s hsources hrefused, fun hunrefused => ?_, ?_⟩
  · rw [Host.exists_findExecutable_iff]
    exact ⟨fun hc => hc.search, fun hc => ⟨hsources.resolves hnull, hc⟩⟩
  · obtain ⟨arguments, read, hrun, hsettled⟩ := isSettled_run s hsources hunrefused
    refine ⟨fun fault he => by rw [hrun, start_of_refused he],
      fun he => by rw [hrun, start_of_missing he], fun program he => ⟨?_, ?_, ?_, ?_⟩⟩
    · exact fun reason hx => by rw [hrun, start_of_notStarted he hx]
    · exact fun reason hx => by rw [hrun, start_of_broken he hx]
    · exact fun code hx => by rw [hrun, start_of_hung he hx]
    intro o hx
    have ho : tool.IsSettled h.files.limits.levels o (tool.run h s folder).outcome := by
      rw [hrun, start_of_finished he hx]
      exact hsettled o
    refine ⟨ho.answers_iff, fun fault hb => ho.eq_failed hb, fun text ht hdigits hlevels => ?_⟩
    exact ho.answers_iff.mpr (not_breaks_of_short ht hdigits hlevels)
  · intro cs hcs c hc
    have hm : c ∈ (tool.run h s folder).outcome.found := by
      rw [hcs]
      exact hc
    exact ne_nil_of_mem_found tool hm

def garblingHost : Host where
  files := { root := .folder [("src", .folder [("a.ts", .file [] false)]),
    ("node_modules", .folder [(".bin", .folder [("dpdm", .file [] true)])])] }
  searchPath := []
  execute := fun _ _ => .finished { report := some [0xff] }
  reportFile := .top

theorem hasSources_garblingHost : Tool.dpdm.HasSources garblingHost .top := by
  have hfiles : Source.files garblingHost.files .top = [["src", "a.ts"]] := by cbv
  simp [HasSources, hfiles]

theorem unrefused_garblingHost :
    ∀ p ∈ Tool.dpdm.visited garblingHost .top, garblingHost.refusal? p = none := by
  rw [← List.findSome?_eq_none_iff]
  cbv

theorem breaks_garbled (levels : Nat) : Tool.dpdm.Breaks levels { report := some [0xff] }
    (.undecodable ⟨0, 0xff, [], .invalidStart⟩) := by
  have hd : Text.Utf8.decode [0xff] = .error ⟨0, 0xff, [], .invalidStart⟩ := by cbv
  exact .noText (by simp [text?, hd, Except.map])

theorem findExecutable_garblingHost : garblingHost.findExecutable Tool.dpdm.name .top =
    .ok (some ⟨.root, ["node_modules", ".bin", "dpdm"]⟩) := by
  cbv

theorem output_contract_garbled :
    Tool.dpdm.HasSources garblingHost .top ∧
      (∀ part ∈ Path.top.parts, '\x00' ∉ part.toList) ∧
      (Tool.dpdm.run garblingHost {} .top).outcome =
        .failed (.undecodable ⟨0, 0xff, [], .invalidStart⟩) := by
  have hnull : ∀ part ∈ Path.top.parts, '\x00' ∉ part.toList := List.forall_mem_nil _
  obtain ⟨-, -, hunrefused, -⟩ := output_contract garblingHost {} hasSources_garblingHost hnull
  obtain ⟨-, -, hrun⟩ := hunrefused unrefused_garblingHost
  obtain ⟨-, -, -, hfinished⟩ := hrun _ findExecutable_garblingHost
  obtain ⟨-, hbroken, -⟩ := hfinished { report := some [0xff] } rfl
  exact ⟨hasSources_garblingHost, hnull, hbroken _ (breaks_garbled _)⟩

theorem not_answers_of_garbled_report :
    Tool.dpdm.HasSources garblingHost .top ∧
      ¬ Tool.dpdm.Answers garblingHost.files.limits.levels { report := some [0xff] }
        (Tool.dpdm.run garblingHost {} .top).outcome ∧
      ∀ reason, (Tool.dpdm.run garblingHost {} .top).outcome ≠ .failed (.tool .dpdm reason) := by
  have hs := hasSources_garblingHost
  obtain ⟨arguments, read, hrun, hsettled⟩ := isSettled_run {} hs unrefused_garblingHost
  have ho : Tool.dpdm.IsSettled garblingHost.files.limits.levels { report := some [0xff] }
      (Tool.dpdm.run garblingHost {} .top).outcome := by
    rw [hrun, start_of_finished findExecutable_garblingHost rfl]
    exact hsettled _
  refine ⟨hs, not_answers_of_breaks (breaks_garbled _), fun reason => ?_⟩
  rw [ho.eq_failed (breaks_garbled _)]
  simp

end Run

end Tool

end WorkspaceCycles
