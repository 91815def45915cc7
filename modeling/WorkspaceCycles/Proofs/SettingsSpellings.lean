import WorkspaceCycles.Proofs.KeySpellings
import WorkspaceCycles.Settings.Rendering

namespace WorkspaceCycles

open Validation Validated Settings

def IgnoreRule.known : List (FieldName × Schema) :=
  [(Name.pattern, .leaf), (Name.package, .leaf), (Name.reason, .leaf)]

def DpdmOptions.known : List (FieldName × Schema) :=
  [(Name.skipDynamicImports, .leaf), (Name.skipTypeOnly, .leaf), (Name.tsconfig, .leaf)]

def MadgeOptions.known : List (FieldName × Schema) :=
  [(Name.tsconfig, .leaf), (Name.fileExtensions, .leaf)]

def NativeOptions.known : List (FieldName × Schema) :=
  [(Name.skipDynamicImports, .leaf), (Name.skipTypeOnly, .leaf), (Name.maxCycleLength, .leaf)]

def CircularSettings.known : List (FieldName × Schema) :=
  [(Name.enabled, .leaf), (Name.intraPackage, .leaf), (Name.interPackage, .leaf),
    (Name.intraPackageSeverity, .leaf), (Name.interPackageSeverity, .leaf), (Name.tools, .leaf),
    (Name.ignoreCycles, .list (.record IgnoreRule.known)), (Name.ignorePackageCycles, .leaf),
    (Name.includePackages, .leaf), (Name.excludePackages, .leaf),
    (Name.dpdm, .record DpdmOptions.known), (Name.madge, .record MadgeOptions.known),
    (Name.native, .record NativeOptions.known), (Name.analyzerTimeout, .leaf)]

namespace Settings

def known : List (FieldName × Schema) :=
  [(Name.version, .leaf), (Name.circular, .record CircularSettings.known)]

def schema : Schema :=
  .record known

def sections : List (List (FieldName × Schema)) :=
  [IgnoreRule.known, DpdmOptions.known, MadgeOptions.known, NativeOptions.known,
    CircularSettings.known, known]

def camelKey (k : String) : String :=
  (((sections.flatten.map (·.1)).find? (·.snake = k)).map (·.camel)).getD k

theorem isClear {known : List (FieldName × Schema)} (h : known ∈ sections) :
    IsClear camelKey known := by
  have hapart : ∀ known ∈ sections, known.Pairwise fun p q => p.1.IsApart q.1 := by
    decide +kernel
  have hspell : ∀ known ∈ sections, ∀ p ∈ known, camelKey p.1.camel = camelKey p.1.snake := by
    decide +kernel
  exact ⟨hapart known h, hspell known h⟩

end Settings

section Spelling

theorem IgnoreRule.respects_rule : Respects camelKey (.record known) rule := by
  have hclear : IsClear camelKey known := isClear (by simp [sections])
  apply Respects.record
  refine .seq ?_ (.leaf hclear (by simp [known]) _)
  refine .seq ?_ (.leaf hclear (by simp [known]) _)
  exact .map _ (.required hclear (by simp [known]) (.leaf _))

theorem DpdmOptions.respects_rule : Respects camelKey (.record known) rule := by
  have hclear : IsClear camelKey known := isClear (by simp [sections])
  apply Respects.record
  refine .seq ?_ (.leaf hclear (by simp [known]) _)
  refine .seq ?_ (.leaf hclear (by simp [known]) _)
  exact .map _ (.leaf hclear (by simp [known]) _)

theorem MadgeOptions.respects_rule : Respects camelKey (.record known) rule := by
  have hclear : IsClear camelKey known := isClear (by simp [sections])
  apply Respects.record
  refine .seq ?_ (.leaf hclear (by simp [known]) _)
  exact .map _ (.leaf hclear (by simp [known]) _)

theorem NativeOptions.respects_rule : Respects camelKey (.record known) rule := by
  have hclear : IsClear camelKey known := isClear (by simp [sections])
  apply Respects.record
  refine .seq ?_ (.leaf hclear (by simp [known]) _)
  refine .seq ?_ (.leaf hclear (by simp [known]) _)
  exact .map _ (.leaf hclear (by simp [known]) _)

theorem CircularSettings.respects_rule : Respects camelKey (.record known) rule := by
  have hclear : IsClear camelKey known := isClear (by simp [sections])
  apply Respects.record
  refine .seq ?_ (.leaf hclear (by simp [known]) _)
  refine .seq ?_ (.withDefault hclear (by simp [known]) NativeOptions.respects_rule _)
  refine .seq ?_ (.withDefault hclear (by simp [known]) MadgeOptions.respects_rule _)
  refine .seq ?_ (.withDefault hclear (by simp [known]) DpdmOptions.respects_rule _)
  refine .seq ?_ (.leaf hclear (by simp [known]) _)
  refine .seq ?_ (.leaf hclear (by simp [known]) _)
  refine .seq ?_ (.leaf hclear (by simp [known]) _)
  refine .seq ?_ (.withDefault hclear (by simp [known]) (.list IgnoreRule.respects_rule) _)
  refine .seq ?_ (.leaf hclear (by simp [known]) _)
  refine .seq ?_ (.leaf hclear (by simp [known]) _)
  refine .seq ?_ (.leaf hclear (by simp [known]) _)
  refine .seq ?_ (.leaf hclear (by simp [known]) _)
  refine .seq ?_ (.leaf hclear (by simp [known]) _)
  exact .map _ (.leaf hclear (by simp [known]) _)

theorem Settings.respects_rule : Respects camelKey schema rule := by
  have hclear : IsClear camelKey known := isClear (by simp [sections])
  apply Respects.record
  refine .seq ?_ (.withDefault hclear (by simp [known]) CircularSettings.respects_rule _)
  exact .map _ (.leaf hclear (by simp [known]) _)

end Spelling

section Writing

variable {α β : Type}

theorem Validated.map_valid (f : α → β) {v : Validated α} {a : α} (h : v = .valid a) :
    f <$> v = .valid (f a) :=
  map_eq_valid.mpr ⟨a, h, rfl⟩

theorem Validated.seq_valid {f : Validated (α → β)} {g : α → β} {v : Validated α} {a : α}
    (hf : f = .valid g) (h : v = .valid a) : f <*> v = .valid (g a) :=
  seq_eq_valid.mpr ⟨g, a, hf, h, rfl⟩

def Json.fields : Json → List (String × Json)
  | .object fields => fields
  | _ => []

theorem Value.get?_ofFields {fields : List (String × Json)} {k : String} {v : Json}
    (hd : (Assoc.keys fields).Nodup) (h : (k, v) ∈ fields) :
    Assoc.get? (Value.ofFields fields) k = some (.ofJson v) := by
  induction fields with
  | nil => cases h
  | cons f fields ih =>
    obtain ⟨k', v'⟩ := f
    obtain ⟨hnot, hd⟩ := List.nodup_cons.mp hd
    rw [ofFields, Assoc.get?_cons]
    rcases List.mem_cons.mp h with he | h
    · cases he
      rw [if_pos rfl]
    · have hmem : k ∈ Assoc.keys fields := List.mem_map_of_mem h
      rw [if_neg (ne_of_mem_of_not_mem hmem hnot), ih hd h]

structure IsWritten (known : List (FieldName × Schema)) (j : Json) : Prop where
  isSection : known ∈ sections
  object : j = .object j.fields
  keys : Assoc.keys j.fields = known.map (·.1.camel)

namespace IsWritten

variable {known : List (FieldName × Schema)} {j : Json}

theorem record_ofJson (hw : IsWritten known j) (kind : String) (read : Fields → Validated α) :
    record kind read (.ofJson j) = read (Value.ofFields j.fields) := by
  rw [hw.object]
  rfl

variable {n : FieldName} {v : Json} {rule : Rule α} {a : α}

theorem find?_ofFields (hw : IsWritten known j) (hm : writeField n v ∈ j.fields) :
    n.find? (Value.ofFields j.fields) = some (n.camel, .ofJson v) := by
  have hget : Assoc.get? (Value.ofFields j.fields) n.camel = some (.ofJson v) :=
    Value.get?_ofFields (hw.keys ▸ (isClear hw.isSection).nodup_camel) hm
  simp only [FieldName.find?, hget]

theorem reads (hw : IsWritten known j) (hm : writeField n v ∈ j.fields)
    (h : rule (.ofJson v) = .valid a) (absent : α) :
    withDefault n rule absent (Value.ofFields j.fields) = .valid a := by
  simp only [withDefault, hw.find?_ofFields hm]
  exact inside_eq_valid.mpr h

theorem requires (hw : IsWritten known j) (hm : writeField n v ∈ j.fields)
    (h : rule (.ofJson v) = .valid a) : required n rule (Value.ofFields j.fields) = .valid a := by
  simp only [required, hw.find?_ofFields hm]
  exact inside_eq_valid.mpr h

end IsWritten

theorem text_ofJson (s : String) : text (.ofJson (.text s)) = .valid s := by
  simp [Value.ofJson, text, written]

theorem optional_ofJson (s : Option String) :
    optional text (.ofJson (writeOptional s)) = .valid s := by
  cases s with
  | none => rfl
  | some s => exact map_valid some (text_ofJson s)

theorem list_ofJson {rule : Rule α} {write : α → Json} {xs : List α}
    (h : ∀ x ∈ xs, rule (.ofJson (write x)) = .valid x) :
    list rule (.ofJson (.list (xs.map write))) = .valid xs := by
  have hitems (xs : List α) (h : ∀ x ∈ xs, rule (.ofJson (write x)) = .valid x) (index : Nat) :
      items rule index (Value.ofItems (xs.map write)) = .valid xs := by
    induction xs generalizing index with
    | nil => rfl
    | cons x xs ih =>
      obtain ⟨hx, hxs⟩ := List.forall_mem_cons.mp h
      exact seq_valid (map_valid _ (inside_eq_valid.mpr hx)) (ih hxs (index + 1))
  exact hitems xs h 0

theorem texts_ofJson (ss : List String) : list text (.ofJson (writeTexts ss)) = .valid ss :=
  list_ofJson fun s _ => text_ofJson s

theorem flag_ofJson (b : Bool) : flag (.ofJson (.bool b)) = .valid b := rfl

theorem Severity.rule_text (s : Severity) : rule (.ofJson (.text s.text)) = .valid s := by
  cases s <;> rfl

theorem Tool.rule_names (tools : List Tool) :
    list rule (.ofJson (writeTexts (tools.map Tool.name))) = .valid tools := by
  rw [writeTexts, List.map_map]
  apply list_ofJson
  intro tool _
  cases tool <;> rfl

theorem IgnoreRule.rule_toJson (r : IgnoreRule) : rule (.ofJson r.toJson) = .valid r := by
  have hw : IsWritten known r.toJson := ⟨by simp [sections], rfl, rfl⟩
  simp only [rule, hw.record_ofJson]
  obtain ⟨pattern, package, reason⟩ := r
  refine seq_valid ?_ (hw.reads (by simp [toJson, Json.fields]) (optional_ofJson reason) _)
  refine seq_valid ?_ (hw.reads (by simp [toJson, Json.fields]) (optional_ofJson package) _)
  exact map_valid _ (hw.requires (by simp [toJson, Json.fields]) (text_ofJson pattern))

theorem DpdmOptions.rule_toJson (o : DpdmOptions) : rule (.ofJson o.toJson) = .valid o := by
  have hw : IsWritten known o.toJson := ⟨by simp [sections], rfl, rfl⟩
  simp only [rule, hw.record_ofJson]
  obtain ⟨dynamicImports, typeOnly, tsconfig⟩ := o
  refine seq_valid ?_ (hw.reads (by simp [toJson, Json.fields]) (optional_ofJson tsconfig) _)
  refine seq_valid ?_ (hw.reads (by simp [toJson, Json.fields]) (flag_ofJson typeOnly) _)
  exact map_valid _ (hw.reads (by simp [toJson, Json.fields]) (flag_ofJson dynamicImports) _)

theorem MadgeOptions.rule_toJson (o : MadgeOptions) : rule (.ofJson o.toJson) = .valid o := by
  have hw : IsWritten known o.toJson := ⟨by simp [sections], rfl, rfl⟩
  simp only [rule, hw.record_ofJson]
  obtain ⟨tsconfig, extensions⟩ := o
  refine seq_valid ?_ (hw.reads (by simp [toJson, Json.fields]) (texts_ofJson extensions) _)
  exact map_valid _ (hw.reads (by simp [toJson, Json.fields]) (optional_ofJson tsconfig) _)

theorem NativeOptions.rule_toJson (o : NativeOptions) (h : 1 ≤ o.maxCycleLength) :
    rule (.ofJson o.toJson) = .valid o := by
  have hw : IsWritten known o.toJson := ⟨by simp [sections], rfl, rfl⟩
  have hlength : lengthRule (.ofJson (.int o.maxCycleLength)) = .valid o.maxCycleLength :=
    check_eq_valid.mpr ⟨rfl, decide_eq_true h⟩
  simp only [rule, hw.record_ofJson]
  obtain ⟨dynamicImports, typeOnly, length⟩ := o
  refine seq_valid ?_ (hw.reads (by simp [toJson, Json.fields]) hlength _)
  refine seq_valid ?_ (hw.reads (by simp [toJson, Json.fields]) (flag_ofJson typeOnly) _)
  exact map_valid _ (hw.reads (by simp [toJson, Json.fields]) (flag_ofJson dynamicImports) _)

theorem CircularSettings.rule_toJson (s : CircularSettings) (h : s.IsValid) :
    rule (.ofJson s.toJson) = .valid s := by
  have hw : IsWritten known s.toJson := ⟨by simp [sections], rfl, rfl⟩
  have htimeout : timeoutRule (.ofJson (.float s.analyzerTimeout)) = .valid s.analyzerTimeout :=
    check_eq_valid.mpr ⟨rfl, decide_eq_true h.timeout⟩
  have hsets : list (atLeast 2 (list text))
      (.ofJson (.list (s.ignorePackageCycles.map writeTexts))) = .valid s.ignorePackageCycles :=
    list_ofJson fun names hm => check_eq_valid.mpr
      ⟨texts_ofJson names, decide_eq_true (h.packageSets names hm)⟩
  have hrules : list IgnoreRule.rule (.ofJson (.list (s.ignoreCycles.map IgnoreRule.toJson))) =
      .valid s.ignoreCycles :=
    list_ofJson fun r _ => r.rule_toJson
  have hdpdm := s.dpdm.rule_toJson
  have hmadge := s.madge.rule_toJson
  have hnative := s.native.rule_toJson h.cycleLength
  simp only [rule, hw.record_ofJson]
  obtain ⟨enabled, intra, inter, intraSeverity, interSeverity, tools, rules, sets, included,
    excluded, dpdm, madge, native, timeout⟩ := s
  refine seq_valid ?_ (hw.reads (by simp [toJson, Json.fields]) htimeout _)
  refine seq_valid ?_ (hw.reads (by simp [toJson, Json.fields]) hnative _)
  refine seq_valid ?_ (hw.reads (by simp [toJson, Json.fields]) hmadge _)
  refine seq_valid ?_ (hw.reads (by simp [toJson, Json.fields]) hdpdm _)
  refine seq_valid ?_ (hw.reads (by simp [toJson, Json.fields]) (texts_ofJson excluded) _)
  refine seq_valid ?_ (hw.reads (by simp [toJson, Json.fields]) (texts_ofJson included) _)
  refine seq_valid ?_ (hw.reads (by simp [toJson, Json.fields]) hsets _)
  refine seq_valid ?_ (hw.reads (by simp [toJson, Json.fields]) hrules _)
  refine seq_valid ?_ (hw.reads (by simp [toJson, Json.fields]) (Tool.rule_names tools) _)
  refine seq_valid ?_ (hw.reads (by simp [toJson, Json.fields]) interSeverity.rule_text _)
  refine seq_valid ?_ (hw.reads (by simp [toJson, Json.fields]) intraSeverity.rule_text _)
  refine seq_valid ?_ (hw.reads (by simp [toJson, Json.fields]) (flag_ofJson inter) _)
  refine seq_valid ?_ (hw.reads (by simp [toJson, Json.fields]) (flag_ofJson intra) _)
  exact map_valid _ (hw.reads (by simp [toJson, Json.fields]) (flag_ofJson enabled) _)

theorem Settings.rule_toJson (s : Settings) (h : s.circular.IsValid) :
    rule (.ofJson s.toJson) = .valid s := by
  have hw : IsWritten known s.toJson := ⟨by simp [sections], rfl, rfl⟩
  have hcircular := s.circular.rule_toJson h
  simp only [rule, hw.record_ofJson]
  obtain ⟨version, circular⟩ := s
  refine seq_valid ?_ (hw.reads (by simp [toJson, Json.fields]) hcircular _)
  exact map_valid _ (hw.reads (by simp [toJson, Json.fields]) (text_ofJson version) _)

end Writing

namespace Settings

/-- Documents of settings that differ in the spellings of known keys, at any depth, are accepted
alike and give the same settings; what is wrong with them is the same, in the same places. Accepted
settings are accepted again as they are written, and stay the same. -/
theorem key_spelling_irrelevant :
    (∀ v w, Respelled schema v w →
      (∀ s, rule v = .valid s ↔ rule w = .valid s) ∧
        (rule v).respell camelKey = (rule w).respell camelKey) ∧
    ∀ v s, rule v = .valid s → rule (.ofJson s.toJson) = .valid s := by
  refine ⟨fun v w h => ?_, fun v s h => rule_toJson s (isValid_of_rule h)⟩
  have hrespell := respects_rule v w h
  refine ⟨fun s => ?_, hrespell⟩
  rw [← respell_eq_valid camelKey, hrespell, respell_eq_valid]

def spelledDocument (intra typeOnly : String) : Value :=
  .record [("version", .text "2"), ("circular", .record [(intra, .text "No"),
    ("ignoreCycles", .list [.record [("pattern", .text "src/*")]]),
    ("dpdm", .record [(typeOnly, .int 0), ("other", .null)])])]

def spelledSettings : Settings where
  version := "2"
  circular := {
    intraPackage := false
    ignoreCycles := [{ pattern := "src/*" }]
    dpdm := { skipTypeOnly := false } }

theorem rule_spelledDocument :
    rule (spelledDocument "intra_package" "skipTypeOnly") = .valid spelledSettings := by
  rfl

theorem respelled_spelledDocument : Respelled schema
    (spelledDocument "intra_package" "skipTypeOnly")
    (spelledDocument "intraPackage" "skip_type_only") := by
  have htypeOnly : (Name.skipTypeOnly, .leaf) ∈ DpdmOptions.known := by simp [DpdmOptions.known]
  have hintra : (Name.intraPackage, .leaf) ∈ CircularSettings.known := by
    simp [CircularSettings.known]
  have hdpdm : (Name.dpdm, .record DpdmOptions.known) ∈ CircularSettings.known := by
    simp [CircularSettings.known]
  have hcircular : (Name.circular, .record CircularSettings.known) ∈ known := by simp [known]
  refine .record (by decide +kernel) (.other _ (.known hcircular (.inl rfl) (.inl rfl) ?_ (.nil _)))
  refine .record (by decide +kernel) (.known hintra (.inr rfl) (.inl rfl) (.same _ _) ?_)
  refine .other _ (.known hdpdm (.inl rfl) (.inl rfl) ?_ (.nil _))
  refine .record (by decide +kernel) (.known htypeOnly (.inl rfl) (.inr rfl) (.same _ _) ?_)
  exact .other _ (.nil _)

theorem key_spelling_irrelevant_mixed :
    Respelled schema (spelledDocument "intra_package" "skipTypeOnly")
      (spelledDocument "intraPackage" "skip_type_only") ∧
    rule (spelledDocument "intraPackage" "skip_type_only") = .valid spelledSettings ∧
    rule (.ofJson spelledSettings.toJson) = .valid spelledSettings := by
  obtain ⟨hspell, hwritten⟩ := key_spelling_irrelevant
  exact ⟨respelled_spelledDocument,
    ((hspell _ _ respelled_spelledDocument).1 spelledSettings).mp rule_spelledDocument,
    hwritten _ spelledSettings rule_spelledDocument⟩

end Settings

end WorkspaceCycles
