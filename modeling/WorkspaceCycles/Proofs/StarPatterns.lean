import Mathlib
import WorkspaceCycles.Proofs.GlobMatches
import WorkspaceCycles.Selection

namespace WorkspaceCycles

structure StarPattern where
  lead : String
  rest : List String
  plain : ∀ s ∈ lead :: rest, ∀ c ∈ s.toList, c ≠ '*' ∧ c ≠ '?' ∧ c ≠ '['

namespace StarPattern

def text (p : StarPattern) : String :=
  "*".intercalate (p.lead :: p.rest)

def Splits (p : StarPattern) (x : String) : Prop :=
  ∃ gaps : List String, gaps.length = p.rest.length ∧
    x = p.lead ++ String.join (List.zipWith (· ++ ·) gaps p.rest)

end StarPattern

namespace Glob

theorem matches_stars_iff {lead : List Char} {rest : List (List Char)}
    (h : ∀ s ∈ lead :: rest, ∀ c ∈ s, c ≠ '*' ∧ c ≠ '?' ∧ c ≠ '[') {x : List Char} :
    Matches (parse (lead ++ rest.flatMap ('*' :: ·))) x ↔
      ∃ gaps : List (List Char), gaps.length = rest.length ∧
        x = lead ++ (List.zipWith (· ++ ·) gaps rest).flatten := by
  induction rest generalizing lead x with
  | nil =>
    rw [List.flatMap_nil, parse_append_of_plain (List.forall_mem_singleton.mp h), parse,
      matches_literals_iff]
    constructor
    · rintro ⟨_, rfl, ⟨⟩⟩
      exact ⟨[], rfl, rfl⟩
    · rintro ⟨gaps, -, rfl⟩
      exact ⟨[], by simp, .nil⟩
  | cons s rest ih =>
    obtain ⟨hlead, hrest⟩ := List.forall_mem_cons.mp h
    have hparse : parse (lead ++ (s :: rest).flatMap ('*' :: ·)) =
        lead.map .literal ++ .anyRun :: parse (s ++ rest.flatMap ('*' :: ·)) := by
      rw [List.flatMap_cons, List.cons_append, parse_append_of_plain hlead, parse]
    rw [hparse, matches_literals_iff]
    simp only [matches_run_iff, ih hrest]
    constructor
    · rintro ⟨_, rfl, gap, _, rfl, gaps, hlength, rfl⟩
      exact ⟨gap :: gaps, by simp [hlength], by simp⟩
    · rintro ⟨_ | ⟨gap, gaps⟩, hlength, rfl⟩
      · cases hlength
      · exact ⟨_, rfl, gap, _, by simp, gaps, by simpa using hlength, rfl⟩

end Glob

namespace StarPattern

theorem toList_intercalate_star (lead : String) (rest : List String) :
    ("*".intercalate (lead :: rest)).toList =
      lead.toList ++ (rest.map String.toList).flatMap ('*' :: ·) := by
  induction rest generalizing lead with
  | nil => simp
  | cons s rest ih =>
    rw [String.intercalate_cons_cons, String.toList_append, ih s, String.toList_append,
      List.map_cons, List.flatMap_cons, List.append_assoc]
    rfl

theorem splits_iff {p : StarPattern} {x : String} : p.Splits x ↔
    ∃ gaps : List (List Char), gaps.length = (p.rest.map String.toList).length ∧
      x.toList =
        p.lead.toList ++ (List.zipWith (· ++ ·) gaps (p.rest.map String.toList)).flatten := by
  have hjoin : ∀ gaps : List String,
      (p.lead ++ String.join (List.zipWith (· ++ ·) gaps p.rest)).toList = p.lead.toList ++
        (List.zipWith (· ++ ·) (gaps.map String.toList) (p.rest.map String.toList)).flatten := by
    intro gaps
    rw [String.toList_append, String.toList_join, List.flatMap_def, List.map_zipWith,
      List.zipWith_map]
    simp only [String.toList_append]
  unfold Splits
  rw [List.length_map]
  constructor
  · rintro ⟨gaps, hlength, rfl⟩
    exact ⟨gaps.map String.toList, by rwa [List.length_map], hjoin gaps⟩
  · rintro ⟨gaps, hlength, hx⟩
    refine ⟨gaps.map String.ofList, by rwa [List.length_map], ?_⟩
    rw [← String.toList_inj, hjoin, List.map_map, hx]
    simp

theorem isMatch_text {p : StarPattern} {x : String} :
    Glob.isMatch p.text x = true ↔ p.Splits x := by
  have hplain : ∀ s ∈ p.lead.toList :: p.rest.map String.toList,
      ∀ c ∈ s, c ≠ '*' ∧ c ≠ '?' ∧ c ≠ '[' := by
    rw [← List.map_cons]
    exact List.forall_mem_map.mpr p.plain
  rw [Glob.isMatch_iff, text, toList_intercalate_star, Glob.matches_stars_iff hplain, splits_iff]

example : Glob.isMatch "ab*ba" "aba" = false ∧ Glob.isMatch "ab*ba" "ab\nba" = true := by cbv

theorem matchesAny_texts {patterns : List StarPattern} {x : String} :
    Glob.matchesAny (patterns.map text) x = true ↔ ∃ p ∈ patterns, p.Splits x := by
  simp [Glob.matchesAny, isMatch_text]

theorem isIgnored_iff {rules : List IgnoreRule}
    (h : ∀ r ∈ rules, ∃ p : StarPattern, r.pattern = p.text) {package : Option String}
    {c : Cycle} : c.isIgnored package rules = true ↔
      ∃ r ∈ rules, r.inScope package = true ∧
        ∃ p : StarPattern, r.pattern = p.text ∧ ∃ file ∈ c, p.Splits file := by
  simp only [Cycle.isIgnored, IgnoreRule.covers, List.any_eq_true, Bool.and_eq_true]
  refine exists_congr fun r => and_congr_right fun hr => and_congr_right fun _ => ?_
  obtain ⟨p, hp⟩ := h r hr
  constructor
  · rintro ⟨file, hfile, hmatch⟩
    rw [hp, isMatch_text] at hmatch
    exact ⟨p, hp, file, hfile, hmatch⟩
  · rintro ⟨q, hq, file, hfile, hsplits⟩
    refine ⟨file, hfile, ?_⟩
    rwa [hq, isMatch_text]

theorem inScope_iff {pattern : String} {reason : Option String} {p : StarPattern}
    {name : String} : IgnoreRule.inScope ⟨pattern, some p.text, reason⟩ (some name) = true ↔
      p.text = "" ∨ name = "" ∨ p.Splits name := by
  simp only [IgnoreRule.inScope, Bool.or_eq_true, String.isEmpty_iff, isMatch_text, or_assoc]

theorem selects_iff {s : CircularSettings} {given included excluded : List StarPattern}
    {name : String} (hin : s.includePackages = included.map text)
    (hex : s.excludePackages = excluded.map text) :
    s.selects (given.map text) name = true ↔
      (given ≠ [] ∧ ∃ p ∈ given, p.Splits name) ∨
        (given = [] ∧ (included = [] ∨ ∃ p ∈ included, p.Splits name) ∧
          ∀ p ∈ excluded, ¬ p.Splits name) := by
  unfold CircularSettings.selects
  rw [hin, hex]
  by_cases hgiven : given = []
  · subst hgiven
    rw [List.map_nil, List.isEmpty_nil, if_neg (by simp), Bool.and_eq_true, Bool.or_eq_true,
      List.isEmpty_iff, List.map_eq_nil_iff, matchesAny_texts, Bool.not_eq_true',
      ← Bool.not_eq_true, matchesAny_texts]
    simp
  · rw [if_pos (by simpa using hgiven), matchesAny_texts]
    simp [hgiven]

end StarPattern

/-- A pattern of literal texts with stars between them matches exactly the texts that consist of
the literal texts in their order and of any gaps between them. So rules with such patterns pass
over the cycles with a file of that kind, in the packages that they hold for, and lists of such
patterns take or leave out the packages with a name of that kind. -/
theorem star_patterns_contract :
    (∀ (p : StarPattern) (x : String), Glob.isMatch p.text x = true ↔ p.Splits x) ∧
    (∀ (rules : List IgnoreRule) (package : Option String) (c : Cycle),
      (∀ r ∈ rules, ∃ p : StarPattern, r.pattern = p.text) →
        (c.isIgnored package rules = true ↔ ∃ r ∈ rules, r.inScope package = true ∧
          ∃ p : StarPattern, r.pattern = p.text ∧ ∃ file ∈ c, p.Splits file)) ∧
    (∀ (pattern : String) (reason : Option String) (p : StarPattern) (name : String),
      IgnoreRule.inScope ⟨pattern, some p.text, reason⟩ (some name) = true ↔
        p.text = "" ∨ name = "" ∨ p.Splits name) ∧
    ∀ (s : CircularSettings) (given included excluded : List StarPattern),
      s.includePackages = included.map StarPattern.text →
      s.excludePackages = excluded.map StarPattern.text →
        ∀ (packages : List Package) (x : Package),
          x ∈ packages.filter (s.selects (given.map StarPattern.text) ·.name) ↔ x ∈ packages ∧
            ((given ≠ [] ∧ ∃ p ∈ given, p.Splits x.name) ∨
              (given = [] ∧ (included = [] ∨ ∃ p ∈ included, p.Splits x.name) ∧
                ∀ p ∈ excluded, ¬ p.Splits x.name)) := by
  refine ⟨fun p x => StarPattern.isMatch_text, fun rules package c h => StarPattern.isIgnored_iff h,
    fun pattern reason p name => StarPattern.inScope_iff,
    fun s given included excluded hin hex packages x => ?_⟩
  rw [List.mem_filter, StarPattern.selects_iff hin hex]

def sourcesInFolders : StarPattern where
  lead := "src/"
  rest := ["/", ".ts"]
  plain := by simp

theorem star_patterns_contract_sources :
    sourcesInFolders.text = "src/*/*.ts" ∧
      Cycle.isIgnored ["a.ts", "src/b/c.ts"] none [{ pattern := "src/*/*.ts" }] = true := by
  have htext : sourcesInFolders.text = "src/*/*.ts" := by decide +kernel
  have hsplits : sourcesInFolders.Splits "src/b/c.ts" := ⟨["b", "c"], rfl, by decide +kernel⟩
  have hrules : ∀ r ∈ [({ pattern := "src/*/*.ts" } : IgnoreRule)],
      ∃ p : StarPattern, r.pattern = p.text :=
    List.forall_mem_singleton.mpr ⟨sourcesInFolders, htext.symm⟩
  refine ⟨htext, (star_patterns_contract.2.1 _ none _ hrules).mpr ⟨_, List.mem_cons_self, rfl,
    sourcesInFolders, htext.symm, "src/b/c.ts", by simp, hsplits⟩⟩

end WorkspaceCycles
