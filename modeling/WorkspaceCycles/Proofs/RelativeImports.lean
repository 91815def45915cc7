import Mathlib
import WorkspaceCycles.Proofs.FollowedLinks
import WorkspaceCycles.Proofs.PathText
import WorkspaceCycles.Source.Resolve

namespace WorkspaceCycles

namespace Path

@[simp] theorem parent_child (p : Path) (name : String) : (p.child name).parent = p := by
  simp [parent, child]

@[simp] theorem name_child (p : Path) (name : String) : (p.child name).name = name := by
  simp [Path.name, child]

@[simp] theorem withName_child (p : Path) (name name' : String) :
    (p.child name).withName name' = p.child name' := by
  rw [withName, parent_child]

theorem IsNormal.of_child {p : Path} {name : String} (h : (p.child name).IsNormal) : p.IsNormal :=
  ⟨h.anchor_eq, fun part hp => h.isName part (List.mem_append_left _ hp)⟩

theorem IsNormal.of_child_append {p : Path} {n e : String} (h : (p.child (n ++ e)).IsNormal)
    (hn : n ∉ ["", ".", ".."]) : (p.child n).IsNormal := by
  refine ⟨h.anchor_eq, fun part hp => ?_⟩
  rcases List.mem_append.mp hp with hp | hp
  · exact h.of_child.isName part hp
  · rw [List.mem_singleton.mp hp]
    have hname := h.isName (n ++ e) (by simp [child])
    have hsub : ∀ c ∈ n.toList, c ∈ (n ++ e).toList := by
      intro c hc
      rw [String.toList_append]
      exact List.mem_append_left _ hc
    simp only [List.mem_cons, List.not_mem_nil, or_false, not_or] at hn
    exact ⟨hn.1, hn.2.1, hn.2.2, fun hc => hname.slashless (hsub _ hc),
      fun hc => hname.without_null (hsub _ hc)⟩

end Path

namespace Source

def ComesAfter (earlier : List String) (e : String) : Prop :=
  ∃ later, suffixes = earlier ++ e :: later

theorem ComesAfter.map_eq {earlier : List String} {e : String} (h : ComesAfter earlier e)
    (f : String → Path) : ∃ after, suffixes.map f = earlier.map f ++ f e :: after := by
  obtain ⟨later, h⟩ := h
  exact ⟨later.map f, by rw [h, List.map_append, List.map_cons]⟩

theorem candidates_eq {base : Path} (hne : base.parts ≠ []) (hs : base.suffix ∉ scriptSuffixes) :
    candidates base = .ok (base :: suffixes.map (fun s => base.withName (base.name ++ s)) ++
      suffixes.map fun s => base.child ("index" ++ s)) := by
  simp only [candidates, if_neg hne, if_neg hs, List.cons_append, List.nil_append]

theorem exists_candidates {base : Path} (hne : base.parts ≠ []) :
    ∃ others, candidates base = .ok (base :: others) := by
  simp only [candidates, if_neg hne]
  exact ⟨_, rfl⟩

theorem find?_known {known after : List Path} {p : Path} (before : List Path) (hp : p ∈ known)
    (hbefore : ∀ q ∈ before, q ∉ known) :
    (before ++ p :: after).find? (· ∈ known) = some p := by
  rw [List.find?_eq_some_iff_append]
  refine ⟨by simpa using hp, before, after, rfl, fun q hq => ?_⟩
  simpa using hbefore q hq

section Resolve

variable {t : FileTree} {known : List Path} {importer folder : Path} {s : String}

theorem canonical?_join {place : List String} (hlinks : t.links = [])
    (hfolder : t.canonical? importer.parent = .ok folder)
    (hs : Path.IsSpelling folder.parts place s) (hplace : ∀ name ∈ place, Path.IsName name) :
    t.canonical? (importer.parent.join (.ofString s)) = .ok ⟨.root, place⟩ := by
  obtain ⟨steps, hsteps, hwalk, hnull⟩ := hs.ofString_eq hplace
  have hparent := (FileTree.exists_canonical?_iff.mp ⟨folder, hfolder⟩).without_null
  rw [FileTree.canonical?_of_links_eq_nil hlinks hparent, Except.ok.injEq] at hfolder
  have hjoin : importer.parent.join (.ofString s) =
      ⟨importer.parent.anchor, importer.parent.parts ++ steps⟩ := by
    rw [hsteps]
    rfl
  rw [hjoin, FileTree.canonical?_of_links_eq_nil hlinks, FileTree.walk_append, ← hwalk, ← hfolder]
  intro part hp
  rcases List.mem_append.mp hp with hp | hp
  · exact hparent part hp
  · exact hnull part hp

theorem resolve_eq {place : List String} (hlinks : t.links = [])
    (hfolder : t.canonical? importer.parent = .ok folder)
    (hs : Path.IsSpelling folder.parts place s) (hplace : ∀ name ∈ place, Path.IsName name) :
    resolve t importer s known =
      (candidates ⟨.root, place⟩).map fun cs => cs.find? (· ∈ known) := by
  have hrelative : isRelative s = true := by
    rw [isRelative, hs.head?_eq]
    decide
  rw [resolve, if_pos hrelative, canonical?_join hlinks hfolder hs hplace]
  change (candidates ⟨.root, place⟩ >>= _) = _
  cases candidates ⟨.root, place⟩ <;> rfl

variable (hlinks : t.links = []) (hknown : ∀ p ∈ known, p.IsNormal)
  (hfolder : t.canonical? importer.parent = .ok folder)

include hlinks hknown hfolder

theorem resolve_own_path {g : Path} (hg : g ∈ known) (hne : g.parts ≠ [])
    (hs : Path.IsSpelling folder.parts g.parts s) : resolve t importer s known = .ok (some g) := by
  have hnormal := hknown g hg
  obtain ⟨others, hc⟩ := exists_candidates hne
  have hbase : (⟨.root, g.parts⟩ : Path) = g := by rw [← hnormal.anchor_eq]
  rw [resolve_eq hlinks hfolder hs hnormal.isName, hbase, hc]
  exact congrArg Except.ok (find?_known [] hg (by simp))

theorem resolve_without_suffix {d : Path} {n e : String} {earlier : List String}
    (he : ComesAfter earlier e) (hg : d.child (n ++ e) ∈ known) (hn : n ∉ ["", ".", ".."])
    (hsuffix : (d.child n).suffix ∉ scriptSuffixes) (hshadow : d.child n ∉ known)
    (hearlier : ∀ e' ∈ earlier, d.child (n ++ e') ∉ known)
    (hs : Path.IsSpelling folder.parts (d.child n).parts s) :
    resolve t importer s known = .ok (some (d.child (n ++ e))) := by
  have hnormal := (hknown _ hg).of_child_append hn
  have hbase : (⟨.root, (d.child n).parts⟩ : Path) = d.child n := by rw [← hnormal.anchor_eq]
  obtain ⟨after, hafter⟩ := he.map_eq fun e => d.child (n ++ e)
  have hc := candidates_eq (by simp [Path.child]) hsuffix
  simp only [Path.name_child, Path.withName_child, hafter, List.append_assoc, List.cons_append]
    at hc
  have hbefore : ∀ q ∈ d.child n :: earlier.map (fun e => d.child (n ++ e)), q ∉ known := by
    simpa using ⟨hshadow, hearlier⟩
  rw [resolve_eq hlinks hfolder hs hnormal.isName, hbase, hc]
  exact congrArg Except.ok (find?_known _ hg hbefore)

theorem resolve_index {d : Path} {e : String} {earlier : List String}
    (he : ComesAfter earlier e) (hg : d.child ("index" ++ e) ∈ known) (hne : d.parts ≠ [])
    (hsuffix : d.suffix ∉ scriptSuffixes) (hshadow : d ∉ known)
    (hfile : ∀ e' ∈ suffixes, d.withName (d.name ++ e') ∉ known)
    (hearlier : ∀ e' ∈ earlier, d.child ("index" ++ e') ∉ known)
    (hs : Path.IsSpelling folder.parts d.parts s) :
    resolve t importer s known = .ok (some (d.child ("index" ++ e))) := by
  have hnormal := (hknown _ hg).of_child
  have hbase : (⟨.root, d.parts⟩ : Path) = d := by rw [← hnormal.anchor_eq]
  obtain ⟨after, hafter⟩ := he.map_eq fun e => d.child ("index" ++ e)
  have hc := candidates_eq hne hsuffix
  rw [hafter, ← List.append_assoc] at hc
  have hbefore : ∀ q ∈ d :: suffixes.map (fun e => d.withName (d.name ++ e)) ++
      earlier.map (fun e => d.child ("index" ++ e)), q ∉ known := by
    simpa [or_imp, forall_and] using ⟨hshadow, hfile, hearlier⟩
  rw [resolve_eq hlinks hfolder hs hnormal.isName, hbase, hc]
  exact congrArg Except.ok (find?_known _ hg hbefore)

end Resolve

/-- Relative paths lead back to the sources they are written for: a known source is found by its own
path, by its path without the suffix and, as an index, by the path of its folder. -/
theorem relative_spelling_resolves {t : FileTree} {known : List Path} {importer folder : Path}
    (hlinks : t.links = []) (hknown : ∀ p ∈ known, p.IsNormal)
    (hfolder : t.canonical? importer.parent = .ok folder) :
    (∀ g ∈ known, g.parts ≠ [] → ∀ s, Path.IsSpelling folder.parts g.parts s →
      resolve t importer s known = .ok (some g)) ∧
    (∀ (d : Path) n earlier e, ComesAfter earlier e → d.child (n ++ e) ∈ known →
      n ∉ ["", ".", ".."] → (d.child n).suffix ∉ scriptSuffixes → d.child n ∉ known →
      (∀ e' ∈ earlier, d.child (n ++ e') ∉ known) →
      ∀ s, Path.IsSpelling folder.parts (d.child n).parts s →
        resolve t importer s known = .ok (some (d.child (n ++ e)))) ∧
    (∀ (d : Path) earlier e, ComesAfter earlier e → d.child ("index" ++ e) ∈ known → d.parts ≠ [] →
      d.suffix ∉ scriptSuffixes → d ∉ known →
      (∀ e' ∈ suffixes, d.withName (d.name ++ e') ∉ known) →
      (∀ e' ∈ earlier, d.child ("index" ++ e') ∉ known) →
      ∀ s, Path.IsSpelling folder.parts d.parts s →
        resolve t importer s known = .ok (some (d.child ("index" ++ e)))) ∧
    ∀ place : List String, (∀ name ∈ place, Path.IsName name) →
      Path.IsSpelling folder.parts place (Path.spelling folder.parts place) := by
  refine ⟨?_, ?_, ?_, ?_⟩
  · intro g hg hne s hs
    exact resolve_own_path hlinks hknown hfolder hg hne hs
  · intro d n earlier e he hg hn hsuffix hshadow hearlier s hs
    exact resolve_without_suffix hlinks hknown hfolder he hg hn hsuffix hshadow hearlier hs
  · intro d earlier e he hg hne hsuffix hshadow hfile hearlier s hs
    exact resolve_index hlinks hknown hfolder he hg hne hsuffix hshadow hfile hearlier hs
  · intro place hplace
    exact Path.isSpelling_spelling folder.parts hplace

def knownSources : List Path :=
  [⟨.root, ["p", "src", "a.ts"]⟩, ⟨.root, ["p", "src", "a.js"]⟩,
    ⟨.root, ["p", "src", "b", "index.jsx"]⟩]

theorem relative_spelling_resolves_typed :
    FileTree.empty.links = [] ∧ (∀ p ∈ knownSources, p.IsNormal) ∧
      FileTree.empty.canonical? (⟨.root, ["p", "src", "b", "c.ts"]⟩ : Path).parent =
        .ok ⟨.root, ["p", "src", "b"]⟩ ∧
      resolve .empty ⟨.root, ["p", "src", "b", "c.ts"]⟩ "../a.js" knownSources =
        .ok (some ⟨.root, ["p", "src", "a.js"]⟩) ∧
      resolve .empty ⟨.root, ["p", "src", "b", "c.ts"]⟩ "../a" knownSources =
        .ok (some ⟨.root, ["p", "src", "a.ts"]⟩) ∧
      resolve .empty ⟨.root, ["p", "src", "b", "c.ts"]⟩ "." knownSources =
        .ok (some ⟨.root, ["p", "src", "b", "index.jsx"]⟩) := by
  have hlinks : FileTree.empty.links = [] := by decide
  have hknown : ∀ p ∈ knownSources, p.IsNormal := by decide
  have hfolder : FileTree.empty.canonical? (⟨.root, ["p", "src", "b", "c.ts"]⟩ : Path).parent =
      .ok ⟨.root, ["p", "src", "b"]⟩ := by cbv
  obtain ⟨hown, hbare, hindex, -⟩ := relative_spelling_resolves hlinks hknown hfolder
  refine ⟨hlinks, hknown, hfolder, ?_, ?_, ?_⟩
  · exact hown ⟨.root, ["p", "src", "a.js"]⟩ (by decide) (by decide) "../a.js"
      (.above ["p", "src"] ["b"] ["a.js"] (by decide) rfl rfl (by decide))
  · exact hbare ⟨.root, ["p", "src"]⟩ "a" [] ".ts" ⟨[".tsx", ".js", ".jsx"], rfl⟩ (by decide)
      (by decide) (by decide) (by decide) (by decide) "../a"
      (.above ["p", "src"] ["b"] ["a"] (by decide) rfl rfl (by decide))
  · exact hindex ⟨.root, ["p", "src", "b"]⟩ [".ts", ".tsx", ".js"] ".jsx" ⟨[], rfl⟩ (by decide)
      (by decide) (by decide) (by decide) (by decide) (by decide) "."
      (.inside [] rfl (by decide))

end Source

end WorkspaceCycles
