import Mathlib
import WorkspaceCycles.Proofs.ImportTargets

/-!
Sources behind links. A source is a node under the name of the place that its links lead to, so a
scan gets past it only if that place lies in the folder of the package.
-/

namespace WorkspaceCycles.Source

def linkedFile (t : FileTree) (package : Path) (names : List String) : Path :=
  t.canonical ((t.canonical package).join ⟨.relative, names⟩)

def LiesAt (t : FileTree) (package : Path) (names place : List String) : Prop :=
  linkedFile t package names = (t.canonical package).join ⟨.relative, place⟩

/-- What it takes for the scan to get past a source: its links lead to a place in the package, and
its specifiers to paths below the top. -/
structure IsScanned (t : FileTree) (package : Path) (o : NativeOptions) (names : List String) :
    Prop where
  resolves : t.Resolves ((t.canonical package).join ⟨.relative, names⟩)
  inside : ∃ place, LiesAt t package names place
  resolved : ∀ s ∈ specifiersAt t (linkedFile t package names) o, isRelative s →
    t.Resolves (namedPath (linkedFile t package names) s) ∧
      t.canonical (namedPath (linkedFile t package names) s) ≠ .top

variable {t : FileTree} {package root file : Path} {known : List Path} {o : NativeOptions}
  {fault : PathFault}

section Name

theorem nameOf_eq_ok_iff {a : String} : nameOf root file = .ok a ↔
    ∃ place, file = root.join ⟨.relative, place⟩ ∧ Path.relativeText place = a := by
  unfold nameOf
  cases h : file.below? root with
  | none =>
    simp only [reduceCtorEq, false_iff, not_exists, not_and]
    rintro place rfl
    rw [Path.below?_join] at h
    cases h
  | some names =>
    have hfile := Path.below?_eq_some_iff.mp h
    simp only [Except.ok.injEq]
    constructor
    · rintro rfl
      exact ⟨names, hfile, rfl⟩
    · rintro ⟨place, rfl, rfl⟩
      rw [Path.below?_join, Option.some.injEq] at h
      rw [h]

theorem nameOf_join (place : List String) :
    nameOf root (root.join ⟨.relative, place⟩) = .ok (Path.relativeText place) :=
  nameOf_eq_ok_iff.mpr ⟨place, rfl, rfl⟩

end Name

section Files

theorem canonicalFiles_eq_ok (h : canonicalFiles t package = .ok (root, known)) :
    t.Resolves package ∧ root = t.canonical package ∧
      (∀ names ∈ files t root, t.Resolves (root.join ⟨.relative, names⟩)) ∧
      ∀ file, file ∈ known ↔ ∃ names ∈ files t root, linkedFile t package names = file := by
  obtain ⟨root', hroot, h⟩ := exists_of_bind_eq_ok h
  obtain ⟨known', hknown, h⟩ := exists_of_bind_eq_ok h
  cases h
  obtain ⟨hto, hfrom⟩ := mem_of_mapM_eq_ok hknown
  have hresolves := FileTree.exists_canonical?_iff.mp ⟨root, hroot⟩
  obtain rfl := FileTree.canonical?_eq_ok hroot
  refine ⟨hresolves, rfl, ?_, ?_⟩
  · intro names hn
    obtain ⟨file, -, hfile⟩ := hto names hn
    exact FileTree.exists_canonical?_iff.mp ⟨file, hfile⟩
  · intro file
    constructor
    · intro hf
      obtain ⟨names, hn, hfile⟩ := hfrom file hf
      exact ⟨names, hn, (FileTree.canonical?_eq_ok hfile).symm⟩
    · rintro ⟨names, hn, rfl⟩
      obtain ⟨file, hf, hfile⟩ := hto names hn
      rwa [linkedFile, ← FileTree.canonical?_eq_ok hfile]

theorem exists_canonicalFiles (hp : t.Resolves package)
    (hfiles : ∀ names ∈ files t (t.canonical package),
      t.Resolves ((t.canonical package).join ⟨.relative, names⟩)) :
    ∃ known, canonicalFiles t package = .ok (t.canonical package, known) := by
  obtain ⟨root, hroot⟩ := FileTree.exists_canonical?_iff.mpr hp
  obtain rfl := FileTree.canonical?_eq_ok hroot
  obtain ⟨known, hknown⟩ := exists_mapM_eq_ok fun names hn =>
    FileTree.exists_canonical?_iff.mpr (hfiles names hn)
  refine ⟨known, ?_⟩
  simp only [canonicalFiles, hroot, hknown, bind, Except.bind, pure, Except.pure]

end Files

section Graph

theorem exists_place_of_importsOf {e : String × List String}
    (h : importsOf t root known o file = .ok e) : ∃ place, file = root.join ⟨.relative, place⟩ := by
  obtain ⟨place, hplace, -⟩ := nameOf_eq_ok_iff.mp (importsOf_eq_ok h).1
  exact ⟨place, hplace⟩

theorem exists_importsOf {place : List String}
    (hknown : ∀ file ∈ known, ∃ place, file = root.join ⟨.relative, place⟩)
    (hresolved : ∀ s ∈ specifiersAt t (root.join ⟨.relative, place⟩) o,
      ∃ r, resolve t (root.join ⟨.relative, place⟩) s known = .ok r) :
    ∃ e, importsOf t root known o (root.join ⟨.relative, place⟩) = .ok e := by
  refine exists_bind_eq_ok ⟨_, nameOf_join place⟩ fun _ =>
    exists_bind_eq_ok (exists_filterMapM_eq_ok fun s hs => ?_) fun _ => ⟨_, rfl⟩
  obtain ⟨r, hr⟩ := hresolved s hs
  cases r with
  | none => exact ⟨none, by rw [hr]; rfl⟩
  | some target =>
    obtain ⟨place', rfl⟩ := hknown target (mem_of_resolve hr)
    refine ⟨some (Path.relativeText place'), ?_⟩
    simp only [hr, nameOf_join, bind, Except.bind, pure, Except.pure]

theorem exists_importGraph_iff : (∃ g, importGraph t package o = .ok g) ↔
    t.Resolves package ∧
      ∀ names ∈ files t (t.canonical package), IsScanned t package o names := by
  constructor
  · rintro ⟨g, h⟩
    obtain ⟨⟨root, known⟩, hk, h⟩ := exists_of_bind_eq_ok h
    obtain ⟨entries, he, -⟩ := exists_of_bind_eq_ok h
    obtain ⟨hp, rfl, hresolves, hmem⟩ := canonicalFiles_eq_ok hk
    refine ⟨hp, fun names hn => ?_⟩
    obtain ⟨e, -, he⟩ := (mem_of_mapM_eq_ok he).1 _ ((hmem _).mpr ⟨names, hn, rfl⟩)
    exact ⟨hresolves names hn, exists_place_of_importsOf he,
      fun s hs => exists_resolve_iff.mp (exists_resolve_of_importsOf he hs)⟩
  · rintro ⟨hp, hall⟩
    obtain ⟨known, hk⟩ := exists_canonicalFiles hp fun names hn => (hall names hn).resolves
    obtain ⟨-, -, -, hmem⟩ := canonicalFiles_eq_ok hk
    have hknown : ∀ file ∈ known, ∃ place, file = (t.canonical package).join ⟨.relative, place⟩ := by
      intro file hf
      obtain ⟨names, hn, rfl⟩ := (hmem file).mp hf
      exact (hall names hn).inside
    obtain ⟨entries, he⟩ : ∃ entries,
        known.mapM (importsOf t (t.canonical package) known o) = .ok entries := by
      refine exists_mapM_eq_ok fun file hf => ?_
      obtain ⟨names, hn, rfl⟩ := (hmem file).mp hf
      obtain ⟨place, hplace⟩ := (hall names hn).inside
      have hresolved := (hall names hn).resolved
      rw [hplace] at hresolved ⊢
      exact exists_importsOf hknown fun s hs => exists_resolve_iff.mpr (hresolved s hs)
    refine ⟨.ofEntries entries, ?_⟩
    simp only [importGraph, hk, he, bind, Except.bind, pure, Except.pure]

end Graph

section Outward

end Outward

end WorkspaceCycles.Source
