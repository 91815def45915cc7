import WorkspaceCycles.Assoc
import WorkspaceCycles.Path

/-!
Trees of files. A folder holds entries by name, a link leads to another place. Names are looked up
one by one from the top; a link on the way is replaced by the place it leads to.

A tree has no permissions: all that is in it can be looked up, listed and read, and it is walked
however deep it is. `Limits` are those of names and paths, of which the length of a path keeps it
from being asked for (`isRefused`) but not from being read, and those of the interpreter on how
deep texts and patterns may be nested.
-/

namespace WorkspaceCycles

inductive Node where
  | file (bytes : List UInt8) (executable : Bool)
  | folder (entries : List (String × Node))
  | link (target : Path)
deriving Inhabited

namespace Node

def entries : Node → List (String × Node)
  | .folder es => es
  | _ => []

def isLink : Node → Bool
  | .link _ => true
  | _ => false

def descend? : Node → List String → Option Node
  | n, [] => some n
  | n, name :: names => (Assoc.get? n.entries name).bind fun child => descend? child names

def put (node : Node) : List String → Node → Node
  | [], _ => node
  | name :: names, n =>
    .folder (Assoc.set n.entries name
      (put node names ((Assoc.get? n.entries name).getD (.folder []))))

mutual

def descendants : Node → List (List String × Node)
  | .folder es => entriesDescendants es
  | _ => []

def entriesDescendants : List (String × Node) → List (List String × Node)
  | [] => []
  | (name, n) :: es =>
    ([name], n) :: n.descendants.map (fun d => (name :: d.1, d.2)) ++ entriesDescendants es

end

theorem mem_entriesDescendants {es : List (String × Node)} {name : String} {n : Node}
    (h : (name, n) ∈ es) : ([name], n) ∈ entriesDescendants es ∧
      ∀ d ∈ n.descendants, (name :: d.1, d.2) ∈ entriesDescendants es := by
  induction es with
  | nil => cases h
  | cons e es ih =>
    obtain ⟨key, m⟩ := e
    rw [entriesDescendants]
    rcases List.mem_cons.mp h with he | h
    · cases he
      refine ⟨List.mem_append_left _ List.mem_cons_self, fun d hd => List.mem_append_left _ ?_⟩
      exact List.mem_cons_of_mem _ (List.mem_map_of_mem hd)
    · obtain ⟨hn, hd⟩ := ih h
      exact ⟨List.mem_append_right _ hn, fun d h => List.mem_append_right _ (hd d h)⟩

theorem mem_descendants_of_descend? {n m : Node} {names : List String} (hne : names ≠ [])
    (h : n.descend? names = some m) : (names, m) ∈ n.descendants := by
  induction names generalizing n with
  | nil => exact absurd rfl hne
  | cons name names ih =>
    obtain ⟨child, hc, hm⟩ := Option.bind_eq_some_iff.mp h
    cases n with
    | file | link => cases hc
    | folder es =>
      obtain ⟨hself, hbelow⟩ := mem_entriesDescendants (Assoc.mem_of_get? hc)
      rw [descendants]
      cases names with
      | nil =>
        cases hm
        exact hself
      | cons => exact hbelow _ (ih (by simp) hm)

end Node

structure Limits where
  isLongName : String → Bool := fun name => 255 < name.utf8ByteSize
  isLongPath : Path → Bool := fun p => 4095 < p.text.utf8ByteSize
  /-- How many lists and objects of a JSON text may be open at once. -/
  levels : Nat := 990
  /-- Whether the collections and merges of a YAML text are nested too deep. -/
  isTooNested : List Char → Bool := fun _ => false
  /-- Whether a pattern has too many steps, or leads too deep below a folder. -/
  isTooDeep : (pattern folder : Path) → Bool :=
    fun pattern _ => !pattern.isAbsolute && 240 < pattern.parts.length

structure FileTree where
  root : Node
  limits : Limits := {}

instance : Inhabited FileTree := ⟨{ root := default }⟩

inductive FileFault where
  | notFound
  | denied
  | notFolder
  | isFolder
  | nameTooLong
  | tooManyLinks
  | other (number : Nat) (text : String)
deriving DecidableEq, Repr

def FileFault.message (f : FileFault) (p : Path) : String :=
  let (code, text) : String × String :=
    match f with
    | .notFound => ("2", "No such file or directory")
    | .denied => ("13", "Permission denied")
    | .notFolder => ("20", "Not a directory")
    | .isFolder => ("21", "Is a directory")
    | .nameTooLong => ("36", "File name too long")
    | .tooManyLinks => ("40", "Too many levels of symbolic links")
    | .other number text => (toString number, text)
  "[Errno " ++ code ++ "] " ++ text ++ ": " ++ p.quoted

namespace FileTree

def empty : FileTree where
  root := .folder []

def put (t : FileTree) (p : Path) (node : Node) : FileTree :=
  { t with root := node.put p.parts t.root }

def maxLinks : Nat := 40

def absence (t : FileTree) (name : String) : FileFault :=
  match t.limits.isLongName name with
  | true => .nameTooLong
  | false => .notFound

theorem absence_ne_tooManyLinks (t : FileTree) (name : String) :
    t.absence name ≠ .tooManyLinks := by
  unfold absence
  split <;> nofun

def locate (t : FileTree) (links : Nat) (place : List String) (names : List String) :
    Except FileFault (List String) :=
  match names with
  | [] => .ok place
  | name :: names =>
    match t.root.descend? place with
    | some (.folder es) =>
      if name = ".." then t.locate links place.dropLast names
      else
        match Assoc.get? es name, links with
        | none, _ => .error (t.absence name)
        | some (.link _), 0 => .error .tooManyLinks
        | some (.link target), links + 1 =>
          t.locate links (if target.isAbsolute then [] else place) (target.parts ++ names)
        | some _, links => t.locate links (place ++ [name]) names
    | some _ => .error .notFolder
    | none => .error .notFound
termination_by (links, names.length)

def node (t : FileTree) (p : Path) : Except FileFault Node := do
  let place ← t.locate maxLinks [] p.parts
  match t.root.descend? place with
  | some n => .ok n
  | none => .error .notFound

def contains (t : FileTree) (p : Path) : Bool :=
  match t.node p with
  | .ok _ => true
  | .error _ => false

def isFile (t : FileTree) (p : Path) : Bool :=
  match t.node p with
  | .ok (.file _ _) => true
  | _ => false

def isExecutable (t : FileTree) (p : Path) : Bool :=
  match t.node p with
  | .ok (.file _ executable) => executable
  | _ => false

def isFolder (t : FileTree) (p : Path) : Bool :=
  match t.node p with
  | .ok (.folder _) => true
  | _ => false

def entriesAt (t : FileTree) (p : Path) : List (String × Node) :=
  match t.node p with
  | .ok n => n.entries
  | .error _ => []

def isRefused (t : FileTree) (p : Path) : Bool :=
  !p.parts.any (·.contains '\x00') &&
    (t.limits.isLongPath p || t.node p matches .error .nameTooLong)

def read (t : FileTree) (p : Path) : Except FileFault (List UInt8) := do
  match ← t.node p with
  | .file bytes _ => .ok bytes
  | .folder _ => .error .isFolder
  | .link _ => .error .notFound

theorem exists_read_of_isFile {t : FileTree} {p : Path} (h : t.isFile p) :
    ∃ bytes, t.read p = .ok bytes := by
  unfold isFile at h
  split at h
  · rename_i bytes _ hn
    refine ⟨bytes, ?_⟩
    rw [read, hn]
    rfl
  · cases h

def links (t : FileTree) : List (List String) :=
  (t.root.descendants.filter fun d => d.2.isLink).map (·.1)

theorem mem_links {t : FileTree} {place : List String} {target : Path} (hne : place ≠ [])
    (h : t.root.descend? place = some (.link target)) : place ∈ t.links :=
  List.mem_map.mpr ⟨(place, .link target),
    List.mem_filter.mpr ⟨Node.mem_descendants_of_descend? hne h, rfl⟩, rfl⟩

def unopened (t : FileTree) (opened : List (List String)) : List (List String) :=
  t.links.filter (· ∉ opened)

theorem length_unopened_lt {t : FileTree} {opened : List (List String)} {place : List String}
    {target : Path} (hne : place ≠ []) (h : t.root.descend? place = some (.link target))
    (hp : place ∉ opened) : (t.unopened (place :: opened)).length < (t.unopened opened).length := by
  have hsub : t.unopened (place :: opened) = (t.unopened opened).filter (· ≠ place) := by
    unfold unopened
    rw [List.filter_filter]
    apply List.filter_congr
    intro q _
    simp
  rw [hsub]
  refine List.length_filter_lt_length_iff_exists.mpr ⟨place, ?_, by simp⟩
  exact List.mem_filter.mpr ⟨mem_links hne h, by simpa using hp⟩

def walk (place names : List String) : List String :=
  names.foldl (fun place name => if name = ".." then place.dropLast else place ++ [name]) place

/-- The place that some names lead to, whether or not there is something. A link that leads back to
itself is not followed any further, and neither is any link after it; that is an error. -/
def follow (t : FileTree) (opened : List (List String)) (place names : List String) :
    Except (List String) (List String) :=
  match names with
  | [] => .ok place
  | name :: names =>
    if name = ".." then t.follow opened place.dropLast names
    else
      match h : t.root.descend? (place ++ [name]) with
      | some (.link target) =>
        if hp : place ++ [name] ∈ opened then .error (walk (place ++ [name]) names)
        else
          have := length_unopened_lt (by simp) h hp
          match t.follow ((place ++ [name]) :: opened) (if target.isAbsolute then [] else place)
            target.parts with
          | .ok place => t.follow opened place names
          | .error place => .error (walk place names)
      | _ => t.follow opened (place ++ [name]) names
termination_by ((t.unopened opened).length, names.length)

def canonical (t : FileTree) (p : Path) : Path :=
  match t.follow [] [] p.parts with
  | .ok place => ⟨.root, place⟩
  | .error place => ⟨.root, place⟩

end FileTree

inductive PathFault where
  | nullCharacter
  | linkLoop (p : Path)
  | emptyName (p : Path)
  | notBelow (p folder : Path)
  | refused (fault : FileFault) (p : Path)
deriving DecidableEq, Repr

def PathFault.message : PathFault → String
  | .nullCharacter => "embedded null byte"
  | .linkLoop p => "Symlink loop from " ++ p.quoted
  | .emptyName p => "PosixPath(" ++ p.quoted ++ ") has an empty name"
  | .notBelow p folder => p.notBelowMessage folder
  | .refused fault p => fault.message p

def FileTree.canonical? (t : FileTree) (p : Path) : Except PathFault Path :=
  if p.parts.any (·.contains '\x00') then .error .nullCharacter
  else
    match t.node (t.canonical p) with
    | .error .tooManyLinks => .error (.linkLoop (t.canonical p))
    | _ => .ok (t.canonical p)

namespace FileTree

def isFile? (t : FileTree) (p : Path) : Except PathFault Bool :=
  if t.isRefused p then .error (.refused .nameTooLong p) else .ok (t.isFile p)

theorem isFile_of_isFile? {t : FileTree} {p : Path} (h : t.isFile? p = .ok true) : t.isFile p := by
  unfold isFile? at h
  split at h
  · cases h
  · exact Except.ok.inj h

end FileTree

end WorkspaceCycles
