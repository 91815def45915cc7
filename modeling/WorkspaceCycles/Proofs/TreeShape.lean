import WorkspaceCycles.FileTree.Search
import WorkspaceCycles.Proofs.FollowedLinks

namespace WorkspaceCycles

namespace Node

mutual

def shape : Node → Node
  | .file _ executable => .file [] executable
  | .folder es => .folder (entriesShape es)
  | .link target => .link target

def entriesShape : List (String × Node) → List (String × Node)
  | [] => []
  | (name, n) :: es => (name, n.shape) :: entriesShape es

end

theorem entriesShape_eq_map (es : List (String × Node)) :
    entriesShape es = es.map fun e => (e.1, e.2.shape) := by
  induction es with
  | nil => rfl
  | cons e es ih => rw [entriesShape, ih, List.map_cons]

theorem get?_entriesShape (es : List (String × Node)) (name : String) :
    Assoc.get? (entriesShape es) name = (Assoc.get? es name).map shape := by
  induction es with
  | nil => rfl
  | cons e es ih =>
    obtain ⟨key, n⟩ := e
    rw [entriesShape, Assoc.get?_cons, Assoc.get?_cons, ih]
    split <;> rfl

theorem entries_shape (n : Node) : n.shape.entries = entriesShape n.entries := by
  cases n <;> rfl

theorem isLink_shape (n : Node) : n.shape.isLink = n.isLink := by
  cases n <;> rfl

theorem descend?_shape (n : Node) (names : List String) :
    n.shape.descend? names = (n.descend? names).map shape := by
  induction names generalizing n with
  | nil => rfl
  | cons name names ih =>
    rw [descend?, descend?, entries_shape, get?_entriesShape]
    cases Assoc.get? n.entries name with
    | none => rfl
    | some child => exact ih child

mutual

theorem descendants_shape (n : Node) :
    n.shape.descendants = n.descendants.map fun d => (d.1, d.2.shape) := by
  cases n with
  | file => rfl
  | link => rfl
  | folder es =>
    rw [shape, descendants, descendants]
    exact entriesDescendants_shape es

theorem entriesDescendants_shape (es : List (String × Node)) :
    entriesDescendants (entriesShape es) =
      (entriesDescendants es).map fun d => (d.1, d.2.shape) := by
  cases es with
  | nil => rfl
  | cons e es =>
    obtain ⟨name, n⟩ := e
    rw [entriesShape, entriesDescendants, entriesDescendants, descendants_shape n,
      entriesDescendants_shape es]
    simp [Function.comp_def]

end

theorem entriesShape_set (es : List (String × Node)) (name : String) (n : Node) :
    entriesShape (Assoc.set es name n) = Assoc.set (entriesShape es) name n.shape := by
  induction es with
  | nil => rfl
  | cons e es ih =>
    obtain ⟨key, m⟩ := e
    simp only [Assoc.set, entriesShape]
    split
    · rfl
    · rw [entriesShape, ih]

theorem shape_put {node old n : Node} {names : List String} (h : n.descend? names = some old)
    (hshape : node.shape = old.shape) : (node.put names n).shape = n.shape := by
  induction names generalizing n with
  | nil =>
    cases h
    exact hshape
  | cons name names ih =>
    obtain ⟨child, hc, hold⟩ := Option.bind_eq_some_iff.mp h
    cases n with
    | file | link => cases hc
    | folder es =>
      change Assoc.get? es name = some child at hc
      have hget : Assoc.get? (entriesShape es) name = some (node.put names child).shape := by
        rw [get?_entriesShape, hc, ih hold]
        rfl
      change folder (entriesShape (Assoc.set es name (node.put names
        ((Assoc.get? es name).getD (.folder []))))) = _
      rw [hc, entriesShape_set]
      exact congrArg folder (Assoc.set_of_get? hget)

theorem descend?_put (node n : Node) (names : List String) :
    (node.put names n).descend? names = some node := by
  induction names generalizing n with
  | nil => rfl
  | cons name names ih =>
    rw [put, descend?]
    change (Assoc.get? (Assoc.set _ _ _) name).bind _ = _
    rw [Assoc.get?_set, if_pos rfl]
    exact ih _

def face : Node → Node
  | .folder _ => .folder []
  | n => n

theorem face_descend?_put {node old n : Node} {names names' : List String}
    (h : n.descend? names = some old) (hold : old.entries = []) (hnode : node.entries = [])
    (hne : names' ≠ names) :
    ((node.put names n).descend? names').map face = (n.descend? names').map face := by
  induction names generalizing n names' with
  | nil =>
    cases h
    obtain ⟨name, names', rfl⟩ := List.exists_cons_of_ne_nil hne
    rw [put, descend?, descend?, hnode, hold]
  | cons name names ih =>
    obtain ⟨child, hc, hchild⟩ := Option.bind_eq_some_iff.mp h
    cases n with
    | file | link => cases hc
    | folder es =>
      change Assoc.get? es name = some child at hc
      rw [put]
      change (descend? (.folder (Assoc.set es name (node.put names
        ((Assoc.get? es name).getD (.folder []))))) names').map face = _
      rw [hc]
      cases names' with
      | nil => rfl
      | cons name' names' =>
        simp only [descend?, entries, Assoc.get?_set]
        split
        · rename_i hname
          subst hname
          rw [hc]
          exact ih hchild fun he => hne (congrArg _ he)
        · rfl

end Node

namespace FileTree

def shape (t : FileTree) : FileTree := { t with root := t.root.shape }

theorem descend?_shape (t : FileTree) (place : List String) :
    t.shape.root.descend? place = (t.root.descend? place).map Node.shape :=
  t.root.descend?_shape place

theorem locate_shape (t : FileTree) (links : Nat) (place names : List String) :
    t.shape.locate links place names = t.locate links place names := by
  fun_induction locate t links place names with
  | case1 => rw [locate]
  | case2 links place names es hplace ih =>
    rw [locate, descend?_shape, hplace]
    simpa only [Option.map_some, Node.shape, if_pos] using ih
  | case3 links place name names es hplace hname hget =>
    rw [locate, descend?_shape, hplace]
    simp only [Option.map_some, Node.shape, if_neg hname, Node.get?_entriesShape, hget,
      Option.map_none]
    rfl
  | case4 place name names es hplace hname target hget =>
    rw [locate, descend?_shape, hplace]
    simp only [Option.map_some, Node.shape, if_neg hname, Node.get?_entriesShape, hget]
  | case5 place name names es hplace hname target links hget ih =>
    rw [locate, descend?_shape, hplace]
    simp only [Option.map_some, Node.shape, if_neg hname, Node.get?_entriesShape, hget]
    exact ih
  | case6 place name names es hplace hname n links hzero hsucc hget ih =>
    rw [locate, descend?_shape, hplace]
    simp only [Option.map_some, Node.shape, if_neg hname, Node.get?_entriesShape, hget]
    cases n with
    | file => exact ih
    | folder => exact ih
    | link target =>
      cases links with
      | zero => exact (hzero target rfl rfl).elim
      | succ links => exact (hsucc target links rfl rfl).elim
  | case7 links place name names n hfolder hplace =>
    rw [locate, descend?_shape, hplace]
    cases n with
    | file => rfl
    | folder es => exact (hfolder es rfl).elim
    | link => rfl
  | case8 links place name names hplace =>
    rw [locate, descend?_shape, hplace]
    rfl

theorem node_shape (t : FileTree) (p : Path) : t.shape.node p = (t.node p).map Node.shape := by
  unfold node
  rw [locate_shape]
  cases t.locate maxLinks [] p.parts with
  | error => rfl
  | ok place =>
    simp only [bind, Except.bind]
    rw [descend?_shape]
    cases t.root.descend? place <;> rfl

theorem isFolder_shape (t : FileTree) (p : Path) : t.shape.isFolder p = t.isFolder p := by
  unfold isFolder
  rw [node_shape]
  rcases t.node p with fault | n
  · rfl
  · cases n <;> rfl

theorem isFile_shape (t : FileTree) (p : Path) : t.shape.isFile p = t.isFile p := by
  unfold isFile
  rw [node_shape]
  rcases t.node p with fault | n
  · rfl
  · cases n <;> rfl

theorem contains_shape (t : FileTree) (p : Path) : t.shape.contains p = t.contains p := by
  unfold contains
  rw [node_shape]
  cases t.node p <;> rfl

theorem isRefused_shape (t : FileTree) (p : Path) : t.shape.isRefused p = t.isRefused p := by
  have hlimits : t.shape.limits = t.limits := rfl
  unfold isRefused
  rw [node_shape, hlimits]
  cases t.node p <;> rfl

theorem isFile?_shape (t : FileTree) (p : Path) : t.shape.isFile? p = t.isFile? p := by
  unfold isFile?
  rw [isRefused_shape, isFile_shape]

theorem names_entriesAt_shape (t : FileTree) (p : Path) :
    (t.shape.entriesAt p).map (·.1) = (t.entriesAt p).map (·.1) := by
  unfold entriesAt
  rw [node_shape]
  cases t.node p with
  | error => rfl
  | ok n =>
    simp only [Except.map, Node.entries_shape, Node.entriesShape_eq_map, List.map_map]
    rfl

theorem foldersFrom_shape (t : FileTree) (p : Path) : t.shape.foldersFrom p = t.foldersFrom p := by
  unfold foldersFrom
  rw [node_shape]
  cases t.node p with
  | error => rfl
  | ok n =>
    simp only [Except.map, Node.descendants_shape, List.filterMap_map]
    congr 2
    funext d
    obtain ⟨names, m⟩ := d
    cases m <;> rfl

theorem search_shape (t : FileTree) (steps : List SearchStep) (p : Path) :
    t.shape.search steps p = t.search steps p := by
  induction steps generalizing p with
  | nil => rfl
  | cons step steps ih =>
    cases step with
    | name name => simp only [search, isFolder_shape, contains_shape, ih]
    | glob pattern => simp only [search, names_entriesAt_shape, isFolder_shape, ih]
    | anyFolders =>
      have hsearch : t.shape.search steps = t.search steps := funext ih
      simp only [search, foldersFrom_shape, hsearch]

theorem linksAt_shape (t : FileTree) (p : Path) : t.shape.linksAt p = t.linksAt p := by
  unfold linksAt entriesAt
  rw [node_shape]
  cases t.node p with
  | error => rfl
  | ok n =>
    simp only [Except.map, Node.entries_shape, Node.entriesShape_eq_map, List.filter_map,
      List.map_map, Function.comp_def, Node.isLink_shape]

theorem stopOf?_shape (t : FileTree) (steps : List SearchStep) (p : Path) :
    t.shape.stopOf? steps p = t.stopOf? steps p := by
  have hrefused : t.shape.isRefused = t.isRefused := funext t.isRefused_shape
  induction steps generalizing p with
  | nil => rfl
  | cons step steps ih =>
    cases step with
    | name name => simp only [stopOf?, hrefused, isFolder_shape, ih]
    | glob pattern =>
      simp only [stopOf?, hrefused, names_entriesAt_shape, linksAt_shape, isFolder_shape, ih]
    | anyFolders => simp only [stopOf?, hrefused, foldersFrom_shape, ih]

theorem find_shape (t : FileTree) (folder : Path) (pattern : String) :
    t.shape.find folder pattern = t.find folder pattern := by
  have hlimits : t.shape.limits = t.limits := rfl
  simp only [find, hlimits, stopOf?_shape, search_shape]

theorem link_shape_iff {t : FileTree} {place : List String} {target : Path} :
    t.shape.root.descend? place = some (.link target) ↔
      t.root.descend? place = some (.link target) := by
  rw [descend?_shape]
  cases t.root.descend? place with
  | none => simp
  | some n => cases n <;> simp [Node.shape]

theorem follow_shape (t : FileTree) (opened : List (List String)) (place names : List String) :
    t.shape.follow opened place names = t.follow opened place names :=
  follow_congr (fun _ _ _ => link_shape_iff) opened place names

theorem canonical?_shape (t : FileTree) (p : Path) : t.shape.canonical? p = t.canonical? p := by
  have hp : t.shape.canonical p = t.canonical p := by
    unfold canonical
    rw [follow_shape]
  unfold canonical?
  rw [hp, node_shape]
  cases t.node (t.canonical p) <;> rfl

theorem node_of_locate {t : FileTree} {p : Path} {place : List String}
    (h : t.locate maxLinks [] p.parts = .ok place) :
    t.node p = (t.root.descend? place).elim (.error .notFound) .ok := by
  unfold node
  rw [h]
  simp only [bind, Except.bind]
  cases t.root.descend? place <;> rfl

theorem node_of_locate_eq_error {t : FileTree} {p : Path} {fault : FileFault}
    (h : t.locate maxLinks [] p.parts = .error fault) : t.node p = .error fault := by
  unfold node
  rw [h]
  rfl

theorem read_congr {t t' : FileTree} {p : Path} {place place' : List String}
    (h : t.locate maxLinks [] p.parts = .ok place) (h' : t'.locate maxLinks [] p.parts = .ok place')
    (hface : (t.root.descend? place).map Node.face = (t'.root.descend? place').map Node.face) :
    t.read p = t'.read p := by
  unfold read
  rw [node_of_locate h, node_of_locate h']
  revert hface
  generalize t.root.descend? place = seen
  generalize t'.root.descend? place' = seen'
  intro hface
  cases seen with
  | none =>
    cases seen' with
    | none => rfl
    | some n' => cases hface
  | some n =>
    cases seen' with
    | none => cases hface
    | some n' => cases n <;> cases n' <;> cases hface <;> rfl

section Overwriting

variable {t : FileTree} {place : List String} {old : List UInt8} {executable : Bool}
  (h : t.root.descend? place = some (.file old executable)) (bytes : List UInt8)

include h

theorem shape_overwrite : (t.put ⟨.root, place⟩ (.file bytes executable)).shape = t.shape := by
  have hroot : ((Node.file bytes executable).put place t.root).shape = t.root.shape :=
    Node.shape_put h rfl
  exact congrArg (fun root => { t with root }) hroot

theorem locate_overwrite (links : Nat) (start names : List String) :
    (t.put ⟨.root, place⟩ (.file bytes executable)).locate links start names =
      t.locate links start names := by
  rw [← locate_shape, shape_overwrite h, locate_shape]

theorem read_overwritten {p : Path} (hp : t.locate maxLinks [] p.parts = .ok place) :
    (t.put ⟨.root, place⟩ (.file bytes executable)).read p = .ok bytes := by
  have hfile : (t.put ⟨.root, place⟩ (.file bytes executable)).root.descend? place =
      some (.file bytes executable) := Node.descend?_put _ _ _
  rw [read, node_of_locate ((locate_overwrite h bytes maxLinks [] p.parts).trans hp), hfile]
  rfl

theorem read_overwrite {p : Path} (hp : t.locate maxLinks [] p.parts ≠ .ok place) :
    (t.put ⟨.root, place⟩ (.file bytes executable)).read p = t.read p := by
  have hlocate := locate_overwrite h bytes maxLinks [] p.parts
  cases hl : t.locate maxLinks [] p.parts with
  | error fault =>
    unfold read
    rw [node_of_locate_eq_error hl, node_of_locate_eq_error (hlocate.trans hl)]
  | ok goal =>
    apply read_congr (hlocate.trans hl) hl
    apply Node.face_descend?_put h rfl rfl
    rintro rfl
    exact hp hl

end Overwriting

end FileTree

end WorkspaceCycles
