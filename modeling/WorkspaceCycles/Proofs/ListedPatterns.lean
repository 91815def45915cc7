import Mathlib
import WorkspaceCycles.Workspace

namespace WorkspaceCycles

namespace Yaml

def itemTokens (p : String) (ps : List String) (rest : List Token) : List Token :=
  .scalar false p :: ps.flatMap (fun q => [.blockEntry, .scalar false q]) ++ .blockEnd :: rest

def listTokens (key p : String) (ps : List String) : List Token :=
  .blockMappingStart :: .key :: .scalar true key :: .value :: .blockEntry :: itemTokens p ps []

def textNodes (ps : List String) : List Node := ps.map (.scalar .text)

def listNode (key p : String) (ps : List String) : Node :=
  let entries : List (Node × Node) :=
    [(.scalar .text key, .sequence .sequence (textNodes (p :: ps)))]
  .mapping .mapping true entries entries

theorem indentlessItems_itemTokens (handles : Handles) (anchors : Anchors) (p : String)
    (ps : List String) (rest : List Token) :
    ∃ h, Node.indentlessItems handles anchors (itemTokens p ps rest) =
      .ok ⟨textNodes (p :: ps), anchors, .blockEnd :: rest, h⟩ := by
  induction ps generalizing p with
  | nil =>
    simp [itemTokens, textNodes, Node.indentlessItems, Node.parseOrAbsent, Node.parse,
      splitProperties, Node.tagOf, endsIndentlessItem, register, Node.scalarKind, Node.afterToken,
      Parsed.widen, pure, Except.pure]
  | cons q ps ih =>
    obtain ⟨h, hmore⟩ := ih q
    have htokens : itemTokens p (q :: ps) rest =
        .scalar false p :: .blockEntry :: itemTokens q ps rest := by simp [itemTokens]
    rw [htokens]
    simp only [List.length_cons] at h
    simp [textNodes, Node.indentlessItems, Node.parseOrAbsent, Node.parse, splitProperties,
      Node.tagOf, endsIndentlessItem, register, Node.scalarKind, Node.afterToken, Parsed.widen,
      pure, Except.pure, hmore]
    omega

theorem parse_listTokens {key : String} (hkey : Kind.ofPlain key = .text) (p : String)
    (ps : List String) :
    ∃ h, Node.parse defaultHandles .block [] (listTokens key p ps) =
      .ok ⟨listNode key p ps, [], [], h⟩ := by
  obtain ⟨h, hitems⟩ := indentlessItems_itemTokens defaultHandles [] p ps []
  simp only [List.length_singleton] at h
  simp [listTokens, listNode, Node.parse, Node.blockEntries, Node.parseOrAbsent,
    Node.mappingValue, Node.afterToken, splitProperties, Node.tagOf, Place.allowsBlock,
    endsBlockKey, register, opened, closed, Node.collectionKind, Node.scalarKind, Parsed.widen,
    hkey, hitems, Node.ofEntries, Node.kind, pure, Except.pure]

theorem values_textNodes (level : Nat) (ps : List String) :
    Node.values level (textNodes ps) = .done (ps.map .text) := by
  induction ps with
  | nil => simp [textNodes, Node.values]
  | cons p ps ih =>
    simp only [textNodes, List.map_cons] at ih ⊢
    simp [Node.values, Node.value, Kind.isCollection, ih, scalarValue, Built.ofExcept, Built.both,
      Built.map]

theorem read_of_tokens {s : List Char} {key p : String} {ps : List String}
    (hkey : Kind.ofPlain key = .text) (h : tokens s = .ok (listTokens key p ps)) :
    Yaml.read s = .ok (.record [(key, .list ((p :: ps).map .text))]) := by
  obtain ⟨_, hparse⟩ := parse_listTokens hkey p ps
  have hvalue : ((listNode key p ps).value 0).toExcept =
      .ok (.record [(key, .list ((p :: ps).map .text))]) := by
    simp [listNode, Node.kind, Kind.isCollection, Node.value, Node.fields, Node.key,
      values_textNodes, scalarValue, Built.map, Built.both, Built.ofExcept, Built.toExcept,
      Node.asKey, Node.isKey, Node.fieldsOf, Assoc.ofPairs, Assoc.extend, Assoc.set]
  have hdocument : document (listTokens key p ps) = .ok (some (listNode key p ps)) := by
    simp only [listTokens] at hparse ⊢
    simp [document, readContent, hparse, checkEnd, bind, Except.bind, Except.map, pure,
      Except.pure]
  rw [Yaml.read, h]
  simp only [bind, Except.bind, hdocument]
  exact hvalue

end Yaml

namespace Workspace

theorem patterns_of_tokens {t : FileTree} {root : Path} (text : List Char) {p : String}
    {ps : List String} (hread : t.readText (root.child fileName) = .ok text)
    (hnested : t.limits.isTooNested text = false)
    (h : Yaml.tokens text = .ok (Yaml.listTokens "packages" p ps)) :
    patterns t root = .ok (p :: ps) := by
  have hkey : Yaml.Kind.ofPlain "packages" = .text := by decide +kernel
  have hlist : patternsOf (.record [("packages", .list ((p :: ps).map .text))]) =
      .ok (p :: ps) := by
    simp [patternsOf, Assoc.get?_cons, Value.isTruthy, membersOf, pure, Except.pure, bind,
      Except.bind, List.filterMap_map]
  rw [patterns, hread]
  simp only [Yaml.readWithin, hnested, Bool.false_eq_true, if_false, Except.mapError, bind,
    Except.bind, Yaml.read_of_tokens hkey h]
  exact hlist

end Workspace

end WorkspaceCycles
