import WorkspaceCycles.Source.Imports

namespace WorkspaceCycles.Source

def isIdentifierChar (c : Char) : Bool :=
  c.isAlphanum || c == '_' || c == '$'

structure Identifier where
  text : List Char
  ne_nil : text ≠ []
  chars : ∀ c ∈ text, isIdentifierChar c

structure Specifier where
  text : List Char
  ne_nil : text ≠ []
  chars : ∀ c ∈ text, isSpecifierChar c
  no_comment : ¬ ['/', '*'] <:+: text

inductive Quote where
  | single
  | double
deriving DecidableEq, Repr

def Quote.char : Quote → Char
  | .single => '\''
  | .double => '"'

structure Binding where
  name : Identifier
  other : Option Identifier := none

def Binding.text (b : Binding) : List Char :=
  match b.other with
  | none => b.name.text
  | some other => b.name.text ++ " as ".toList ++ other.text

def bindingsText : List Binding → List Char
  | [] => "\x7b\x7d".toList
  | b :: bs => "\x7b ".toList ++ b.text ++ bs.flatMap (", ".toList ++ ·.text) ++ " \x7d".toList

inductive Clause where
  | default (name : Identifier)
  | whole (name : Identifier)
  | named (bindings : List Binding)
  | both (name : Identifier) (bindings : List Binding)

def Clause.text : Clause → List Char
  | .default name => name.text
  | .whole name => "* as ".toList ++ name.text
  | .named bindings => bindingsText bindings
  | .both name bindings => name.text ++ ", ".toList ++ bindingsText bindings

inductive Form where
  | sideEffect
  | imports (clause : Clause)
  | importsTypes (clause : Clause)
  | exportsAll
  | exportsAllAs (name : Identifier)
  | exports (bindings : List Binding)
  | exportsTypes (bindings : List Binding)
  | requires (name : Identifier)
  | awaits (name : Identifier)

namespace Form

def lead : Form → List Char
  | .sideEffect => "import ".toList
  | .imports clause => "import ".toList ++ clause.text ++ " from ".toList
  | .importsTypes clause => "import type ".toList ++ clause.text ++ " from ".toList
  | .exportsAll => "export * from ".toList
  | .exportsAllAs name => "export * as ".toList ++ name.text ++ " from ".toList
  | .exports bindings => "export ".toList ++ bindingsText bindings ++ " from ".toList
  | .exportsTypes bindings => "export type ".toList ++ bindingsText bindings ++ " from ".toList
  | .requires name => "const ".toList ++ name.text ++ " = require(".toList
  | .awaits name => "const ".toList ++ name.text ++ " = await import(".toList

def callee? : Form → Option (List Char)
  | .requires _ => some "require".toList
  | .awaits _ => some "import".toList
  | _ => none

def isTypeOnly : Form → Bool
  | .importsTypes _ => true
  | .exportsTypes _ => true
  | _ => false

def isDynamic : Form → Bool
  | .awaits _ => true
  | _ => false

def trail (f : Form) : List Char :=
  if f.callee?.isSome then [')'] else []

end Form

structure Statement where
  form : Form
  specifier : Specifier
  quote : Quote

def Statement.rest (s : Statement) (more : List Char) : List Char :=
  s.specifier.text ++ s.quote.char :: (s.form.trail ++ ';' :: '\n' :: more)

def print : List Statement → List Char
  | [] => []
  | s :: ss => s.form.lead ++ s.quote.char :: s.rest (print ss)

end WorkspaceCycles.Source
