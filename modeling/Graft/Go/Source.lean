-- Source files and what is read off their trees: the package, the imports,
-- the calls, and the functions that can be called from outside without
-- arguments.
import Graft.Go.Expr
import Graft.Go.Grammar
import Graft.Go.Import
import Graft.Go.Walk
import Graft.Text.Blank
import Graft.Text.Upper

namespace Graft.Go

/-- A source file that was read without errors. -/
structure Source where
  path : String
  tree : Tree

structure Call where
  callee : Expr
  args : List Expr
  line : Nat
  deriving Repr

/-- Reads the text of the file at `path`. -/
def Source.parse (path : String) (text : String) : Except Position Source :=
  (Go.parse text.toList).map fun tree => ⟨path, tree⟩

/-- The name opens with an upper-case letter, so that other packages see it. -/
def isExported (name : String) : Bool :=
  match name.toList with
  | [] => false
  | c :: _ => Text.isUpper c

namespace Tree

/-- The name in the first package clause. -/
def packageName (root : Tree) : Option String := do
  let clause ← root.children.find? fun t => t.kind == .packageClause
  let name ← clause.children.find? fun t => t.kind == .packageIdentifier
  return name.text

/-- The mark of a string. -/
def isQuote (c : Char) : Bool := c == '"' || c == '\x60'

/-- The import that a node states. -/
def import? (t : Tree) : Option Import :=
  if t.kind = .importSpec then
    (t.child? .path).map fun path =>
      { name := (t.child? .name).map text
        path := String.ofList (Text.trimEnds isQuote path.text.toList) }
  else none

/-- The imports of a file, in the order of the walk. -/
def imports (root : Tree) : List Import := root.walk.filterMap import?

/-- The call that a node states. -/
def call? (t : Tree) : Option Call :=
  if t.kind = .callExpression then
    match t with
    | .node _ _ children =>
      (Expr.ofRole .function children).map fun callee =>
        { callee, args := Expr.argumentsAmong children, line := t.row + 1 }
    | .leaf _ _ _ => none
  else none

/-- The calls of a file; a call stands before the calls inside it. -/
def calls (root : Tree) : List Call := root.walk.filterMap call?

/-- The name of a function that has no results and no parameters. -/
def plainFunction? (t : Tree) : Option String :=
  if t.kind = .functionDeclaration && (t.child? .result).isNone then
    match t.child? .parameters with
    | some parameters => if parameters.items.isEmpty then (t.child? .name).map text else none
    | none => none
  else none

/-- The exported functions of a file that have no results and no parameters. -/
def exportedFunctions (root : Tree) : List String :=
  (root.children.filterMap plainFunction?).filter isExported

end Tree

namespace Source

def packageName (s : Source) : Option String := s.tree.packageName

def imports (s : Source) : List Import := s.tree.imports

def calls (s : Source) : List Call := s.tree.calls

def exportedFunctions (s : Source) : List String := s.tree.exportedFunctions

end Source
end Graft.Go
