-- Expressions as the analyses see them: names, selections and calls. All
-- other expressions are kept as the text that they have in the source.
import Graft.Go.Tree

namespace Graft.Go

inductive Expr
  | ident (name : String)
  | selector (base : Expr) (field : String)
  | call (callee : Expr) (args : List Expr)
  /-- Any other expression: what it is, and its text. -/
  | other (kind : String) (text : String)
  deriving Repr, Inhabited

namespace Expr

mutual
/-- The expression as it is written, without comments and with one blank behind each
comma. -/
def display : Expr → String
  | ident name => name
  | selector base field => display base ++ "." ++ field
  | call callee args => display callee ++ "(" ++ displayArgs args ++ ")"
  | other _ text => text

def displayArgs : List Expr → String
  | [] => ""
  | [e] => display e
  | e :: es => display e ++ ", " ++ displayArgs es
end

/-- The name, if the expression is one. -/
def ident? : Expr → Option String
  | ident name => some name
  | _ => none

/-- What is selected from, and the name that is selected. -/
def selector? : Expr → Option (Expr × String)
  | selector base field => some (base, field)
  | _ => none

def asWritten (t : Tree) : Expr := other t.kind.name t.text

mutual
/-- The expression that a node stands for. -/
def ofTree : Tree → Expr
  | .leaf kind role token =>
    if kind = .identifier then ident (String.ofList token.text)
    else asWritten (.leaf kind role token)
  | .node kind role children =>
    if kind = .selectorExpression then
      match ofRole .operand children, (Tree.node kind role children).child? .field with
      | some base, some field => selector base field.text
      | _, _ => asWritten (.node kind role children)
    else if kind = .callExpression then
      match ofRole .function children with
      | some callee => call callee (argumentsAmong children)
      | none => asWritten (.node kind role children)
    else asWritten (.node kind role children)

/-- The expression of the first child with the role. -/
def ofRole (r : Role) : List Tree → Option Expr
  | [] => none
  | t :: ts => if t.role == some r then some (ofTree t) else ofRole r ts

/-- The arguments in the first argument list among the children. -/
def argumentsAmong : List Tree → List Expr
  | [] => []
  | .leaf _ role _ :: ts => if role == some .arguments then [] else argumentsAmong ts
  | .node _ role children :: ts =>
    if role == some .arguments then argumentsOf children else argumentsAmong ts

/-- The expressions in an argument list: comments and punctuation are none. -/
def argumentsOf : List Tree → List Expr
  | [] => []
  | t :: ts =>
    if t.isNamed && !t.isComment then ofTree t :: argumentsOf ts else argumentsOf ts
end

end Expr
end Graft.Go
