-- Grammar rules as data, and the one reader that follows them. A choice takes
-- the first alternative that can be read. The reader sees the class of each
-- item and whether a line ended before it, so items that agree in both are
-- read alike.
import Graft.Go.Tree

namespace Graft.Go

/-- The parts of the grammar that rules refer to. -/
inductive Part
  | expression | comparison | sum | product | unary | primary
  | expressionList | type | namedType | parameters | literalValue
  | block | statement | statementList | simpleStatement | ifStatement | topDeclaration
  deriving DecidableEq, Repr

/-- How the reader takes line ends and braces. -/
structure Mode where
  /-- A line end can close what is being read. -/
  lines : Bool
  /-- A brace behind a type name opens a literal. -/
  literals : Bool
  deriving DecidableEq, Repr

inductive Rule
  /-- Reads nothing. -/
  | done
  /-- Cannot be read. -/
  | never
  /-- One item of the class. -/
  | token (sort : Class) (kind : Kind)
  /-- A name, or a keyword that is not one of those avoided. -/
  | word (avoided : List Keyword) (kind : Kind)
  /-- The end of a statement: a line end, a semicolon or a null character. -/
  | terminator
  /-- Reads nothing; no line end may stand here where lines matter. -/
  | here
  /-- Reads nothing; braces may open literals here. -/
  | openLiterals
  /-- Reads nothing, and only where the rule cannot be read. -/
  | absent (r : Rule)
  | seq (r s : Rule)
  | alt (r s : Rule)
  | many (r : Rule)
  | node (kind : Kind) (r : Rule)
  /-- Gives the role to what is read. -/
  | role (role : Role) (r : Rule)
  /-- Reads the first rule and then the second as often as it goes on; each time the
  node that is read takes what stands before it as its first child. -/
  | chain (first more : Rule)
  /-- Reads the first rule; what follows by the second takes it as its first child, and
  if nothing follows it stands in a node of this kind, or by itself. -/
  | once (alone : Option Kind) (first more : Rule)
  /-- Whether line ends matter in what is read. -/
  | lines (matter : Bool) (r : Rule)
  /-- Whether braces may open literals in what is read. -/
  | literals (open? : Bool) (r : Rule)
  | part (p : Part)

/-- What the rules read: the items and the nodes over them. -/
inductive Shape
  | leaf (kind : Kind) (role : Option Role) (item : Item)
  | node (kind : Kind) (role : Option Role) (children : List Shape)

namespace Shape

def withRole (r : Role) : Shape → Shape
  | leaf k _ i => leaf k (some r) i
  | node k _ ss => node k (some r) ss

/-- The role of the child on the left in a node that continues it. -/
def leftRole : Kind → Option Role
  | .callExpression => some .function
  | .selectorExpression => some .operand
  | _ => none

/-- The node over what stands before it and its own children. -/
def takeLeft (left : List Shape) : Shape → Shape
  | leaf k r i => leaf k r i
  | node k r ss =>
    match leftRole k with
    | some ro => node k r (left.map (withRole ro) ++ ss)
    | none => node k r (left ++ ss)

/-- What stands by itself, in a node of the kind if there is one. -/
def standAlone (alone : Option Kind) (left : List Shape) : List Shape :=
  match alone with
  | some k => [node k none left]
  | none => left

end Shape

/-- What was read, and the items that follow. -/
abbrev Reading := Option (List Shape × List Item)

/-- Reads one item for which `p` holds. -/
def readItem (p : Class → Bool) (kind : Kind) : List Item → Reading
  | [] => none
  | i :: rest => if p i.token.sort then some ([.leaf kind none i], rest) else none

/-- The word can stand for a name. -/
def canName (avoided : List Keyword) : Class → Bool
  | .name => true
  | .keyword k => !avoided.contains k
  | _ => false

/-- A terminator. A line end is used up by it. -/
def readTerminator : List Item → Reading
  | [] => none
  | i :: rest =>
    if i.opensLine then some ([], { i with opensLine := false } :: rest)
    else if i.token.sort = .mark .semicolon || i.token.sort = .mark .nul then
      some ([.leaf .mark none i], rest)
    else none

/-- Reads with `step` as often as it goes, at most `n` times. -/
def readMany (step : List Item → Reading) : Nat → List Item → List Shape × List Item
  | 0, items => ([], items)
  | n + 1, items =>
    match step items with
    | none => ([], items)
    | some (ss, rest) =>
      let r := readMany step n rest
      (ss ++ r.1, r.2)

/-- Goes on from `left` with `step` as often as it goes, at most `n` times. -/
def readOn (step : List Item → Reading) :
    Nat → List Shape → List Item → List Shape × List Item
  | 0, left, items => (left, items)
  | n + 1, left, items =>
    match step items with
    | some ([s], rest) => readOn step n [s.takeLeft left] rest
    | _ => (left, items)

/-- Follows a rule. The first argument bounds the depth of rules; `grammar` gives the
rule of each part. -/
def Rule.read (grammar : Part → Rule) : Nat → Mode → Rule → List Item → Reading
  | 0, _, _, _ => none
  | fuel + 1, mode, rule, items =>
    match rule with
    | .done => some ([], items)
    | .never => none
    | .token sort kind => readItem (· == sort) kind items
    | .word avoided kind => readItem (canName avoided) kind items
    | .terminator => readTerminator items
    | .here =>
      match items with
      | i :: _ => if mode.lines && i.opensLine then none else some ([], items)
      | [] => some ([], items)
    | .openLiterals => if mode.literals then some ([], items) else none
    | .absent r =>
      match r.read grammar fuel mode items with
      | some _ => none
      | none => some ([], items)
    | .seq r s =>
      match r.read grammar fuel mode items with
      | none => none
      | some (ss, rest) =>
        match s.read grammar fuel mode rest with
        | none => none
        | some (ts, rest') => some (ss ++ ts, rest')
    | .alt r s =>
      match r.read grammar fuel mode items with
      | some found => some found
      | none => s.read grammar fuel mode items
    | .many r => some (readMany (r.read grammar fuel mode) fuel items)
    | .node kind r =>
      (r.read grammar fuel mode items).map fun found => ([.node kind none found.1], found.2)
    | .role ro r =>
      (r.read grammar fuel mode items).map fun found => (found.1.map (Shape.withRole ro), found.2)
    | .chain first more =>
      match first.read grammar fuel mode items with
      | none => none
      | some (left, rest) => some (readOn (more.read grammar fuel mode) fuel left rest)
    | .once alone first more =>
      match first.read grammar fuel mode items with
      | none => none
      | some (left, rest) =>
        match more.read grammar fuel mode rest with
        | some ([s], rest') => some ([s.takeLeft left], rest')
        | _ => some (Shape.standAlone alone left, rest)
    | .lines matter r => r.read grammar fuel { mode with lines := matter } items
    | .literals open? r => r.read grammar fuel { mode with literals := open? } items
    | .part p => (grammar p).read grammar fuel mode items

/-! ## Rules made of rules -/

namespace Rule

/-- One after the other. -/
def all (rs : List Rule) : Rule := rs.foldr seq done

/-- The first that can be read. -/
def any (rs : List Rule) : Rule := rs.foldr alt never

def maybe (r : Rule) : Rule := alt r done

def mark (m : Mark) : Rule := token (.mark m) .mark

def keyword (k : Keyword) : Rule := token (.keyword k) .mark

/-- One or more, with the mark between them. -/
def sepBy (m : Mark) (r : Rule) : Rule := seq r (many (seq (mark m) r))

end Rule

/-! ## From what was read to the tree -/

namespace Shape

mutual
/-- The comments before the first item. -/
def comments : Shape → List Token
  | leaf _ _ i => i.comments
  | node _ _ ss => commentsFirst ss

def commentsFirst : List Shape → List Token
  | [] => []
  | s :: _ => comments s
end

def commentTree (t : Token) : Tree := .leaf .comment none t

mutual
/-- The tree without the comments before its first item. -/
def tree : Shape → Tree
  | leaf k r i => .leaf k r i.token
  | node k r [] => .node k r []
  | node k r (s :: ss) => .node k r (tree s :: trees ss)

/-- Trees side by side, each behind the comments before it. -/
def trees : List Shape → List Tree
  | [] => []
  | s :: ss => (comments s).map commentTree ++ tree s :: trees ss
end

end Shape
end Graft.Go
