-- Pages: what a stub is, apart from the language that it is written in. A page
-- is a list of items, and each item stands on lines of its own. A hole shows
-- the value of its parameter, letter for letter. A page is whole, or it fills
-- the blocks of the layout that all injected sources share. How a page is
-- spelled, and what it is filled with, are said apart from each other.
import Graft.Stub.Catalog

namespace Graft.Stub

/-! ## Pages -/

inductive Piece
  | text (s : String)
  | hole (p : Param)
  /-- The entry of the list that a repeated line stands for. -/
  | entry
  deriving DecidableEq, Repr

/-- The blocks of the shared layout. -/
inductive Block
  | imports | symbols | body
  deriving DecidableEq, Repr

inductive Item
  | line (pieces : List Piece)
  /-- A line that is repeated for each entry of the list. -/
  | each (p : Param) (pieces : List Piece)
  /-- A line that stands only if the parameter is set. -/
  | whenSet (p : Param) (pieces : List Piece)
  /-- The place of a block. -/
  | slot (b : Block)
  deriving DecidableEq, Repr

/-- The number of lines that an item takes. A repeated line and a conditional one stand
between two lines that say so. -/
def Item.height : Item → Nat
  | .line _ => 1
  | .each _ _ => 3
  | .whenSet _ _ => 3
  | .slot _ => 1

/-- A line without holes. -/
def say (s : String) : Item := .line [.text s]

def gap : Item := .line []

def heights : List Item → Nat
  | [] => 0
  | i :: is => i.height + heights is

/-- What stands on a page. -/
inductive Content
  | whole (items : List Item)
  /-- Fills the blocks of the layout. -/
  | filling (imports symbols body : List Item)
  deriving DecidableEq, Repr

/-- A page of the name of its stub. -/
structure Page where
  name : String
  content : Content
  deriving DecidableEq, Repr

/-! ## Spelling a page -/

/-- A tag between marks, with its words apart. -/
def tag (mark : String) (words : List String) (closing : String) : String :=
  mark ++ String.join (words.map fun w => " " ++ w) ++ " " ++ closing

def holeTag (word : String) : String := tag "\x7b\x7b" [word] "\x7d\x7d"

def statementTag (words : List String) : String := tag "\x7b%" words "%\x7d"

/-- The name of the entry that a repeated line stands for. -/
def Param.entry : Param := ⟨"seeder"⟩

def Block.name : Block → String
  | .imports => "imports"
  | .symbols => "symbols"
  | .body => "body"

def Piece.spelled : Piece → String
  | .text s => s
  | .hole p => holeTag p.key
  | .entry => holeTag Param.entry.key

def spelledLine : List Piece → String
  | [] => ""
  | [p] => p.spelled
  | p :: ps => p.spelled ++ spelledLine ps

/-- The lines of an item. -/
def Item.lines : Item → List String
  | .line pieces => [spelledLine pieces]
  | .each p pieces =>
    [statementTag ["for", Param.entry.key, "in", p.key], spelledLine pieces,
      statementTag ["endfor"]]
  | .whenSet p pieces =>
    [statementTag ["if", p.key], spelledLine pieces, statementTag ["endif"]]
  | .slot b => [statementTag ["block", b.name] ++ statementTag ["endblock"]]

def layoutName : String := "inject/runtime.go.stub"

def fillingLines (b : Block) (items : List Item) : List String :=
  statementTag ["block", b.name] :: items.flatMap Item.lines ++ [statementTag ["endblock"]]

/-- The lines of a page. -/
def Content.lines : Content → List String
  | .whole items => items.flatMap Item.lines
  | .filling imports symbols body =>
    statementTag ["extends", "\"" ++ layoutName ++ "\""] ::
      (fillingLines .imports imports ++ fillingLines .symbols symbols ++ fillingLines .body body)

/-- The stub that a page is. -/
def Page.entry (p : Page) : Entry := ⟨p.name, p.content.lines⟩

/-! ## Filling a page -/

def endLine (s : String) : String := s ++ "\n"

/-- The text of a piece. `entry` is the entry that a repeated line stands for. -/
def Piece.fill (d : Data) (entry : String) (place : Undefined) : Piece → Except Undefined String
  | .text s => .ok s
  | .hole p =>
    match d.get? p with
    | some v => .ok v.shown
    | none => .error place
  | .entry => .ok entry

/-- The text of a line, without its end. -/
def fillLine (d : Data) (entry : String) (place : Undefined) :
    List Piece → Except Undefined String
  | [] => .ok ""
  | p :: ps => do
    let s ← p.fill d entry place
    let rest ← fillLine d entry place ps
    return s ++ rest

/-- The text of a repeated line. -/
def fillEach (d : Data) (place : Undefined) (pieces : List Piece) :
    List String → Except Undefined String
  | [] => .ok ""
  | e :: es => do
    let s ← fillLine d e place pieces
    let rest ← fillEach d place pieces es
    return endLine s ++ rest

/-- The text of an item that opens on line `line` of the stub. `block` gives the text of
a block. -/
def Item.fill (d : Data) (stub : String) (block : Block → Except Undefined String)
    (line : Nat) : Item → Except Undefined String
  | .line pieces => do
    let s ← fillLine d "" ⟨stub, line⟩ pieces
    return endLine s
  | .each p pieces =>
    match d.get? p with
    | some v => fillEach d ⟨stub, line + 1⟩ pieces v.entries
    | none => .error ⟨stub, line⟩
  | .whenSet p pieces =>
    match d.get? p with
    | some v =>
      if v.isSet then do
        let s ← fillLine d "" ⟨stub, line + 1⟩ pieces
        return endLine s
      else .ok ""
    | none => .error ⟨stub, line⟩
  | .slot b => block b

/-- The text of items the first of which opens on line `line`. -/
def fillItems (d : Data) (stub : String) (block : Block → Except Undefined String) :
    Nat → List Item → Except Undefined String
  | _, [] => .ok ""
  | line, i :: is => do
    let s ← i.fill d stub block line
    let rest ← fillItems d stub block (line + i.height) is
    return s ++ rest

def noBlocks : Block → Except Undefined String := fun _ => .ok ""

/-- The text of one block of a stub that fills the layout. The first line of the stub
names the layout, and each block stands between two lines that name it. -/
def fillBlock (d : Data) (stub : String) (imports symbols body : List Item) :
    Block → Except Undefined String
  | .imports => fillItems d stub noBlocks 3 imports
  | .symbols => fillItems d stub noBlocks (5 + heights imports) symbols
  | .body => fillItems d stub noBlocks (7 + heights imports + heights symbols) body

end Graft.Stub
