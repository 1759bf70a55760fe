-- Reading and filling templates. A template is texts, holes, loops,
-- conditions and blocks, and it may name another one first that lays it out:
-- then its blocks stand in the places of the blocks of the other. Of the
-- language of templates this is the part that stubs are written in; a
-- template with anything else in it is refused.
import Graft.Stub.Tags

namespace Graft.Stub

/-- A name without a value, and where it is used. -/
structure Undefined where
  /-- The stub whose text holds the use. -/
  stub : String
  line : Nat
  deriving DecidableEq, Repr

def Undefined.place (u : Undefined) : String :=
  " (in " ++ u.stub ++ ":" ++ toString u.line ++ ")"

def Undefined.message (u : Undefined) : String := "undefined value" ++ u.place

/-- What is said where a template is missing. -/
def Undefined.missing (u : Undefined) (layout : String) : String :=
  "template not found: template " ++ Text.quoted layout ++ " does not exist" ++ u.place

namespace Template

/-! ## Templates -/

inductive Expr
  | name (s : String)
  | text (s : String)
  deriving DecidableEq, Repr

inductive Node
  | text (s : String)
  | hole (place : Undefined) (e : Expr)
  /-- A part that is repeated, with a name for the entry that it stands for. -/
  | each (place : Undefined) (entry : String) (items : Expr) (body : List Node)
  /-- A part that stands only if the test is set. -/
  | whenSet (place : Undefined) (test : Expr) (body : List Node)
  | block (name : String) (body : List Node)
  deriving Repr

end Template

/-- A template; `layout` is the one that lays it out, and where that is said. -/
structure Template where
  name : String
  layout : Option (String × Undefined)
  nodes : List Template.Node
  deriving Repr

namespace Template

/-! ## Reading -/

/-- A template that breaks the rules of the language, and where. -/
structure Fault where
  stub : String
  line : Nat
  deriving DecidableEq, Repr

def Fault.message (f : Fault) : String := "syntax error" ++ (Undefined.mk f.stub f.line).place

/-- The words that statements open with. -/
inductive Verb
  | extends_ | block | endBlock | each | endEach | whenSet | endWhen
  deriving DecidableEq, Repr

def verbTable : List (String × Verb) :=
  [("extends", .extends_), ("block", .block), ("endblock", .endBlock), ("for", .each),
   ("endfor", .endEach), ("if", .whenSet), ("endif", .endWhen)]

def Verb.of? (word : String) : Option Verb := verbTable.lookup word

/-- Names that mean something of their own. -/
def reserved : List String := ["true", "True", "false", "False", "none", "None", "loop", "self"]

/-- A word that stands for a value, and its line. -/
def expr? : Placed → Option (Nat × Expr)
  | ⟨line, .name s⟩ => if reserved.contains s then none else some (line, .name s)
  | ⟨line, .text s⟩ => some (line, .text s)
  | ⟨_, .sign _⟩ => none

/-- A statement that is not ended yet. -/
inductive Open
  | each (place : Undefined) (entry : String) (items : Expr)
  | whenSet (place : Undefined) (test : Expr)
  | block (name : String)
  deriving DecidableEq, Repr

/-- The node of a statement that is ended. -/
def Open.close (body : List Node) : Open → Node
  | each place entry items => .each place entry items body
  | whenSet place test => .whenSet place test body
  | block name => .block name body

/-- A node behind others, the last of which stands first. Texts that stand side by side are
one. -/
def joined (n : Node) (ns : List Node) : List Node :=
  match n, ns with
  | .text s, .text t :: ns => .text (t ++ s) :: ns
  | .text s, ns => if s = "" then ns else .text s :: ns
  | n, ns => n :: ns

/-- What was read so far. -/
structure Reader where
  layout : Option (String × Undefined)
  /-- The names of the blocks. -/
  blocks : List String
  /-- The statements that are open, the inner ones first, each with the nodes in front of it. -/
  frames : List (Open × List Node)
  /-- The nodes of the innermost statement, the last ones first. -/
  nodes : List Node

namespace Reader

def start : Reader := ⟨none, [], [], []⟩

def push (n : Node) (r : Reader) : Reader := { r with nodes := joined n r.nodes }

def enter (o : Open) (r : Reader) : Reader :=
  { r with frames := (o, r.nodes) :: r.frames, nodes := [] }

/-- Ends the innermost statement, which must be one that `p` accepts. -/
def leave? (p : Open → Bool) (r : Reader) : Option Reader :=
  match r.frames with
  | (o, before) :: frames =>
    if p o then some { r with frames := frames, nodes := o.close r.nodes.reverse :: before }
    else none
  | [] => none

/-- Nothing was read yet. -/
def isFresh (r : Reader) : Bool := r.layout.isNone && r.frames.isEmpty && r.nodes.isEmpty

def isEach : Open → Bool
  | .each _ _ _ => true
  | _ => false

def isWhen : Open → Bool
  | .whenSet _ _ => true
  | _ => false

/-- The block has this name, if one is given. -/
def isBlock (name : Option String) : Open → Bool
  | .block b => name.all (· == b)
  | _ => false

/-- Takes a statement; `stub` is the name of the template. -/
def statement? (stub : String) (r : Reader) (verb : Verb) (words : List Placed) :
    Option Reader :=
  match verb, words with
  | .extends_, [⟨line, .text layout⟩] =>
    if r.isFresh then some { r with layout := some (layout, ⟨stub, line⟩) } else none
  | .block, [⟨_, .name b⟩] =>
    if r.blocks.contains b then none
    else some { r.enter (.block b) with blocks := b :: r.blocks }
  | .endBlock, [] => r.leave? (isBlock none)
  | .endBlock, [⟨_, .name b⟩] => r.leave? (isBlock (some b))
  | .each, [⟨_, .name entry⟩, ⟨_, .name between⟩, items] =>
    if between == "in" && !reserved.contains entry then
      (expr? items).map fun e => r.enter (.each ⟨stub, e.1⟩ entry e.2)
    else none
  | .endEach, [] => r.leave? isEach
  | .whenSet, [test] => (expr? test).map fun e => r.enter (.whenSet ⟨stub, e.1⟩ e.2)
  | .endWhen, [] => r.leave? isWhen
  | _, _ => none

/-- Takes a tag. -/
def tag? (stub : String) (r : Reader) (t : Tag) : Option Reader :=
  match t.mark, t.words with
  | .hole, [w] => (expr? w).map fun e => r.push (.hole ⟨stub, e.1⟩ e.2)
  | .statement, ⟨_, .name s⟩ :: words => (Verb.of? s).bind fun verb => r.statement? stub verb words
  | .comment, _ => some r
  | _, _ => none

def take (stub : String) (r : Reader) : Chunk → Except Fault Reader
  | .text cs => .ok (r.push (.text (String.ofList cs)))
  | .tag t =>
    match r.tag? stub t with
    | some r' => .ok r'
    | none => .error ⟨stub, t.line⟩
  | .junk line => .error ⟨stub, line⟩

end Reader

/-- The line on which a text ends. -/
def lastLine (cs : List Char) : Nat := 1 + lineEnds cs

/-- Reads a template. -/
def read (s : Settings) (name source : String) : Except Fault Template := do
  let r ← (chunks s source.toList).foldlM (Reader.take name) .start
  if r.frames.isEmpty then return ⟨name, r.layout, r.nodes.reverse⟩
  else .error ⟨name, lastLine source.toList⟩

/-! ## Blocks -/

/-- Blocks by their names; the first one of a name counts. -/
abbrev Blocks := List (String × List Node)

mutual
/-- The node with the blocks of others in the places of its own. -/
def Node.settled (outer : Blocks) : Node → Node
  | .text s => .text s
  | .hole place e => .hole place e
  | .each place entry items body => .each place entry items (settledAll outer body)
  | .whenSet place test body => .whenSet place test (settledAll outer body)
  | .block name body =>
    match outer.lookup name with
    | some ns => .block name ns
    | none => .block name (settledAll outer body)

def settledAll (outer : Blocks) : List Node → List Node
  | [] => []
  | n :: ns => n.settled outer :: settledAll outer ns
end

mutual
/-- The blocks in a node. -/
def Node.blocks : Node → Blocks
  | .text _ => []
  | .hole _ _ => []
  | .each _ _ _ body => blocksOf body
  | .whenSet _ _ body => blocksOf body
  | .block name body => (name, body) :: blocksOf body

def blocksOf : List Node → Blocks
  | [] => []
  | n :: ns => n.blocks ++ blocksOf ns
end

/-! ## Filling -/

/-- Why a template could not be filled. -/
inductive Stop
  | undefined (use : Undefined)
  /-- There is no template to lay it out. -/
  | noLayout (layout : String) (place : Undefined)
  deriving DecidableEq, Repr

def Expr.value? (d : Data) : Expr → Option Value
  | .name s => d.get? ⟨s⟩
  | .text s => some (.text s)

def escapedChar (c : Char) : String :=
  match c with
  | '<' => "&lt;"
  | '>' => "&gt;"
  | '&' => "&amp;"
  | '"' => "&quot;"
  | '\'' => "&#x27;"
  | '/' => "&#x2f;"
  | _ => String.ofList [c]

/-- The text as it is written. -/
def Escape.write : Escape → String → String
  | .none, s => s
  | .html, s => String.join (s.toList.map escapedChar)

/-- The texts of all entries, one behind the other. -/
def forEach (f : String → Except Undefined String) : List String → Except Undefined String
  | [] => .ok ""
  | e :: es => do
    let s ← f e
    let rest ← forEach f es
    return s ++ rest

/-- How a filling goes: what may be undefined, how values are written, and whether blocks
are shown. -/
structure Mode where
  leniency : Leniency
  escape : Escape
  showsBlocks : Bool

mutual
/-- The text of a node. -/
def Node.fill (m : Mode) (d : Data) : Node → Except Undefined String
  | .text s => .ok s
  | .hole place e =>
    match e.value? d with
    | some v => .ok (m.escape.write v.shown)
    | none => if m.leniency = .lenient then .ok "" else .error place
  | .each place entry items body =>
    match items.value? d with
    | some v => forEach (fun e => fillAll m (d.named ⟨entry⟩ e) body) v.entries
    | none => if m.leniency = .lenient then .ok "" else .error place
  | .whenSet place test body =>
    match test.value? d with
    | some v => if v.isSet then fillAll m d body else .ok ""
    | none => if m.leniency = .strict then .error place else .ok ""
  | .block _ body => if m.showsBlocks then fillAll m d body else .ok ""

def fillAll (m : Mode) (d : Data) : List Node → Except Undefined String
  | [] => .ok ""
  | n :: ns => do
    let s ← n.fill m d
    let rest ← fillAll m d ns
    return s ++ rest
end

/-- The templates that have another name. -/
def without (name : String) (others : List Template) : List Template :=
  others.filter fun o => o.name != name

theorem length_without {o : Template} {others : List Template} (h : o ∈ others) :
    (without o.name others).length < others.length := by
  refine List.length_filter_lt_length_iff_exists.mpr ⟨o, h, ?_⟩
  simp

/-- The text of a template. `others` are the templates that may lay it out, and `outer` are
the blocks of those that it lays out itself. What stands outside the blocks of a template
that another one lays out is evaluated, but it is not shown. -/
def fill (leniency : Leniency) (escape : Escape) (d : Data) (others : List Template)
    (outer : Blocks) (t : Template) : Except Stop String :=
  let nodes := settledAll outer t.nodes
  match t.layout with
  | none => (fillAll ⟨leniency, escape, true⟩ d nodes).mapError .undefined
  | some (layout, place) =>
    match _ : others.find? fun o => o.name == layout with
    | none => .error (.noLayout layout place)
    | some o => do
      let _ ← (fillAll ⟨leniency, escape, false⟩ d nodes).mapError .undefined
      fill leniency escape d (without o.name others) (outer ++ blocksOf nodes) o
termination_by others.length
decreasing_by
  rename_i hfound
  exact length_without (List.mem_of_find?_eq_some hfound)

end Template
end Graft.Stub
