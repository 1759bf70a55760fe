-- What an injection is doing: the phase that it has reached, the project
-- that it works on, and the symbol that it resolves or runs. The phases are
-- ordered.
namespace Graft

/-- The phases of an injection, in order. -/
inductive Phase
  | created | manifestValidated | versionChecked | callSiteResolved | templateRendered
  | tempFileWritten | dependenciesEnsured | built | cleanup | loaded | symbolResolved | invoking
  deriving DecidableEq, Repr

namespace Phase

def name : Phase → String
  | .created => "created"
  | .manifestValidated => "manifest_validated"
  | .versionChecked => "version_checked"
  | .callSiteResolved => "call_site_resolved"
  | .templateRendered => "template_rendered"
  | .tempFileWritten => "temp_file_written"
  | .dependenciesEnsured => "dependencies_ensured"
  | .built => "built"
  | .cleanup => "cleanup"
  | .loaded => "loaded"
  | .symbolResolved => "symbol_resolved"
  | .invoking => "invoking"

/-- The phases in their order. -/
def all : List Phase :=
  [.created, .manifestValidated, .versionChecked, .callSiteResolved, .templateRendered,
   .tempFileWritten, .dependenciesEnsured, .built, .cleanup, .loaded, .symbolResolved, .invoking]

/-- The place of a phase in the order, from zero. -/
def rank : Phase → Nat
  | .created => 0
  | .manifestValidated => 1
  | .versionChecked => 2
  | .callSiteResolved => 3
  | .templateRendered => 4
  | .tempFileWritten => 5
  | .dependenciesEnsured => 6
  | .built => 7
  | .cleanup => 8
  | .loaded => 9
  | .symbolResolved => 10
  | .invoking => 11

/-- The phase is later than the other. -/
def after (p q : Phase) : Bool := q.rank < p.rank

end Phase

/-- What is known about the work that is going on. -/
structure Context where
  phase : Option Phase
  project : Option String
  symbol : Option String
  deriving DecidableEq, Repr

namespace Context

def empty : Context := ⟨none, none, none⟩

def inPhase (p : Phase) (c : Context) : Context := { c with phase := some p }

def onProject (directory : String) (c : Context) : Context := { c with project := some directory }

def onSymbol (name : String) (c : Context) : Context := { c with symbol := some name }

end Context

/-! ## Guards -/

/-- A context with the guards that were taken. A guard keeps the context from before it
was taken; dropping it brings that context back, and it can be dropped once. -/
structure Guarded where
  context : Context
  guards : List (Option Context)

namespace Guarded

def start : Guarded := ⟨Context.empty, []⟩

/-- Changes the context until the guard is dropped. -/
def take (change : Context → Context) (g : Guarded) : Guarded :=
  ⟨change g.context, g.guards ++ [some g.context]⟩

/-- Changes the context for good. -/
def advance (change : Context → Context) (g : Guarded) : Guarded :=
  { g with context := change g.context }

/-- Drops the guard that was taken as number `i`. -/
def drop (i : Nat) (g : Guarded) : Guarded :=
  match g.guards[i]? with
  | some (some before) => ⟨before, g.guards.set i none⟩
  | _ => g

/-- Forgets the context; the guards stay. -/
def reset (g : Guarded) : Guarded := { g with context := Context.empty }

end Guarded
end Graft
