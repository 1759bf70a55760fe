-- The moves of a step. A step looks at files, notes what it does and changes
-- files one move after the other, and which move comes next depends on the
-- answers so far. Taken apart into its moves, a step can be stopped between
-- any two of them, and the world can be looked at there, or be changed by
-- others.
import Graft.Proofs.Steps
import Graft.Toolchain

namespace Graft

/-! ## Moves -/

/-- One thing that a step does. -/
inductive Move
  | host
  /-- Asks for the working directory. -/
  | here
  /-- Asks for the build tool that the environment names. -/
  | binary
  | list (directory : String)
  /-- Reads what a path leads to. -/
  | find (path : String)
  /-- Asks whether a path leads to a program, without reading it. -/
  | probe (path : String)
  | note (e : Event)
  /-- Changes the context, and is answered the one before. -/
  | turn (change : Context → Context)
  | draw
  | create (path : String) (bytes : List UInt8)
  | write (path : String) (bytes : List UInt8)
  | remove (path : String)
  | launch (l : Launch)
  | ask (tool : BuildTool) (directory : String) (c : ToolCall)

namespace Move

/-- What a move can be answered. -/
abbrev Answer : Move → Type
  | host => Host
  | here => Files.Place
  | binary => Option String
  | list _ => Except Files.Fault (List Files.View.Listed)
  | find _ => Except Files.Fault Files.Entry
  | probe _ => Bool
  | note _ => Unit
  | turn _ => Context
  | draw => Suffix
  | create _ _ => Except Files.Fault Act.Written
  | write _ _ => Except Files.Fault Unit
  | remove _ => Except Files.Fault Unit
  | launch _ => Except Files.Fault Outcome
  | ask _ _ _ => Except BuildError Unit

/-- Makes a move in a world: its answer, and the world after it. -/
def make : (m : Move) → Host → World → m.Answer × World
  | host, h, w => (h, w)
  | here, _, w => (w.cwd, w)
  | binary, _, w => (w.goBinary, w)
  | list directory, _, w => (w.view.list directory, w)
  | find path, _, w => (w.view.find path, w)
  | probe path, _, w => (Toolchain.canRun w.view path, w)
  | note e, _, w => ((), w.record e)
  | turn change, _, w => (w.context, { w with context := change w.context })
  | draw, h, w => (w.nextSuffix h, { w with drawn := w.drawn + 1 })
  | create path bytes, h, w => (Act.createFile path bytes).perform h w
  | write path bytes, h, w => (Act.writeFile path bytes).perform h w
  | remove path, h, w => (Act.removeFile path).perform h w
  | launch l, h, w => (Act.launch l).perform h w
  | ask tool directory c, h, w => (tool.ask directory c).perform h w

/-! ### What moves change -/

variable (h : Host) (w : World)

theorem exists_make_create (path : String) (bytes : List UInt8) :
    ∃ store, ((create path bytes).make h w).2 = { w.record (.creating path) with store } := by
  show ∃ store, ((Act.createFile path bytes).perform h w).2 = _
  unfold Act.createFile
  rw [Act.perform_ofFunction]
  dsimp only
  split
  · exact ⟨_, rfl⟩
  · split
    · exact ⟨_, rfl⟩
    · split <;> exact ⟨_, rfl⟩

theorem exists_make_write (path : String) (bytes : List UInt8) :
    ∃ store, ((write path bytes).make h w).2 = { w.record (.creating path) with store } := by
  show ∃ store, ((Act.writeFile path bytes).perform h w).2 = _
  unfold Act.writeFile
  rw [Act.perform_ofFunction]
  dsimp only
  split
  · exact ⟨_, rfl⟩
  · split
    · exact ⟨_, rfl⟩
    · split <;> exact ⟨_, rfl⟩

theorem exists_make_remove (path : String) :
    ∃ store, ((remove path).make h w).2 = { w.record (.removing path) with store } := by
  show ∃ store, ((Act.removeFile path).perform h w).2 = _
  unfold Act.removeFile
  rw [Act.perform_ofFunction]
  dsimp only
  split
  · exact ⟨_, rfl⟩
  · split <;> exact ⟨_, rfl⟩

theorem exists_make_launch (l : Launch) :
    ∃ store, ((launch l).make h w).2 = { w.record (.launched l) with store } := by
  show ∃ store, ((Act.launch l).perform h w).2 = _
  unfold Act.launch
  rw [Act.perform_ofFunction]
  dsimp only
  split <;> exact ⟨_, rfl⟩

end Move

/-- What is left to do: nothing but to give a result, or a move and what follows its
answer. -/
inductive Routine (ε α : Type)
  | done (r : Except ε α)
  | next (m : Move) (rest : m.Answer → Routine ε α)

namespace Routine

variable {ε ε' α β : Type}

/-- Makes all moves, one right after the other. -/
def run : Routine ε α → Host → World → Except ε α × World
  | done r, _, w => (r, w)
  | next m rest, h, w => (rest (m.make h w).1).run h (m.make h w).2

/-- The moves that are made, each with the world in which it is made. -/
def points : Routine ε α → Host → World → List (Move × World)
  | done _, _, _ => []
  | next m rest, h, w => (m, w) :: (rest (m.make h w).1).points h (m.make h w).2

/-- Goes on with the result. -/
def andThen : Routine ε α → (Except ε α → Routine ε' β) → Routine ε' β
  | done r, f => f r
  | next m rest, f => next m fun x => (rest x).andThen f

theorem run_andThen (r : Routine ε α) (f : Except ε α → Routine ε' β) (h : Host) (w : World) :
    (r.andThen f).run h w = (f (r.run h w).1).run h (r.run h w).2 := by
  induction r generalizing w with
  | done r => rfl
  | next m rest ih => exact ih _ _

theorem andThen_assoc {ε'' γ : Type} (r : Routine ε α) (f : Except ε α → Routine ε' β)
    (g : Except ε' β → Routine ε'' γ) :
    (r.andThen f).andThen g = r.andThen fun x => (f x).andThen g := by
  induction r with
  | done r => rfl
  | next m rest ih => exact congrArg (next m) (funext ih)

theorem points_andThen (r : Routine ε α) (f : Except ε α → Routine ε' β) (h : Host) (w : World) :
    (r.andThen f).points h w = r.points h w ++ (f (r.run h w).1).points h (r.run h w).2 := by
  induction r generalizing w with
  | done r => rfl
  | next m rest ih => exact congrArg ((m, w) :: ·) (ih _ _)

/-- A single move. -/
def one (m : Move) : Routine ε m.Answer := next m fun x => done (.ok x)

/-- A single move that may fail. -/
def oneOf {m : Move} (f : m.Answer → Except ε α) : Routine ε α := next m fun x => done (f x)

end Routine

/-! ## Looking at files -/

/-- What is looked at, one thing after the other. -/
inductive Look (α : Type)
  | seen (x : α)
  | here (rest : Files.Place → Look α)
  | list (directory : String) (rest : Except Files.Fault (List Files.View.Listed) → Look α)
  | find (path : String) (rest : Except Files.Fault Files.Entry → Look α)
  | probe (path : String) (rest : Bool → Look α)

namespace Look

variable {ε α β : Type}

def bind : Look α → (α → Look β) → Look β
  | seen x, f => f x
  | here rest, f => here fun p => (rest p).bind f
  | list directory rest, f => list directory fun r => (rest r).bind f
  | find path rest, f => find path fun r => (rest r).bind f
  | probe path rest, f => probe path fun b => (rest b).bind f

instance : Monad Look where
  pure := seen
  bind := bind

/-- What is seen in a view. -/
def seenIn (v : Files.View) : Look α → α
  | seen x => x
  | here rest => (rest v.cwd).seenIn v
  | list directory rest => (rest (v.list directory)).seenIn v
  | find path rest => (rest (v.find path)).seenIn v
  | probe path rest => (rest (Toolchain.canRun v path)).seenIn v

@[simp] theorem seenIn_pure (v : Files.View) (x : α) : (pure x : Look α).seenIn v = x := rfl

@[simp] theorem seenIn_bind (v : Files.View) (l : Look α) (f : α → Look β) :
    (l >>= f).seenIn v = (f (l.seenIn v)).seenIn v := by
  induction l with
  | seen x => rfl
  | here rest ih => exact ih _
  | list directory rest ih => exact ih _
  | find path rest ih => exact ih _
  | probe path rest ih => exact ih _

/-- The moves that look, and what follows. -/
def routine : Look α → (α → Routine ε β) → Routine ε β
  | seen x, k => k x
  | here rest, k => .next .here fun p => (rest p).routine k
  | list directory rest, k => .next (.list directory) fun r => (rest r).routine k
  | find path rest, k => .next (.find path) fun r => (rest r).routine k
  | probe path rest, k => .next (.probe path) fun b => (rest b).routine k

/-- Looking changes nothing. -/
theorem run_routine (l : Look α) (k : α → Routine ε β) (h : Host) (w : World) :
    (l.routine k).run h w = (k (l.seenIn w.view)).run h w := by
  induction l with
  | seen x => rfl
  | here rest ih => exact ih _
  | list directory rest ih => exact ih _
  | find path rest ih => exact ih _
  | probe path rest ih => exact ih _

end Look

/-! ## Steps as moves -/

/-- A step as a routine: the moves come to what the step comes to. -/
structure Cut {ε α : Type} (a : Act ε α) where
  routine : Routine ε α
  run_eq : ∀ h w, routine.run h w = a.perform h w

namespace Cut

open Routine

variable {ε ε' α β : Type}

/-! ### Single moves -/

def ofExcept (r : Except ε α) : Cut (Act.ofExcept r) := ⟨done r, fun _ _ => rfl⟩

def pure (x : α) : Cut (Pure.pure x : Act ε α) := ⟨done (.ok x), fun _ _ => rfl⟩

def fail (e : ε) : Cut (Act.fail e : Act ε α) := ofExcept (.error e)

def read : Cut (MonadReaderOf.read : Act ε Host) := ⟨one .host, fun _ _ => rfl⟩

def record (e : Event) : Cut (Act.record e : Act ε Unit) := ⟨one (.note e), fun _ _ => rfl⟩

def info (text : String) : Cut (Act.info text : Act ε Unit) := record _

def warn (text : String) : Cut (Act.warn text : Act ε Unit) := record _

/-- The phase is set, and then it is noted. -/
def advance (p : Phase) : Cut (Act.advance p : Act ε Unit) :=
  ⟨next (.turn (Context.inPhase p)) fun _ => one (.note (.entered p)), fun _ _ => rfl⟩

def drawSuffix : Cut (Act.drawSuffix : Act ε Suffix) := ⟨one .draw, fun _ _ => rfl⟩

def createFile (path : String) (bytes : List UInt8) : Cut (Act.createFile path bytes) :=
  ⟨oneOf (m := .create path bytes) id, fun _ _ => rfl⟩

def writeFile (path : String) (bytes : List UInt8) : Cut (Act.writeFile path bytes) :=
  ⟨oneOf (m := .write path bytes) id, fun _ _ => rfl⟩

def removeFile (path : String) : Cut (Act.removeFile path) :=
  ⟨oneOf (m := .remove path) id, fun _ _ => rfl⟩

def launch (l : Launch) : Cut (Act.launch l) := ⟨oneOf (m := .launch l) id, fun _ _ => rfl⟩

/-- A build tool is asked in one move. -/
def askAtOnce (tool : BuildTool) (directory : String) (c : ToolCall) : Cut (tool.ask directory c) :=
  ⟨oneOf (m := .ask tool directory c) id, fun _ _ => rfl⟩

/-! ### Steps around steps -/

section Around

variable {a : Act ε α} {f : α → Act ε β}

def congr {b : Act ε α} (h : a = b) (c : Cut a) : Cut b := ⟨c.routine, h ▸ c.run_eq⟩

/-- What follows a result, unless it is a failure. -/
def following (cf : ∀ x, Cut (f x)) : Except ε α → Routine ε β
  | .ok x => (cf x).routine
  | .error e => done (.error e)

def bind (ca : Cut a) (cf : ∀ x, Cut (f x)) : Cut (a >>= f) where
  routine := ca.routine.andThen (following cf)
  run_eq h w := by
    rw [run_andThen, ca.run_eq, Act.perform_bind]
    rcases a.perform h w with ⟨e | x, u⟩
    · rfl
    · exact (cf x).run_eq h u

def attempt (ca : Cut a) : Cut (Act.attempt a : Act ε' (Except ε α)) where
  routine := ca.routine.andThen fun r => done (.ok r)
  run_eq h w := by
    rw [run_andThen, ca.run_eq]
    rfl

def mapError (g : ε → ε') (ca : Cut a) : Cut (Act.mapError g a) where
  routine := ca.routine.andThen fun r => done (r.mapError g)
  run_eq h w := by
    rw [run_andThen, ca.run_eq]
    rfl

/-- The context is changed first, and the one from before is set again at last. -/
def within (change : Context → Context) (ca : Cut a) : Cut (Act.within change a) where
  routine := next (.turn change) fun before =>
    ca.routine.andThen fun r => next (.turn fun _ => before) fun _ => done r
  run_eq h w := by
    unfold run
    rw [run_andThen, ca.run_eq]
    rfl

def inPhase (p : Phase) (ca : Cut a) : Cut (Act.inPhase p a) :=
  within _ (bind (record _) fun _ => ca)

def ite {b : Act ε α} (p : Prop) [Decidable p] (ca : Cut a) (cb : Cut b) :
    Cut (if p then a else b) where
  routine := if p then ca.routine else cb.routine
  run_eq h w := by
    split
    · exact ca.run_eq h w
    · exact cb.run_eq h w

/-- The moves of what follows come behind those of the step. -/
theorem points_bind_of_ok {ca : Cut a} {cf : ∀ x, Cut (f x)} {h : Host} {w u : World} {x : α}
    (ha : ca.routine.run h w = (.ok x, u)) :
    (bind ca cf).routine.points h w = ca.routine.points h w ++ (cf x).routine.points h u := by
  refine (points_andThen _ _ h w).trans ?_
  rw [ha]
  rfl

theorem points_within (change : Context → Context) (ca : Cut a) (h : Host) (w : World) :
    (within change ca).routine.points h w =
      (.turn change, w) :: (ca.routine.points h { w with context := change w.context } ++
        [(.turn fun _ => w.context,
          (ca.routine.run h { w with context := change w.context }).2)]) :=
  congrArg (_ :: ·) (points_andThen ca.routine _ h _)

end Around

/-- A removal that fails is only reported. -/
def removeOrWarn (complaint path : String) : Cut (Act.removeOrWarn complaint path : Act ε Unit) :=
  bind (attempt (removeFile path)) fun
    | .ok () => pure ()
    | .error _ => warn _

section Views

variable {l : Look α} {g : Files.View → α}

/-- A view is looked at only where what follows depends on it. -/
def viewing {k : α → Act ε β} (l : Look α) (h : ∀ v, l.seenIn v = g v) (ck : ∀ x, Cut (k x)) :
    Cut (Act.view >>= fun v => k (g v)) where
  routine := l.routine fun x => (ck x).routine
  run_eq host w := by
    rw [Look.run_routine, h, Act.perform_bind]
    exact (ck (g w.view)).run_eq host w

/-- A result that is seen, and what follows it. -/
def seeing {γ : Type} {k : β → Act ε γ} {g : Files.View → Except ε β} (l : Look (Except ε β))
    (h : ∀ v, l.seenIn v = g v) (ck : ∀ x, Cut (k x)) :
    Cut (Act.view >>= fun v => Act.ofExcept (g v) >>= k) :=
  viewing (k := fun r => Act.ofExcept r >>= k) l h fun r => bind (ofExcept r) ck

/-- A result that is seen. -/
def sight {g : Files.View → Except ε β} (l : Look (Except ε β)) (h : ∀ v, l.seenIn v = g v) :
    Cut (Act.view >>= fun v => Act.ofExcept (g v)) :=
  viewing l h ofExcept

end Views
end Cut
end Graft
