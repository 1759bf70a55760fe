-- What the context says while an injected file is in a project. From the
-- moment in which the file is created up to the attempt to remove it, the
-- context names the project and a phase in which a file may be left, whatever
-- goes wrong on the way. So a crash at any of these points says where to look.
import Graft.Crash
import Graft.Proofs.Runs
import Graft.Proofs.Watching

namespace Graft

/-! ## Contexts that warn of a file -/

/-- The context names the directory, and a phase in which a file may be left there. -/
structure Context.Warns (directory : String) (c : Context) : Prop where
  project : c.project = some directory
  phase : ∃ p, c.phase = some p ∧
    Phase.templateRendered.rank ≤ p.rank ∧ p.rank ≤ Phase.cleanup.rank

/-- The report of a crash says where to look for a file. -/
theorem Crash.hint_mem_report {c : Crash} {directory : String}
    (h : c.context.project = some directory) :
    "Check " ++ directory ++ " for a leftover zz_gyv_codeinject-*.go file and remove it." ∈
      c.report := by
  unfold report hint
  rw [h]
  simp

/-! ## Moves and the context -/

namespace Move

/-- All that the move notes is noted in the context in which it begins. -/
def NotesInContext (m : Move) : Prop := ∀ h w,
  ∀ j ∈ (m.make h w).2.journal, j ∈ w.journal ∨ j.context = w.context

/-- The context stays as it is, also for all that is noted. -/
structure KeepsContext (m : Move) : Prop where
  context : ∀ h w, (m.make h w).2.context = w.context
  notes : m.NotesInContext

/-- A world that differs in one more moment, and in its files. -/
theorem keepsContext_of_record {m : Move} {e : Event}
    (hm : ∀ h w, ∃ store, (m.make h w).2 = { w.record e with store }) : m.KeepsContext where
  context h w := by
    obtain ⟨store, hmade⟩ := hm h w
    rw [hmade]
    rfl
  notes h w j hj := by
    obtain ⟨store, hmade⟩ := hm h w
    rw [hmade] at hj
    obtain hj | hj := List.mem_append.mp hj
    · exact .inl hj
    · exact .inr (List.mem_singleton.mp hj ▸ rfl)

/-- Only a turn changes the context, and a build tool may. -/
theorem keepsContext {m : Move} (hturn : ∀ change, m ≠ .turn change)
    (hask : ∀ tool directory c, m ≠ .ask tool directory c) : m.KeepsContext := by
  cases m with
  | turn change => exact absurd rfl (hturn change)
  | ask tool directory c => exact absurd rfl (hask tool directory c)
  | note e => exact keepsContext_of_record fun h w => ⟨w.store, rfl⟩
  | create path bytes => exact keepsContext_of_record fun h w => exists_make_create h w path bytes
  | write path bytes => exact keepsContext_of_record fun h w => exists_make_write h w path bytes
  | remove path => exact keepsContext_of_record fun h w => exists_make_remove h w path
  | launch l => exact keepsContext_of_record fun h w => exists_make_launch h w l
  | _ => exact ⟨fun _ _ => rfl, fun _ _ _ hj => .inl hj⟩

theorem IsQuiet.keepsContext {m : Move} (hm : m.IsQuiet) : m.KeepsContext := by
  cases m with
  | turn change => cases hm
  | ask tool directory c => cases hm
  | _ => exact Move.keepsContext (by simp) (by simp)

theorem IsQuiet.drawn {m : Move} (hm : m.IsQuiet) (h : Host) (w : World) :
    (m.make h w).2.drawn = w.drawn := by
  cases m <;> first | rfl | cases hm

/-- The move is to create the file. -/
def isCreation (file : String) : Move → Bool
  | create path _ => path == file
  | _ => false

/-- The move creates the file in the world, in full or in part. -/
def creates (file : String) (h : Host) (w : World) : Move → Bool
  | create path bytes => path == file && ((Act.createFile path bytes).perform h w).1.toBool
  | _ => false

/-- The move is to remove the file. -/
def isRemoval (file : String) : Move → Bool
  | remove path => path == file
  | _ => false

/-- The move does something to the file. -/
def touches (file : String) (m : Move) : Bool := m.isCreation file || m.isRemoval file

theorem IsQuiet.touches {m : Move} (hm : m.IsQuiet) (file : String) :
    m.touches file = false := by
  cases m <;> first | rfl | cases hm

theorem creates_of_isCreation {m : Move} {file : String} (hm : m.isCreation file = false)
    (h : Host) (w : World) : m.creates file h w = false := by
  cases m with
  | create path bytes => exact Bool.and_eq_false_iff.mpr (.inl hm)
  | _ => rfl

end Move

/-! ## When a file is exposed -/

namespace Past

variable {h : Host} {file directory : String} {s : Past} {m : Move}

/-- The file was created, in full or in part. -/
def HasCreated (h : Host) (file : String) (s : Past) : Prop :=
  ∃ q ∈ s.before, q.1.creates file h q.2 = true

/-- It was attempted to remove the file. -/
def HasRemoved (file : String) (s : Past) : Prop := ∃ q ∈ s.before, q.1.isRemoval file = true

/-- A move during which the file may be there: the one that creates it, and all later ones up
to the attempt to remove it, with that attempt. -/
def IsExposed (h : Host) (file : String) (s : Past) (m : Move) : Prop :=
  (m.isCreation file = true ∨ s.HasCreated h file) ∧ ¬ s.HasRemoved file

/-- The file was created, and no attempt was made to remove it. -/
def IsOpen (h : Host) (file : String) (s : Past) : Prop :=
  s.HasCreated h file ∧ ¬ s.HasRemoved file

/-- The watch for a context that warns while the file is exposed, and in which all is noted. -/
def warning (h : Host) (file directory : String) : Watch Past :=
  watch h fun s m => s.IsExposed h file m → s.world.context.Warns directory ∧ m.NotesInContext

theorem hasCreated_after (hm : m.creates file h s.world = false) :
    (s.after h m).HasCreated h file ↔ s.HasCreated h file := by
  refine ⟨fun ⟨q, hq, hcreates⟩ => ?_, fun ⟨q, hq, hcreates⟩ =>
    ⟨q, List.mem_append_left _ hq, hcreates⟩⟩
  obtain hq | hq := List.mem_append.mp hq
  · exact ⟨q, hq, hcreates⟩
  · obtain rfl := List.mem_singleton.mp hq
    cases hm.symm.trans hcreates

theorem HasRemoved.after (hs : s.HasRemoved file) (m : Move) : (s.after h m).HasRemoved file := by
  obtain ⟨q, hq, hremoval⟩ := hs
  exact ⟨q, List.mem_append_left _ hq, hremoval⟩

theorem hasRemoved_after (hm : m.isRemoval file = false) :
    (s.after h m).HasRemoved file ↔ s.HasRemoved file := by
  refine ⟨fun ⟨q, hq, hremoval⟩ => ?_, fun hs => hs.after m⟩
  obtain hq | hq := List.mem_append.mp hq
  · exact ⟨q, hq, hremoval⟩
  · obtain rfl := List.mem_singleton.mp hq
    cases hm.symm.trans hremoval

theorem hasRemoved_after_remove : (s.after h (.remove file)).HasRemoved file :=
  ⟨(.remove file, s.world), List.mem_append_right _ List.mem_cons_self, beq_self_eq_true file⟩

theorem IsOpen.after (hs : s.IsOpen h file) (hm : m.touches file = false) :
    (s.after h m).IsOpen h file := by
  obtain ⟨hcreation, hremoval⟩ := Bool.or_eq_false_iff.mp hm
  unfold IsOpen
  rw [hasCreated_after (Move.creates_of_isCreation hcreation h s.world), hasRemoved_after hremoval]
  exact hs

/-- The file was not created yet, and so much is known of the world. -/
structure Unwritten (h : Host) (file : String) (c : Context) (drawn : Nat) (s : Past) : Prop where
  created : ¬ s.HasCreated h file
  removed : ¬ s.HasRemoved file
  context : s.world.context = c
  drawn : s.world.drawn = drawn

theorem unwritten_start (w : World) : (start w).Unwritten h file w.context w.drawn :=
  ⟨fun ⟨_, hq, _⟩ => (List.not_mem_nil hq).elim, fun ⟨_, hq, _⟩ => (List.not_mem_nil hq).elim,
    rfl, rfl⟩

namespace Unwritten

variable {c : Context} {drawn : Nat}

theorem allows (hs : s.Unwritten h file c drawn) (hm : m.touches file = false) :
    (warning h file directory).allows s m := by
  rintro ⟨hcreation | hcreated, -⟩
  · cases (Bool.or_eq_false_iff.mp hm).1.symm.trans hcreation
  · exact absurd hcreated hs.created

/-- A move that does nothing to the file leaves it unwritten. -/
theorem after (hs : s.Unwritten h file c drawn) (hm : m.touches file = false)
    {c' : Context} {drawn' : Nat} (hcontext : (m.make h s.world).2.context = c')
    (hdrawn : (m.make h s.world).2.drawn = drawn') :
    (s.after h m).Unwritten h file c' drawn' := by
  obtain ⟨hcreation, hremoval⟩ := Bool.or_eq_false_iff.mp hm
  refine ⟨?_, ?_, hcontext, hdrawn⟩
  · rw [hasCreated_after (Move.creates_of_isCreation hcreation h s.world)]
    exact hs.created
  · rw [hasRemoved_after hremoval]
    exact hs.removed

theorem quiet (hs : s.Unwritten h file c drawn) (hm : m.IsQuiet) :
    (s.after h m).Unwritten h file c drawn :=
  hs.after (hm.touches file) ((hm.keepsContext.context h s.world).trans hs.context)
    ((hm.drawn h s.world).trans hs.drawn)

theorem turn (hs : s.Unwritten h file c drawn) (change : Context → Context) :
    (s.after h (.turn change)).Unwritten h file (change c) drawn :=
  hs.after rfl (congrArg change hs.context) hs.drawn

theorem draw (hs : s.Unwritten h file c drawn) :
    (s.after h .draw).Unwritten h file c (drawn + 1) :=
  hs.after rfl hs.context (congrArg (· + 1) hs.drawn)

theorem follows_advance {ε : Type} (hs : s.Unwritten h file c drawn) (p : Phase) :
    (Cut.advance (ε := ε) p).routine.Follows (warning h file directory) s
      fun _ s' => s'.Unwritten h file (c.inPhase p) drawn := by
  refine ⟨hs.allows rfl, fun _ s' ha => ?_⟩
  obtain ⟨-, rfl⟩ := ha
  have hturned := hs.turn (Context.inPhase p)
  refine ⟨hturned.allows rfl, fun _ s' ha => ?_⟩
  obtain ⟨-, rfl⟩ := ha
  exact hturned.quiet (m := .note _) trivial

/-- The name that is drawn is known before. -/
theorem follows_draw {ε : Type} (hs : s.Unwritten h file c drawn) :
    (Cut.drawSuffix (ε := ε)).routine.Follows (warning h file directory) s fun r s' =>
      match r with
      | .ok x => x = ⟨h.second drawn, h.process, drawn⟩ ∧ s'.Unwritten h file c (drawn + 1)
      | .error _ => False := by
  refine ⟨hs.allows rfl, fun x s' ha => ?_⟩
  obtain ⟨rfl, rfl⟩ := ha
  exact ⟨congrArg (fun n => Suffix.mk (h.second n) h.process n) hs.drawn, hs.draw⟩

end Unwritten

theorem allows_of_hasRemoved (hs : s.HasRemoved file) : (warning h file directory).allows s m :=
  fun hm => absurd hs hm.2

/-- After the attempt to remove the file, everything is allowed. -/
theorem follows_of_hasRemoved {ε α : Type} (r : Routine ε α) (hs : s.HasRemoved file) :
    r.Follows (warning h file directory) s fun _ s' => s'.HasRemoved file :=
  r.only_any.follows (I := (HasRemoved file))
    (fun _ m hs _ => ⟨allows_of_hasRemoved hs, fun _ _ ha => ha.2 ▸ hs.after m⟩) hs

end Past

/-! ## The phases in which a file may be left -/

namespace Move

/-- The move leaves a context that warns: it keeps the context, or goes on to a phase in
which a file may be left. -/
def KeepsWarning (m : Move) : Prop :=
  m.KeepsContext ∨ ∃ p : Phase, m = .turn (Context.inPhase p) ∧
    Phase.templateRendered.rank ≤ p.rank ∧ p.rank ≤ Phase.cleanup.rank

theorem KeepsWarning.warns {m : Move} (hm : m.KeepsWarning) {directory : String} {h : Host}
    {w : World} (hw : w.context.Warns directory) : (m.make h w).2.context.Warns directory := by
  obtain hkeeps | ⟨p, rfl, hp⟩ := hm
  · rw [hkeeps.context h w]
    exact hw
  · exact ⟨hw.project, p, rfl, hp⟩

theorem KeepsWarning.notes {m : Move} (hm : m.KeepsWarning) : m.NotesInContext := by
  obtain hkeeps | ⟨p, rfl, -⟩ := hm
  · exact hkeeps.notes
  · exact fun _ _ _ hj => .inl hj

end Move

namespace Past

variable {h : Host} {file directory : String} {s : Past}

/-- Moves that leave a warning context are made as long as the file is exposed. -/
theorem follows_of_warns {ε α : Type} {r : Routine ε α} (hr : r.Only Move.KeepsWarning)
    (hs : s.world.context.Warns directory) :
    r.Follows (warning h file directory) s fun _ s' => s'.world.context.Warns directory :=
  hr.follows (I := fun s : Past => s.world.context.Warns directory)
    (fun _ _ hs hm => ⟨fun _ => ⟨hs, Move.KeepsWarning.notes hm⟩,
      fun _ _ ha => ha.2 ▸ Move.KeepsWarning.warns hm hs⟩) hs

end Past

/-! ## The parts of an injection -/

namespace Cut

open Past

variable {h : Host} {file directory : String} {s : Past} {c : Context} {drawn : Nat}

/-- The attempt to remove the file is made in a context that warns. -/
theorem follows_removeOrWarn {ε : Type} (hs : s.world.context.Warns directory)
    (complaint : String) :
    (removeOrWarn (ε := ε) complaint file).routine.Follows (warning h file directory) s
      fun _ s' => s'.HasRemoved file := by
  refine ⟨fun _ => ⟨hs, (Move.keepsContext (by simp) (by simp)).notes⟩, fun x s' ha => ?_⟩
  obtain ⟨-, rfl⟩ := ha
  exact follows_of_hasRemoved _ hasRemoved_after_remove

/-- A phase in which a file may be left is entered. -/
theorem follows_advance {ε : Type} {p : Phase} (hs : s.world.context.Warns directory)
    (hp : Phase.templateRendered.rank ≤ p.rank ∧ p.rank ≤ Phase.cleanup.rank) :
    (advance (ε := ε) p).routine.Follows (warning h file directory) s fun r s' =>
      match r with
      | .ok _ => s'.world.context.Warns directory ∧ (s.IsOpen h file → s'.IsOpen h file)
      | .error _ => False := by
  have hturn : (Move.turn (Context.inPhase p)).KeepsWarning := .inr ⟨p, rfl, hp⟩
  refine ⟨fun _ => ⟨hs, hturn.notes⟩, fun _ s' ha => ?_⟩
  obtain ⟨-, rfl⟩ := ha
  have hturned := hturn.warns (h := h) hs
  refine ⟨fun _ => ⟨hturned, (Move.keepsContext (by simp) (by simp)).notes⟩, fun _ s' ha => ?_⟩
  obtain ⟨-, rfl⟩ := ha
  exact ⟨hturned, fun hopen => (hopen.after rfl).after rfl⟩

section Preparing

variable {ε α β : Type} {Q : Except ε β → Past → Prop} (hs : s.Unwritten h file c drawn)

include hs

/-- Looking at files before the injected one is created. -/
theorem follows_look (l : Look α) {k : α → Routine ε β}
    (hk : ∀ x s', s'.Unwritten h file c drawn → (k x).Follows (warning h file directory) s' Q) :
    (l.routine k).Follows (warning h file directory) s Q :=
  (Look.reads_any l).follows (I := Unwritten h file c drawn)
    (fun _ hs => Look.allowed_of_quiet fun _ hm =>
      ⟨hs.allows (hm.touches file), fun _ _ ha => ha.2 ▸ hs.quiet hm⟩)
    hs fun x s' _ => hk x s'

theorem follows_warnLater (paths : List String) :
    (warnLater paths).routine.Follows (warning h file directory) s
      fun _ s' => s'.Unwritten h file c drawn := by
  induction paths generalizing s with
  | nil => exact hs
  | cons path more ih =>
    refine ⟨hs.allows rfl, fun x s' ha => ?_⟩
    obtain ⟨-, rfl⟩ := ha
    exact ih (hs.quiet (m := .note _) trivial)

/-- The file is created in a context that warns. Once it was attempted in vain to write it, it
is not exposed any more. -/
theorem follows_writeText (hc : c.Warns directory) (text : String) :
    (writeText file text).routine.Follows (warning h file directory) s fun r s' =>
      match r with
      | .ok _ => s'.world.context.Warns directory ∧ s'.IsOpen h file
      | .error _ => ¬ s'.HasCreated h file ∨ s'.HasRemoved file := by
  have hwarns : s.world.context.Warns directory := hs.context ▸ hc
  have hkeeps : (Move.create file (Files.View.encode text)).KeepsContext :=
    Move.keepsContext (by simp) (by simp)
  refine ⟨fun _ => ⟨hwarns, hkeeps.notes⟩, fun x s' ha => ?_⟩
  obtain ⟨rfl, rfl⟩ := ha
  generalize hs' : s.after h (.create file (Files.View.encode text)) = s'
  have hwarns' : s'.world.context.Warns directory :=
    hs' ▸ Move.KeepsWarning.warns (.inl hkeeps) hwarns
  have hremoved : ¬ s'.HasRemoved file := by
    rw [← hs', hasRemoved_after rfl]
    exact hs.removed
  have hcreates : ∀ r, ((Move.create file (Files.View.encode text)).make h s.world).1 = r →
      (Move.create file (Files.View.encode text)).creates file h s.world = r.toBool := by
    rintro _ rfl
    exact (congrArg (· && _) (beq_self_eq_true file)).trans (Bool.true_and _)
  cases hmade : ((Move.create file (Files.View.encode text)).make h s.world).1 with
  | error fault =>
    refine .inl ?_
    rw [← hs', hasCreated_after (hcreates _ hmade)]
    exact hs.created
  | ok written =>
    cases written with
    | whole =>
      refine ⟨hwarns', ?_, hremoved⟩
      rw [← hs']
      exact ⟨_, List.mem_append_right _ List.mem_cons_self, hcreates _ hmade⟩
    | partly fault =>
      exact follows_bind (follows_removeOrWarn hwarns' _) (fun _ _ hr => .inr hr)
        fun _ _ hr => .inr hr

/-- The injected file is the only one that is exposed, and its name is known before. -/
theorem follows_prepare (p : Project) (plan : Plan) (hc : c.project = some p.directory)
    (hfile : file = Injection.filePath p ⟨h.second drawn, h.process, drawn⟩) :
    (prepare p plan).routine.Follows (warning h file p.directory) s fun r s' =>
      match r with
      | .ok x =>
        Injection.filePath p x = file ∧ s'.world.context.Warns p.directory ∧ s'.IsOpen h file
      | .error _ => ¬ s'.HasCreated h file ∨ s'.HasRemoved file := by
  refine follows_look hs _ fun root s hs => ?_
  refine follows_bind (P := fun _ s' => s'.Unwritten h file c drawn) (follows_ofExcept hs)
    (fun _ s hs => ?_) fun _ _ hs => .inl hs.created
  refine follows_bind (P := fun _ s' => s'.Unwritten h file c drawn) (follows_ofExcept hs)
    (fun text s hs => ?_) fun _ _ hs => .inl hs.created
  refine follows_bind (P := fun _ s' => s'.Unwritten h file (c.inPhase .templateRendered) drawn)
    (hs.follows_advance _) (fun _ s hs => ?_) fun _ _ hs => .inl hs.created
  -- From here on, the phase warns of a file.
  have hwarns : (c.inPhase .templateRendered).Warns p.directory :=
    ⟨hc, .templateRendered, rfl, by decide⟩
  refine follows_bind (hs.follows_draw) (fun x s hx => ?_) fun _ _ hx => hx.elim
  obtain ⟨rfl, hs⟩ := hx
  refine follows_look hs _ fun root s hs => ?_
  refine follows_bind
    (P := fun _ s' => s'.Unwritten h file (c.inPhase .templateRendered) (drawn + 1))
    (follows_ofExcept hs) (fun _ s hs => ?_) fun _ _ hs => .inl hs.created
  refine follows_bind (follows_warnLater hs _) (fun _ s hs => ?_) fun _ _ hs => .inl hs.created
  rw [← hfile]
  refine follows_bind (follows_writeText hs hwarns text) (fun _ s hs => ?_) fun _ _ hs => hs
  exact follows_bind (follows_advance hs.1 (by decide))
    (fun _ _ hr => ⟨hfile.symm, hr.1, hr.2 hs.2⟩)
    fun _ _ hs => hs.elim

end Preparing

variable {tool : BuildTool} {ct : ∀ directory c, Cut (tool.ask directory c)}
  (hct : ∀ directory c, (ct directory c).routine.Only Move.KeepsContext)

include hct

theorem only_ask (directory : String) (c : ToolCall) :
    (ask ct directory c).routine.Only Move.KeepsWarning :=
  only_bind ⟨.inl (Move.keepsContext (by simp) (by simp)), fun _ => trivial⟩ fun _ =>
    only_mapError ((hct directory c).mono fun _ hm => .inl hm)

theorem only_addAll (directory : String) (ds : List Dependency) :
    (addAll ct directory ds).routine.Only Move.KeepsWarning := by
  induction ds with
  | nil => trivial
  | cons d ds ih =>
    exact only_bind ⟨.inl (Move.keepsContext (by simp) (by simp)), fun _ => trivial⟩ fun _ =>
      only_bind (only_ask hct directory _) fun _ => ih

theorem only_build (p : Project) (ds : List Dependency) (artifact : String) :
    (build ct p ds artifact).routine.Only Move.KeepsWarning := by
  have hadvance : ∀ p : Phase, Phase.templateRendered.rank ≤ p.rank ∧
      p.rank ≤ Phase.cleanup.rank → (advance (ε := Failure) p).routine.Only Move.KeepsWarning :=
    fun p hp => ⟨.inr ⟨p, rfl, hp⟩, fun _ => ⟨.inl (Move.keepsContext (by simp) (by simp)),
      fun _ => trivial⟩⟩
  exact only_bind (only_addAll hct _ ds) fun _ => only_bind (hadvance _ (by decide)) fun _ =>
    only_bind ⟨.inl (Move.keepsContext (by simp) (by simp)), fun _ => trivial⟩ fun _ =>
    only_bind (only_ask hct _ _) fun _ => hadvance _ (by decide)

/-- The build is made with the injected file in place, and it is attempted to remove the file
whatever the build comes to. -/
theorem follows_buildAndLoad (p : Project) (plan : Plan) (artifact : String)
    (hs : s.world.context.Warns directory) :
    (buildAndLoad ct p plan file artifact).routine.Follows (warning h file directory) s
      fun _ s' => s'.HasRemoved file := by
  refine follows_bind_attempt (follows_of_warns (only_build hct p _ artifact) hs)
    fun built s hs => ?_
  refine follows_bind (follows_advance hs (by decide)) (fun _ s hs => ?_) fun _ _ hs => hs.elim
  refine follows_bind (P := fun _ s' => s'.HasRemoved file) ?_
    (fun _ s hs => follows_of_hasRemoved _ hs) fun _ _ hs => hs
  exact follows_bind (follows_removeOrWarn hs.1 _) (fun _ s hs => follows_of_hasRemoved _ hs)
    fun _ _ hs => hs

/-- An injection is watched as a whole: the context from before comes back only once the file
is not exposed any more. -/
theorem follows_inject (p : Project) (plan : Plan) (w : World) :
    (inject ct p plan).routine.Follows
      (warning h (Injection.filePath p (w.nextSuffix h)) p.directory) (.start w)
      fun _ _ => True := by
  have hstart : (start w).Unwritten h (Injection.filePath p (w.nextSuffix h)) w.context w.drawn :=
    unwritten_start w
  refine ⟨hstart.allows rfl, fun _ s ha => ?_⟩
  obtain ⟨-, rfl⟩ := ha
  have hs := hstart.turn (Context.onProject p.directory)
  refine Routine.follows_andThen.mpr (Routine.Follows.mono (P := fun _ s' =>
    ¬ s'.HasCreated h (Injection.filePath p (w.nextSuffix h)) ∨
      s'.HasRemoved (Injection.filePath p (w.nextSuffix h))) ?_ fun _ s hs =>
        ⟨?_, fun _ _ _ => trivial⟩)
  · refine ⟨hs.allows rfl, fun x s ha => ?_⟩
    obtain ⟨rfl, rfl⟩ := ha
    replace hs := hs.quiet (m := .host) trivial
    refine follows_bind (follows_prepare hs p plan rfl rfl) (fun x s hx => ?_) fun _ _ hs => hs
    rw [hx.1]
    exact (follows_buildAndLoad hct p plan _ hx.2.1).mono fun _ _ hs => .inr hs
  · rintro ⟨hcreation | hcreated, hremoved⟩
    · cases hcreation
    · exact (hs.elim (absurd hcreated) hremoved).elim

omit hct in
/-- Any build tool that keeps the context can be watched as one move. -/
theorem only_askAtOnce {directory : String} {c : ToolCall}
    (hm : (Move.ask tool directory c).KeepsContext) :
    (askAtOnce tool directory c).routine.Only Move.KeepsContext :=
  ⟨hm, fun _ => trivial⟩

omit hct in
/-- A toolchain keeps the context. -/
theorem only_toolchain (t : Toolchain) (directory : String) (c : ToolCall) :
    (toolchain t directory c).routine.Only Move.KeepsContext := by
  refine only_bind ⟨Move.IsQuiet.keepsContext trivial, fun _ => trivial⟩ fun h => ?_
  refine (Look.reads_any _).only (Look.allowed_of_quiet fun m hm => hm.keepsContext)
    fun program _ => ?_
  cases program with
  | none => trivial
  | some program =>
    exact only_bind (only_mapError ⟨Move.keepsContext (by simp) (by simp), fun _ => trivial⟩)
      fun outcome => only_ite trivial trivial

end Cut

/-! ## The warning -/

/-- At each point of an injection from the creation of the injected file up to the attempt to
remove it, the context names the project and a phase in which a file may be left. All that is
noted there is noted in this context, and the report of a crash says where to look. -/
theorem the_context_warns_of_an_exposed_file {tool : BuildTool}
    (ct : ∀ directory c, Cut (tool.ask directory c))
    (hct : ∀ directory c, (ct directory c).routine.Only Move.KeepsContext) (p : Project)
    (plan : Plan) (h : Host) (w u : World) (before after : List (Move × World)) (m : Move)
    (hpoints : (Cut.inject ct p plan).routine.points h w = before ++ (m, u) :: after)
    (hexposed : Past.IsExposed h (Injection.filePath p (w.nextSuffix h)) ⟨before, u⟩ m) :
    u.context.Warns p.directory ∧
      (∀ j ∈ (m.make h u).2.journal, j ∈ u.journal ∨ j.context = u.context) ∧
      ∀ c : Crash, c.context = u.context →
        "Check " ++ p.directory ++ " for a leftover zz_gyv_codeinject-*.go file and remove it." ∈
          c.report := by
  obtain ⟨hwarns, hnotes⟩ :=
    Past.allows_of_points (s := .start w) (Cut.follows_inject hct p plan w) hpoints hexposed
  exact ⟨hwarns, hnotes h u, fun c hc => Crash.hint_mem_report (hc ▸ hwarns.project)⟩

namespace Sample

/-- While the build tool of the shop is asked for a module, the context warns of the file. -/
theorem the_context_of_the_shop_warns_of_its_file :
    ∃ before m u after,
      (Cut.inject (Cut.toolchain project.toolchain) project plan).routine.points host world =
        before ++ (m, u) :: after ∧
      Past.IsExposed host run.file ⟨before, u⟩ m ∧ u.context.Warns "/shop" := by
  obtain ⟨s, hs⟩ := hasWritten_run
  have hrun : (Cut.prepare project plan).routine.run host run.opened = (.ok s, run.prepared.2) :=
    ((Cut.prepare project plan).run_eq _ _).trans (Prod.ext hs rfl)
  have hprepared := Past.holds_of_run
    (Cut.follows_prepare (Past.unwritten_start (h := host) run.opened) project plan rfl rfl)
  rw [Past.world_start, hrun] at hprepared
  obtain ⟨-, -, ⟨q, hq, hcreates⟩, hremoved⟩ := hprepared
  obtain ⟨e₁, e₂, u₁, u₂, u, after, hbuild⟩ : ∃ e₁ e₂ u₁ u₂ u after,
      (Cut.buildAndLoad (Cut.toolchain project.toolchain) project plan
        (Injection.filePath project s) (Injection.artifactPath host.tempDir s)).routine.points
          host run.prepared.2 = [(.note e₁, u₁), (.note e₂, u₂)] ++ (.host, u) :: after :=
    ⟨_, _, _, _, _, _, rfl⟩
  have hpoints :
      (Cut.inject (Cut.toolchain project.toolchain) project plan).routine.points host world =
        (.turn (Context.onProject project.directory), world) :: (((.host, run.opened) ::
          (Cut.bind (Cut.prepare project plan) fun s =>
            Cut.buildAndLoad (Cut.toolchain project.toolchain) project plan
              (Injection.filePath project s)
              (Injection.artifactPath host.tempDir s)).routine.points host run.opened) ++ _) :=
    Cut.points_within _ _ host world
  rw [Cut.points_bind_of_ok hrun, hbuild] at hpoints
  let before : List (Move × World) :=
    [(.turn (Context.onProject project.directory), world), (.host, run.opened)] ++
      ((Cut.prepare project plan).routine.points host run.opened ++
        [(.note e₁, u₁), (.note e₂, u₂)])
  have hsplit : ∃ rest,
      (Cut.inject (Cut.toolchain project.toolchain) project plan).routine.points host world =
        before ++ (.host, u) :: rest := by
    simp only [List.cons_append, List.append_assoc, List.nil_append] at hpoints
    exact ⟨_, by simpa [before] using hpoints⟩
  obtain ⟨rest, hsplit⟩ := hsplit
  have hexposed : Past.IsExposed host run.file ⟨before, u⟩ .host := by
    refine ⟨.inr ⟨q, List.mem_append_right _ (List.mem_append_left _ hq), hcreates⟩, ?_⟩
    rintro ⟨r, hr, hremoval⟩
    obtain hr | hr := List.mem_append.mp hr
    · obtain rfl | hr := List.mem_cons.mp hr
      · cases hremoval
      · obtain rfl := List.mem_singleton.mp hr
        cases hremoval
    · obtain hr | hr := List.mem_append.mp hr
      · exact hremoved ⟨r, hr, hremoval⟩
      · obtain rfl | hr := List.mem_cons.mp hr
        · cases hremoval
        · obtain rfl := List.mem_singleton.mp hr
          cases hremoval
  exact ⟨before, .host, u, rest, hsplit, hexposed,
    (the_context_warns_of_an_exposed_file (Cut.toolchain project.toolchain)
      (Cut.only_toolchain project.toolchain) project plan host world u before rest .host hsplit
      hexposed).1⟩

end Sample
end Graft
