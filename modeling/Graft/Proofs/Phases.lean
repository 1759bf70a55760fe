-- The phases of a task. Each step says which phases it enters: one that
-- succeeds has entered all of its phases, and one that fails only the first of
-- them. From this, part by part, comes what a whole task can enter, whatever
-- fails on the way.
import Graft.Proofs.Rehearsals

namespace Graft

open Act

/-! ## The phases that were entered -/

/-- The phase that the event enters. -/
def Event.phase? : Event → Option Phase
  | .entered p => some p
  | _ => none

namespace World

/-- The phases that were entered so far, the first one first. -/
def phases (w : World) : List Phase := w.events.filterMap Event.phase?

@[simp] theorem phases_record (w : World) (e : Event) :
    (w.record e).phases = w.phases ++ e.phase?.toList := by
  unfold phases events record
  rw [List.map_append, List.filterMap_append]
  cases he : e.phase? <;> simp [he]

@[simp] theorem phases_entered (w : World) (p : Phase) : (w.entered p).phases = w.phases ++ [p] :=
  phases_record { w with context := w.context.inPhase p } (.entered p)

/-- Only the journal tells of phases. -/
theorem phases_of_journal {w u : World} (h : u.journal = w.journal) : u.phases = w.phases := by
  unfold phases events
  rw [h]

end World

/-! ## Steps and their phases -/

namespace Act

variable {ε ε' α β : Type}

/-- Whatever the step comes to, the phases that it enters fit to whether it succeeds. -/
def Enters (a : Act ε α) (P : Bool → List Phase → Prop) : Prop :=
  ∀ h w, ∃ ps, (a.perform h w).2.phases = w.phases ++ ps ∧ P (a.perform h w).1.toBool ps

/-- The step enters no phase. -/
def IsSilent (a : Act ε α) : Prop := a.Enters fun _ ps => ps = []

/-- The step enters these phases, and stops before the last of them if it fails. -/
def Arrives (L : List Phase) (a : Act ε α) : Prop :=
  a.Enters fun ok ps => ps <+: L ∧ (ok = true ↔ ps = L)

variable {a : Act ε α} {f : α → Act ε β} {P Q R : Bool → List Phase → Prop}

theorem Enters.mono (ha : a.Enters P) (hp : ∀ ok ps, P ok ps → Q ok ps) : a.Enters Q := by
  intro h w
  obtain ⟨ps, hps, hw⟩ := ha h w
  exact ⟨ps, hps, hp _ ps hw⟩

/-- After a step that succeeded, the phases of the next one follow. -/
theorem Enters.bind (ha : a.Enters P) (hf : ∀ x, (f x).Enters Q)
    (hfails : ∀ ps, P false ps → R false ps)
    (hgoes : ∀ ok ps qs, P true ps → Q ok qs → R ok (ps ++ qs)) : (a >>= f).Enters R := by
  intro h w
  obtain ⟨ps, hps, hw⟩ := ha h w
  rw [perform_bind]
  generalize a.perform h w = z at hps hw ⊢
  rcases z with ⟨e | x, u⟩
  · exact ⟨ps, hps, hfails ps hw⟩
  · obtain ⟨qs, hqs, hu⟩ := hf x h u
    dsimp only at hps ⊢
    exact ⟨ps ++ qs, by rw [hqs, hps, List.append_assoc], hgoes _ ps qs hw hu⟩

theorem Enters.within (ha : a.Enters P) (change : Context → Context) :
    (within change a).Enters P := by
  intro h w
  obtain ⟨ps, hps, hw⟩ := ha h { w with context := change w.context }
  exact ⟨ps, hps, hw⟩

theorem Enters.mapError (ha : a.Enters P) (g : ε → ε') : (mapError g a).Enters P := by
  intro h w
  obtain ⟨ps, hps, hw⟩ := ha h w
  rw [perform_mapError]
  generalize a.perform h w = z at hps hw ⊢
  rcases z with ⟨e | x, u⟩ <;> exact ⟨ps, hps, hw⟩

/-! ## Steps that enter no phase -/

theorem isSilent_of_phases (h : ∀ h w, (a.perform h w).2.phases = w.phases) : a.IsSilent := by
  intro host w
  exact ⟨[], by rw [h host w, List.append_nil], rfl⟩

theorem IsSilent.phases (ha : a.IsSilent) (h : Host) (w : World) :
    (a.perform h w).2.phases = w.phases := by
  obtain ⟨ps, hps, rfl⟩ := ha h w
  rw [hps, List.append_nil]

theorem OnlyReports.isSilent (ha : a.OnlyReports) : a.IsSilent := by
  refine isSilent_of_phases fun h w => ?_
  obtain ⟨reports, hu⟩ := ha h w
  rw [hu]
  unfold World.phases World.events
  simp [Event.phase?, Function.comp_def]

theorem isSilent_pure (x : α) : (pure x : Act ε α).IsSilent := (onlyReports_pure x).isSilent

theorem isSilent_read : (read : Act ε Host).IsSilent := onlyReports_read.isSilent

theorem isSilent_view : (view : Act ε Files.View).IsSilent := onlyReports_view.isSilent

theorem isSilent_ofExcept (r : Except ε α) : (ofExcept r).IsSilent :=
  (onlyReports_ofExcept r).isSilent

theorem isSilent_drawSuffix : (drawSuffix : Act ε Suffix).IsSilent :=
  isSilent_of_phases fun _ _ => rfl

theorem isSilent_record {e : Event} (he : e.phase? = none) : (record e : Act ε Unit).IsSilent := by
  refine isSilent_of_phases fun h w => ?_
  rw [perform_record, World.phases_record, he]
  simp

theorem isSilent_info (text : String) : (info text : Act ε Unit).IsSilent :=
  (onlyReports_info text).isSilent

theorem isSilent_warn (text : String) : (warn text : Act ε Unit).IsSilent :=
  (onlyReports_warn text).isSilent

theorem IsSilent.bind (ha : a.IsSilent) (hf : ∀ x, (f x).IsSilent) : (a >>= f).IsSilent :=
  Enters.bind ha hf (fun _ hps => hps) fun _ ps qs hps hqs => by rw [hps, hqs]; rfl

theorem IsSilent.mapError (ha : a.IsSilent) (g : ε → ε') : (mapError g a).IsSilent :=
  Enters.mapError ha g

theorem IsSilent.attempt (ha : a.IsSilent) :
    (attempt a : Act ε' (Except ε α)).IsSilent :=
  isSilent_of_phases fun h w => ha.phases h w

/-- What a step notes first is no phase, and then it changes nothing but the files. -/
theorem isSilent_of_journal {a : Act ε α} {e : World → Event} (he : ∀ w, (e w).phase? = none)
    (hj : ∀ h w, (a.perform h w).2.journal = (w.record (e w)).journal) : a.IsSilent := by
  refine isSilent_of_phases fun h w => ?_
  rw [World.phases_of_journal (hj h w), World.phases_record, he]
  simp

theorem isSilent_createFile (path : String) (bytes : List UInt8) :
    (createFile path bytes).IsSilent := by
  refine isSilent_of_journal (e := fun _ => .creating path) (fun _ => rfl) fun h w => ?_
  unfold createFile
  rw [perform_ofFunction]
  dsimp only
  split
  · rfl
  · split
    · rfl
    · split <;> rfl

theorem isSilent_removeFile (path : String) : (removeFile path).IsSilent := by
  refine isSilent_of_journal (e := fun _ => .removing path) (fun _ => rfl) fun h w => ?_
  unfold removeFile
  rw [perform_ofFunction]
  dsimp only
  split
  · rfl
  · split <;> rfl

theorem isSilent_launch (l : Launch) : (launch l).IsSilent := by
  refine isSilent_of_journal (e := fun _ => .launched l) (fun _ => rfl) fun h w => ?_
  unfold launch
  rw [perform_ofFunction]
  dsimp only
  split <;> rfl

theorem isSilent_removeOrWarn (complaint path : String) :
    (removeOrWarn complaint path : Act ε Unit).IsSilent := by
  refine (isSilent_removeFile path).attempt.bind ?_
  intro r
  cases r with
  | ok _ => exact isSilent_pure _
  | error fault => exact isSilent_warn _

/-! ## Steps that arrive -/

theorem arrives_pure (x : α) : (pure x : Act ε α).Arrives [] := by
  intro h w
  exact ⟨[], (List.append_nil _).symm, List.prefix_rfl, iff_of_true rfl rfl⟩

theorem arrives_advance (p : Phase) : (advance p : Act ε Unit).Arrives [p] := by
  intro h w
  exact ⟨[p], w.phases_entered p, List.prefix_rfl, iff_of_true rfl rfl⟩

theorem Arrives.advance {L : List Phase} {f : Unit → Act ε β} (p : Phase)
    (hf : (f ()).Arrives L) : (advance p >>= f).Arrives (p :: L) := by
  intro h w
  obtain ⟨ps, hps, hpre, hok⟩ := hf h (w.entered p)
  rw [perform_bind_of_ok (perform_advance _ _ _)]
  refine ⟨p :: ps, ?_, ?_, ?_⟩
  · rw [hps, World.phases_entered, List.append_assoc]
    rfl
  · exact List.cons_prefix_cons.mpr ⟨rfl, hpre⟩
  · rw [hok, List.cons_inj_right]

/-- What fails before the first phase has not entered it. -/
theorem IsSilent.arrives {L : List Phase} (ha : a.IsSilent) (hL : L ≠ [])
    (hf : ∀ x, (f x).Arrives L) : (a >>= f).Arrives L := by
  refine Enters.bind ha hf ?_ ?_
  · intro ps hps
    rw [hps]
    exact ⟨List.nil_prefix, by simp [hL.symm]⟩
  · intro ok ps qs hps hqs
    rw [hps]
    exact hqs

end Act

/-! ## The build tool -/

/-- The build tool does its work without entering a phase itself. -/
def BuildTool.EntersNoPhase (tool : BuildTool) : Prop :=
  ∀ directory c, (tool.ask directory c).IsSilent

theorem Toolchain.entersNoPhase_tool (t : Toolchain) : t.tool.EntersNoPhase := by
  intro directory c
  refine isSilent_read.bind fun h => isSilent_view.bind fun v => ?_
  split
  · exact isSilent_ofExcept _
  · refine ((isSilent_launch _).mapError _).bind fun outcome => ?_
    split
    · exact isSilent_pure _
    · exact isSilent_ofExcept _

/-! ## Before the injection -/

theorem Project.arrives_openWith (directory : String) (config : Config) :
    (Project.openWith directory config).Arrives
      [.created, .manifestValidated, .versionChecked] := by
  refine Enters.within ?_ _
  refine Arrives.advance .created (isSilent_view.arrives (by simp) fun v => ?_)
  refine (isSilent_ofExcept _).arrives (by simp) fun manifest => ?_
  refine (isSilent_ofExcept _).arrives (by simp) fun framework => ?_
  refine Arrives.advance .manifestValidated ?_
  have hlast : (do Act.advance .versionChecked; pure ⟨directory, manifest, framework, config⟩ :
      Act Failure Project).Arrives [.versionChecked] :=
    Arrives.advance .versionChecked (arrives_pure _)
  split
  · exact (isSilent_ofExcept _).arrives (by simp) fun _ => hlast
  · exact hlast

namespace Task

/-- The phase that the planning of a task enters: only the description of the routes looks
for a call. -/
def planning : Task → List Phase
  | openapi => [.callSiteResolved]
  | _ => []

theorem enters_plan (p : Project) (t : Task) :
    (t.plan p).Enters fun ok ps => ps <+: t.planning ∧ (ok = true → ps = t.planning) := by
  by_cases ht : t = .openapi
  · subst ht
    have harrives : (openapi.plan p).Arrives [.callSiteResolved] := by
      refine ((Resolve.onlyReports_routeRegistrer _ _).isSilent.mapError _).arrives (by simp) ?_
      exact fun registrer => Arrives.advance .callSiteResolved (arrives_pure _)
    exact harrives.mono fun ok ps hps => ⟨hps.1, hps.2.mp⟩
  · have hplanning : t.planning = [] := by
      cases t with
      | openapi => exact absurd rfl ht
      | _ => rfl
    rw [hplanning]
    exact (onlyReports_plan p ht).isSilent.mono fun ok ps hps => by simp [hps]

end Task

/-! ## The parts of an injection -/

namespace Injection

theorem isSilent_writeFile (path text : String) : (writeFile path text).IsSilent := by
  refine (isSilent_createFile _ _).attempt.bind ?_
  intro r
  rcases r with fault | _ | fault
  · exact isSilent_ofExcept _
  · exact isSilent_pure _
  · exact (isSilent_removeOrWarn _ _).bind fun _ => isSilent_ofExcept _

theorem isSilent_removeStray (artifact : String) : (removeStray artifact).IsSilent := by
  refine isSilent_view.bind fun v => ?_
  split
  · exact isSilent_removeOrWarn _ _
  · exact isSilent_pure _

theorem arrives_prepare (p : Project) (plan : Plan) :
    (prepare p plan).Arrives [.templateRendered, .tempFileWritten] := by
  refine isSilent_view.arrives (by simp) fun v => ?_
  refine (isSilent_ofExcept _).arrives (by simp) fun _ => ?_
  refine (isSilent_ofExcept _).arrives (by simp) fun text => ?_
  refine Arrives.advance .templateRendered ?_
  refine isSilent_drawSuffix.arrives (by simp) fun suffix => ?_
  refine isSilent_view.arrives (by simp) fun u => ?_
  refine (isSilent_ofExcept _).arrives (by simp) fun paths => ?_
  refine (onlyReports_warnLater _).isSilent.arrives (by simp) fun _ => ?_
  refine (isSilent_writeFile _ _).arrives (by simp) fun _ => ?_
  exact Arrives.advance .tempFileWritten (arrives_pure _)

variable {tool : BuildTool} (ht : tool.EntersNoPhase)
include ht

theorem isSilent_ask (directory : String) (c : ToolCall) : (ask tool directory c).IsSilent :=
  (isSilent_record rfl).bind fun _ => (ht directory c).mapError _

theorem isSilent_addAll (directory : String) (ds : List Dependency) :
    (addAll tool directory ds).IsSilent := by
  induction ds with
  | nil => exact isSilent_pure _
  | cons d ds ih =>
    exact (isSilent_info _).bind fun _ => (isSilent_ask ht directory _).bind fun _ => ih

theorem arrives_build (p : Project) (ds : List Dependency) (artifact : String) :
    (build tool p ds artifact).Arrives [.dependenciesEnsured, .built] := by
  refine (isSilent_addAll ht p.directory ds).arrives (by simp) fun _ => ?_
  refine Arrives.advance .dependenciesEnsured ?_
  refine (isSilent_info _).arrives (by simp) fun _ => ?_
  refine (isSilent_ask ht p.directory _).arrives (by simp) fun _ => ?_
  exact arrives_advance .built

theorem isSilent_cleanUp (p : Project) (file : String) (tidy : Bool) :
    (cleanUp tool p file tidy).IsSilent := by
  refine (isSilent_removeOrWarn _ _).bind fun _ => ?_
  cases tidy with
  | false => exact isSilent_pure _
  | true =>
    refine (isSilent_ask ht p.directory .tidy).attempt.bind ?_
    intro r
    cases r with
    | ok _ => exact isSilent_pure _
    | error e => exact isSilent_warn _

end Injection

/-! ## The course of a task -/

/-- What a task enters, by whether it binds its symbol, in three ways. It stops before the
injected file is written. Or the build fails, and it cleans up. Or it builds, cleans up, and
goes on. -/
inductive Course (before after : List Phase) : Bool → List Phase → Prop
  | unwritten {ps : List Phase} (h : ps <+: before) (hne : ps ≠ before) :
    Course before after false ps
  | unbuilt {bs : List Phase} (h : bs <+: [.dependenciesEnsured]) :
    Course before after false (before ++ (bs ++ [.cleanup]))
  | built {ok : Bool} {ls : List Phase} (h : ls <+: after) (hok : ok = true ↔ ls = after) :
    Course before after ok (before ++ ([.dependenciesEnsured, .built, .cleanup] ++ ls))

namespace Course

variable {α β : Type} {before after L : List Phase} {a : Act Failure α} {f : α → Act Failure β}

/-- What comes first on the way to the writing. A step that does not tell by its phases
whether it succeeded can come there, if the injected file is not written by it. -/
theorem following (hne : before ≠ [])
    (ha : a.Enters fun ok ps => ps <+: L ∧ (ok = true → ps = L))
    (hf : ∀ x, (f x).Enters (Course before after)) :
    (a >>= f).Enters (Course (L ++ before) after) := by
  refine Enters.bind ha hf ?_ ?_
  · rintro ps ⟨hps, -⟩
    refine .unwritten (hps.trans (List.prefix_append L before)) ?_
    intro h
    have hlen := hps.length_le
    have hpos := List.length_pos_iff.mpr hne
    rw [h, List.length_append] at hlen
    omega
  · rintro ok ps qs ⟨-, hps⟩ hqs
    rw [hps rfl]
    cases hqs with
    | unwritten h hne =>
      exact .unwritten ((List.prefix_append_right_inj L).mpr h) (by simpa using hne)
    | unbuilt h =>
      rw [← List.append_assoc]
      exact .unbuilt h
    | built h hok =>
      rw [← List.append_assoc]
      exact .built h hok

/-- The last step on the way to the writing. -/
theorem written (ha : a.Arrives L) (hf : ∀ x, (f x).Enters (Course [] after)) :
    (a >>= f).Enters (Course L after) := by
  refine Enters.bind ha hf ?_ ?_
  · rintro ps ⟨hps, hok⟩
    exact .unwritten hps fun h => absurd (hok.mpr h) (by simp)
  · rintro ok ps qs ⟨-, hps⟩ hqs
    rw [hps.mp rfl]
    cases hqs with
    | unwritten h hne => exact absurd (List.prefix_nil.mp h) hne
    | unbuilt h => exact .unbuilt h
    | built h hok => exact .built h hok

/-- What comes after the loading. -/
theorem followed (hL : L ≠ []) (ha : a.Enters (Course before after))
    (hf : ∀ x, (f x).Arrives L) : (a >>= f).Enters (Course before (after ++ L)) := by
  refine Enters.bind ha hf ?_ ?_
  · intro ps hps
    cases hps with
    | unwritten h hne => exact .unwritten h hne
    | unbuilt h => exact .unbuilt h
    | built h hok =>
      refine .built (h.trans (List.prefix_append after L)) ?_
      refine iff_of_false (by simp) ?_
      intro hls
      have hlen := h.length_le
      have hpos := List.length_pos_iff.mpr hL
      rw [hls, List.length_append] at hlen
      omega
  · rintro ok ps qs hps ⟨hpre, hok⟩
    cases hps with
    | built h hls =>
      rw [hls.mp rfl, List.append_assoc, List.append_assoc]
      refine .built ((List.prefix_append_right_inj after).mpr hpre) ?_
      rw [hok, List.append_right_inj]

end Course

namespace Artifact

theorem isSilent_execute (path directory symbol : String) :
    (execute path directory symbol).IsSilent := by
  refine isSilent_read.bind fun h => isSilent_drawSuffix.bind fun s => ?_
  refine ((isSilent_launch _).mapError _).bind fun outcome => isSilent_view.bind fun v => ?_
  split
  · exact isSilent_ofExcept _
  · refine (isSilent_removeOrWarn _ _).bind fun _ => ?_
    split
    · exact isSilent_pure _
    · exact isSilent_ofExcept _

theorem isSilent_load (path directory : String) : (load path directory).IsSilent := by
  refine (isSilent_execute _ _ _).attempt.bind fun answer => ?_
  split
  · exact isSilent_pure _
  · exact (isSilent_removeOrWarn _ _).bind fun _ => isSilent_ofExcept _

theorem isSilent_bind (a : Artifact) (name : String) (signature : Signature) :
    (a.bind name signature).IsSilent := by
  unfold bind
  split
  · exact isSilent_pure _
  · exact (isSilent_removeOrWarn _ _).bind fun _ => isSilent_ofExcept _

end Artifact

theorem BoundSymbol.isSilent_call (f : BoundSymbol) : f.call.IsSilent :=
  (Artifact.isSilent_execute _ _ _).bind fun _ => isSilent_ofExcept _

namespace Injection

variable {tool : BuildTool} (ht : tool.EntersNoPhase)
include ht

theorem enters_buildAndLoad (p : Project) (plan : Plan) (file artifact : String) :
    (buildAndLoad tool p plan file artifact).Enters (Course [] [.loaded]) := by
  intro h w
  obtain ⟨bs, hbs, hpre, hok⟩ :=
    arrives_build ht p (missing p.manifest plan.dependencies) artifact h w
  have hcleaned : (afterCleanUp h tool p file artifact (missing p.manifest plan.dependencies)
      w).phases = w.phases ++ (bs ++ [.cleanup]) := by
    unfold afterCleanUp
    rw [(isSilent_cleanUp ht p file _).phases, World.phases_entered, ← List.append_assoc]
    exact congrArg (· ++ [Phase.cleanup]) hbs
  rw [perform_buildAndLoad]
  dsimp only
  generalize afterCleanUp h tool p file artifact _ w = z at hcleaned ⊢
  generalize (build tool p _ artifact).perform h w = b at hok ⊢
  rcases b with ⟨e | _, u⟩
  · have hstray : ((removeStray artifact).perform h z).2.phases = z.phases :=
      (isSilent_removeStray artifact).phases h z
    have hfailed : bs <+: [.dependenciesEnsured] := by
      rcases List.prefix_concat_iff.mp (show bs <+: [Phase.dependenciesEnsured] ++ [.built] from hpre)
        with hall | hbs
      · exact absurd (hok.mpr hall) (by simp [Except.toBool])
      · exact hbs
    exact ⟨_, hstray.trans hcleaned, .unbuilt hfailed⟩
  · have hall : bs = [.dependenciesEnsured, .built] := hok.mp rfl
    have hload : ((Artifact.load artifact p.directory).perform h z).2.phases = z.phases :=
      (Artifact.isSilent_load artifact p.directory).phases h z
    rw [hcleaned, hall] at hload
    dsimp only
    generalize (Artifact.load artifact p.directory).perform h z = l at hload ⊢
    rcases l with ⟨e | a, v⟩
    · refine ⟨_, hload, .built (show [] <+: _ from List.nil_prefix) ?_⟩
      simp [Except.toBool]
    · refine ⟨_, ?_, .built List.prefix_rfl ?_⟩
      · rw [World.phases_entered]
        rw [show v.phases = _ from hload, List.append_assoc]
        rfl
      · simp [Except.toBool]

theorem enters_injectSymbol (p : Project) (plan : Plan) (symbol : String)
    (signature : Signature) :
    (injectSymbol tool p plan symbol signature).Enters
      (Course [.templateRendered, .tempFileWritten] [.loaded, .symbolResolved]) := by
  have hinject : (inject tool p plan).Enters
      (Course [.templateRendered, .tempFileWritten] [.loaded]) := by
    refine Enters.within ?_ _
    intro h w
    rw [perform_bind_of_ok (perform_read _ _)]
    exact Course.written (arrives_prepare p plan)
      (fun _ => enters_buildAndLoad ht p plan _ _) h w
  refine Course.followed (L := [.symbolResolved]) (by simp) hinject fun A => ?_
  refine Enters.within ?_ _
  refine ((A.isSilent_bind symbol signature).mapError _).arrives (by simp) fun f => ?_
  exact Arrives.advance .symbolResolved (arrives_pure f)

end Injection

/-! ## Whole tasks -/

namespace Task

/-- The phases of a task before its file is written. -/
def leading (t : Task) : List Phase :=
  [.created, .manifestValidated, .versionChecked] ++ (t.planning ++ [.templateRendered])

/-- The phases of a task up to the writing of its file. -/
def preparing (t : Task) : List Phase := t.leading ++ [.tempFileWritten]

theorem preparing_eq (t : Task) : t.preparing = [.created, .manifestValidated, .versionChecked] ++
    (t.planning ++ [.templateRendered, .tempFileWritten]) := by
  simp [preparing, leading]

theorem enters_bindWith {tool : BuildTool} (ht : tool.EntersNoPhase) (p : Project) (t : Task) :
    (t.bindWith tool p).Enters
      (Course (t.planning ++ [.templateRendered, .tempFileWritten]) [.loaded, .symbolResolved]) :=
  Course.following (by simp) (t.enters_plan p) fun plan =>
    Injection.enters_injectSymbol ht p plan _ _

theorem enters_bindAt {tool : BuildTool} (ht : tool.EntersNoPhase) (directory : String)
    (config : Config) (t : Task) :
    (t.bindAt tool directory config).Enters (Course t.preparing [.loaded, .symbolResolved]) := by
  have hopen := Project.arrives_openWith directory config
  rw [preparing_eq]
  exact Course.following (by simp) (hopen.mono fun ok ps hps => ⟨hps.1, hps.2.mp⟩)
    fun p => t.enters_bindWith ht p

theorem enters_bind (directory : String) (t : Task) :
    (t.bind directory).Enters (Course t.preparing [.loaded, .symbolResolved]) := by
  have hopen : (Project.openIn directory).Arrives [.created, .manifestValidated, .versionChecked] :=
    (Config.onlyReports_search directory).isSilent.arrives (by simp) fun config =>
      Project.arrives_openWith directory config
  rw [preparing_eq]
  exact Course.following (by simp) (hopen.mono fun ok ps hps => ⟨hps.1, hps.2.mp⟩)
    fun p => t.enters_bindWith p.toolchain.entersNoPhase_tool p

/-- Binds the symbol of a task and calls it. -/
def calling (bound : Act Failure BoundSymbol) : Act Failure (List UInt8) := do
  let f ← bound
  invoke f

theorem enters_invoke (f : BoundSymbol) : (invoke f).Enters fun _ ps => ps = [.invoking] := by
  intro h w
  have hcall : ((mapError Failure.symbol f.call).perform h
      { w.entered .invoking with context := (w.context.inPhase .invoking).onSymbol f.name }).2.phases
      = w.phases ++ [.invoking] :=
    ((f.isSilent_call.mapError Failure.symbol).phases h _).trans (w.phases_entered .invoking)
  exact ⟨[.invoking], hcall, rfl⟩

end Task

/-! ## The order of the phases -/

/-- The phases come in the order of an injection. The phases are all that the task entered,
and `bound` says whether it bound its symbol. -/
structure InOrder (t : Task) (bound : Bool) (ps : List Phase) : Prop where
  increasing : ps.Pairwise fun p q => q.after p
  callSite : .callSiteResolved ∈ ps → t = .openapi
  cleanup : .cleanup ∈ ps ↔ .tempFileWritten ∈ ps
  built : .built ∈ ps → .dependenciesEnsured ∈ ps
  loaded : .loaded ∈ ps → .built ∈ ps
  bound : bound = true ↔ .symbolResolved ∈ ps
  invoking : .invoking ∈ ps → .symbolResolved ∈ ps

namespace Task

/-- All phases that a task can enter. -/
def itinerary (t : Task) : List Phase :=
  t.preparing ++ ([.dependenciesEnsured, .built, .cleanup] ++
    ([.loaded, .symbolResolved] ++ [.invoking]))

/-- A task passes over some of the phases, and comes back to none. -/
theorem itinerary_sublist_all (t : Task) : t.itinerary.Sublist Phase.all := by
  unfold itinerary
  rw [preparing_eq]
  cases t with
  | openapi => exact .refl _
  | _ =>
    dsimp only [planning]
    decide

theorem increasing_itinerary (t : Task) : t.itinerary.Pairwise fun p q => q.after p := by
  have hall : Phase.all.Pairwise fun p q => q.after p := by decide
  exact hall.sublist t.itinerary_sublist_all

theorem callSite_of_mem_itinerary {t : Task} (h : .callSiteResolved ∈ t.itinerary) :
    t = .openapi := by
  cases t with
  | openapi => rfl
  | _ => simp [itinerary, preparing_eq, planning] at h

/-- What comes before the writing of the injected file is neither that nor anything later. -/
theorem notMem_leading {t : Task} {p : Phase} (hp : 5 ≤ p.rank) : p ∉ t.leading := by
  intro hmem
  simp only [leading, List.mem_append, List.mem_cons, List.not_mem_nil, or_false] at hmem
  rcases hmem with (rfl | rfl | rfl) | hplan | rfl
  · exact absurd hp (by decide)
  · exact absurd hp (by decide)
  · exact absurd hp (by decide)
  · cases t with
    | openapi =>
      rw [List.mem_singleton.mp hplan] at hp
      exact absurd hp (by decide)
    | _ => cases hplan
  · exact absurd hp (by decide)

/-- Of the phases from the writing on, a task that has prepared everything has entered the
writing alone. -/
theorem mem_preparing {t : Task} {p : Phase} (hp : 5 ≤ p.rank) :
    p ∈ t.preparing ↔ p = .tempFileWritten := by
  rw [preparing, List.mem_append, List.mem_singleton]
  exact or_iff_right (notMem_leading hp)

end Task

namespace Course

variable {t : Task} {ok : Bool} {ps : List Phase}

/-- A task enters its phases in turn. -/
theorem sublist_itinerary (h : Course t.preparing [.loaded, .symbolResolved] ok ps) :
    (ps ++ if ok then [Phase.invoking] else []).Sublist t.itinerary := by
  unfold Task.itinerary
  cases h with
  | unwritten h hne =>
    simp only [Bool.false_eq_true, if_false, List.append_nil]
    exact h.sublist.trans (List.sublist_append_left _ _)
  | @unbuilt bs h =>
    simp only [Bool.false_eq_true, if_false, List.append_nil]
    refine List.Sublist.append (List.Sublist.refl _) ?_
    exact (h.sublist.append (List.sublist_append_right [.built] [.cleanup])).trans
      (List.sublist_append_left _ _)
  | @built _ ls h hok =>
    rw [List.append_assoc, List.append_assoc]
    refine List.Sublist.append (List.Sublist.refl _) (List.Sublist.append (List.Sublist.refl _) ?_)
    refine h.sublist.append ?_
    split
    · exact List.Sublist.refl _
    · exact List.nil_sublist _

/-- A task that binds its symbol enters all its phases. -/
theorem eq_itinerary (h : Course t.preparing [.loaded, .symbolResolved] true ps) :
    ps ++ [.invoking] = t.itinerary := by
  cases h with
  | built h hok =>
    rw [hok.mp rfl]
    simp [Task.itinerary]

theorem inOrder (h : Course t.preparing [.loaded, .symbolResolved] ok ps) :
    InOrder t ok (ps ++ if ok then [.invoking] else []) := by
  have hsub := h.sublist_itinerary
  have hincreasing := t.increasing_itinerary.sublist hsub
  have hcall := fun hp => Task.callSite_of_mem_itinerary (hsub.subset hp)
  cases h with
  | unwritten h hne =>
    simp only [Bool.false_eq_true, if_false, List.append_nil] at hincreasing hcall ⊢
    have hnot : ∀ p : Phase, 5 ≤ p.rank → p ∉ ps := by
      intro p hp hmem
      rcases List.prefix_concat_iff.mp h with hall | h
      · exact hne hall
      · exact Task.notMem_leading hp (h.subset hmem)
    exact ⟨hincreasing, hcall, iff_of_false (hnot _ (by decide)) (hnot _ (by decide)),
      fun hp => absurd hp (hnot _ (by decide)), fun hp => absurd hp (hnot _ (by decide)),
      iff_of_false (by simp) (hnot _ (by decide)), fun hp => absurd hp (hnot _ (by decide))⟩
  | @unbuilt bs h =>
    simp only [Bool.false_eq_true, if_false, List.append_nil] at hincreasing hcall ⊢
    rcases List.prefix_concat_iff.mp (show bs <+: [] ++ [Phase.dependenciesEnsured] from h) with
      rfl | hbs
    · refine ⟨hincreasing, hcall, ?_, ?_, ?_, ?_, ?_⟩ <;>
        simp (disch := decide) [Task.mem_preparing]
    · rw [List.prefix_nil.mp hbs] at hincreasing hcall ⊢
      refine ⟨hincreasing, hcall, ?_, ?_, ?_, ?_, ?_⟩ <;>
        simp (disch := decide) [Task.mem_preparing]
  | @built _ ls h hok =>
    cases ok with
    | true =>
      rw [hok.mp rfl] at hincreasing hcall ⊢
      refine ⟨hincreasing, hcall, ?_, ?_, ?_, ?_, ?_⟩ <;>
        simp (disch := decide) [Task.mem_preparing]
    | false =>
      simp only [Bool.false_eq_true, if_false, List.append_nil] at hincreasing hcall ⊢
      have hls : ls <+: [.loaded] := by
        rcases List.prefix_concat_iff.mp
          (show ls <+: [Phase.loaded] ++ [.symbolResolved] from h) with hall | hls
        · exact absurd (hok.mpr hall) (by simp)
        · exact hls
      have hnot : ∀ p : Phase, p ≠ .loaded → p ∉ ls := fun p hp hmem =>
        hp (List.mem_singleton.mp (hls.subset hmem))
      refine ⟨hincreasing, hcall, ?_, ?_, ?_, ?_, ?_⟩ <;>
        simp (disch := decide) [Task.mem_preparing, hnot]

end Course

theorem Task.inOrder_calling {t : Task} {bound : Act Failure BoundSymbol}
    (hb : bound.Enters (Course t.preparing [.loaded, .symbolResolved])) (h : Host) (w : World) :
    ∃ ps, ((calling bound).perform h w).2.phases = w.phases ++ ps ∧
      InOrder t (bound.perform h w).1.toBool ps := by
  obtain ⟨ps, hps, hcourse⟩ := hb h w
  have horder := hcourse.inOrder
  unfold calling
  rw [perform_bind]
  generalize bound.perform h w = z at hps horder ⊢
  rcases z with ⟨e | f, u⟩
  · refine ⟨ps, hps, ?_⟩
    simpa [Except.toBool] using horder
  · obtain ⟨qs, hqs, rfl⟩ := enters_invoke f h u
    refine ⟨ps ++ [.invoking], ?_, horder⟩
    dsimp only at hps ⊢
    rw [hqs, hps, List.append_assoc]

/-- The phases of a task come in their order, whatever fails on the way, up to the call of the
symbol that the task binds. This holds for every build tool and all settings, and for the
settings that are found and the build tool that they name. -/
theorem the_phases_of_a_task_come_in_their_order (directory : String) (t : Task) (h : Host)
    (w : World) :
    (∀ (tool : BuildTool) (config : Config), tool.EntersNoPhase →
        ∃ ps, ((Task.calling (t.bindAt tool directory config)).perform h w).2.phases =
            w.phases ++ ps ∧
          InOrder t ((t.bindAt tool directory config).perform h w).1.toBool ps) ∧
      ∃ ps, ((Task.calling (t.bind directory)).perform h w).2.phases = w.phases ++ ps ∧
        InOrder t ((t.bind directory).perform h w).1.toBool ps := by
  refine ⟨?_, Task.inOrder_calling (t.enters_bind directory) h w⟩
  intro tool config ht
  exact Task.inOrder_calling (t.enters_bindAt ht directory config) h w

/-- The phases of a task that binds its symbol, for every build tool. -/
theorem Task.phases_of_bound {tool : BuildTool} (ht : tool.EntersNoPhase) {directory : String}
    {config : Config} {t : Task} {h : Host} {w u : World} {f : BoundSymbol}
    (hbound : (t.bindAt tool directory config).perform h w = (.ok f, u)) :
    ((calling (t.bindAt tool directory config)).perform h w).2.phases =
      w.phases ++ t.itinerary := by
  obtain ⟨ps, hps, hcourse⟩ := t.enters_bindAt ht directory config h w
  obtain ⟨qs, hqs, rfl⟩ := enters_invoke f h u
  rw [hbound] at hps hcourse
  unfold calling
  rw [perform_bind_of_ok hbound, hqs, show u.phases = _ from hps, List.append_assoc,
    hcourse.eq_itinerary]

/-! ## The shop on a stage -/

namespace Sample

/-- The plan of running the migrations of the shop. -/
def migrating : Plan :=
  ⟨"inject/migrate", [(.modelImportPath, .text "shop/database/model")], []⟩

theorem source_migrating : ∃ text, Injection.source project migrating = .ok text := by
  have hpage : ⟨"inject/migrate/default.go.stub", Stub.Injection.migrate⟩ ∈ Stub.pages :=
    List.mem_of_getElem? (i := 7) rfl
  exact Injection.exists_source hpage (Stub.select_of_unversioned (by decide) (by decide) _)
    (by decide +kernel)

/-- On the stage, the migrations of the shop are bound. -/
theorem bound_migrate :
    ∃ f u, (Task.migrate.bindAt stageTool.tool "/shop" .default).perform (stage.host 7) furnished =
      (.ok f, u) := by
  obtain ⟨w, hopen, hw⟩ := openWith_shop at?_shop_furnished
    (by simp [Files.Store.at?, furnished]) (stage.host 7)
    (show furnished.view = ⟨furnished.store, []⟩ from rfl)
  have hmodel : Task.modelPlan project .migrate = .ok migrating :=
    eq_ok_of_toOption (by decide +kernel)
  have hplan : (Task.migrate.plan project).perform (stage.host 7) w = (.ok migrating, w) :=
    Prod.ext hmodel rfl
  have hlisted : (table.symbols.getD []).find? (fun s => s.1 == "Migrate") =
      some ("Migrate", Signature.nothing.typeText) := rfl
  obtain ⟨f, u, hbound, -⟩ := a_rehearsal_gives_what_the_stage_answers
    (isRehearsal_playing source_migrating hw) partOf_table parse_tableText rfl hlisted
  refine ⟨f, u, ?_⟩
  unfold Task.bindAt
  rw [perform_bind_of_ok hopen]
  unfold Task.bindWith
  rw [perform_bind_of_ok hplan]
  exact hbound

/-- The migrations enter all phases in their order, up to the call. -/
theorem the_phases_of_the_migrated_shop_come_in_their_order :
    ((Task.calling (Task.migrate.bindAt stageTool.tool "/shop" .default)).perform (stage.host 7)
        furnished).2.phases =
      [.created, .manifestValidated, .versionChecked, .templateRendered, .tempFileWritten,
       .dependenciesEnsured, .built, .cleanup, .loaded, .symbolResolved, .invoking] ∧
      InOrder .migrate true
        [.created, .manifestValidated, .versionChecked, .templateRendered, .tempFileWritten,
         .dependenciesEnsured, .built, .cleanup, .loaded, .symbolResolved, .invoking] := by
  obtain ⟨f, u, hbound⟩ := bound_migrate
  have hphases := Task.phases_of_bound stageTool.entersNoPhase_tool hbound
  obtain ⟨ps, hps, horder⟩ := (the_phases_of_a_task_come_in_their_order "/shop" .migrate
    (stage.host 7) furnished).1 stageTool.tool .default stageTool.entersNoPhase_tool
  cases List.append_cancel_left (hphases.symm.trans hps)
  rw [hbound] at horder
  exact ⟨hphases, horder⟩

end Sample

end Graft
