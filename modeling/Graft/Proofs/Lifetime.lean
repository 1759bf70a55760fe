-- How long the file of an artifact lives. A run that fails leaves none behind.
-- A run that does not fail gives the file to what it returns: it stays through
-- all calls, and is gone once its owner is dropped.
import Graft.Proofs.Rehearsals

namespace Graft

open Act Deed Files Injection

/-! ## What other programs do to the file -/

namespace Deed

/-- Where a file could stand at the end of the path, one still can. -/
def KeepsOpen (path : String) (d : Deed) : Prop :=
  ∀ q, d.before.view.Offers path q → d.after.view.Offers path q

/-- No link is put where the path leads. -/
def PutsNoLink (path : String) (d : Deed) : Prop :=
  d.before.view.HasNoLink path → d.after.view.HasNoLink path

/-- Files that come and go put no link anywhere and take no room away. -/
theorem keeps_of_sameWays {path name : String} (hn : Path.EndsIn path name) {d : Deed}
    (hw : d.before.store.SameWays d.after.store) (hc : d.after.cwd = d.before.cwd) :
    d.KeepsOpen path ∧ d.PutsNoLink path := by
  have hafter : d.after.view = ⟨d.after.store, d.before.cwd⟩ := by rw [← hc]; rfl
  refine ⟨?_, ?_⟩
  · intro q hq
    rw [hafter]
    exact ⟨hq.1.of_sameWays hn hw, hw.isOpen hq.2⟩
  · intro hl q target hq he
    rw [hafter] at hq he
    exact hl q target (hq.of_sameWays hn hw.symm) (hw.symm.link he)

/-- The artifact does not delete itself, and does not answer with a link. -/
structure IsFaithful (tempDir artifact : String) (d : Deed) : Prop where
  keepsOpen : d.KeepsOpen artifact
  stays : ∀ q, d.before.view.Holds artifact q → d.after.view.Holds artifact q
  answers : ∀ symbol s, d.doer = .artifact symbol s → d.succeeded = true →
    d.after.view.HasNoLink (Artifact.resultPath tempDir s)

end Deed

/-! ## Runs of the artifact -/

namespace Artifact

variable {h : Host} {path directory symbol : String} {w : World} {a : Place} {s : Suffix}
  (hn : Path.EndsIn path (artifactName s))

include hn

theorem keeps_of_mem_executeDeeds
    (hf : (firstDeed h path directory symbol w).IsFaithful h.tempDir path) {d : Deed}
    (hd : d ∈ executeDeeds h path directory symbol w) :
    d.KeepsOpen path ∧ ∀ q, d.before.view.Holds path q → d.after.view.Holds path q := by
  unfold executeDeeds at hd
  rcases List.mem_cons.mp hd with rfl | hd
  · exact ⟨hf.keepsOpen, hf.stays⟩
  · split at hd
    · rename_i hs
      have hl := hf.answers _ _ rfl (Bool.and_eq_true_iff.mp hs).1
      rw [List.mem_singleton.mp hd]
      refine ⟨?_, ?_⟩
      · intro q hq
        exact offers_removed hn hq hl
      · intro q hq
        exact holds_removed hn (endsIn_resultPath _ _) (artifactName_ne_resultName _ _) hq hl
    · cases hd

theorem holds_execute (hf : (firstDeed h path directory symbol w).IsFaithful h.tempDir path)
    (ha : w.view.Holds path a) :
    ((execute path directory symbol).perform h w).2.view.Holds path a :=
  ((chain_executeDeeds h path directory symbol w).keeps (I := fun v => v.Holds path a)
    (fun _ hd => (keeps_of_mem_executeDeeds hn hf hd).2 a) ha).1

theorem offers_execute (hf : (firstDeed h path directory symbol w).IsFaithful h.tempDir path)
    (ha : w.view.Offers path a) :
    ((execute path directory symbol).perform h w).2.view.Offers path a :=
  ((chain_executeDeeds h path directory symbol w).keeps (I := fun v => v.Offers path a)
    (fun _ hd => (keeps_of_mem_executeDeeds hn hf hd).1 a) ha).1

theorem none_discard {ε : Type} (hr : ∀ n, h.refusesRemoval n path = none)
    (ha : w.view.Offers path a) :
    ((discard path : Act ε Unit).perform h w).2.store.at? a = none := by
  have hv :=
    (perform_removeOrWarn (ε := ε) h w "Could not delete compiled artifact at " path).2.view
  exact (congrArg (fun v => v.store.at? a) hv).trans (has_none_removed hn hr ha)

end Artifact

/-! ## Owners of the artifact -/

/-- A program is run only if the file of the artifact is there. -/
def Host.RunsOnlyFiles (h : Host) (artifact : String) : Prop :=
  ∀ n l v outcome, h.launch n l v = .ok outcome → l.program = artifact → v.isFile artifact = true

namespace Artifact

variable {h : Host} {path directory : String} {w : World} {a : Place} {s : Suffix}
  (hn : Path.EndsIn path (artifactName s))

include hn

theorem holds_of_succeeded {symbol : String} (hl : h.RunsOnlyFiles path)
    (ha : w.view.Offers path a)
    (hd : (firstDeed h path directory symbol w).succeeded = true) : w.view.Holds path a := by
  unfold firstDeed ran ofStep launch at hd
  rw [perform_ofFunction] at hd
  dsimp only at hd
  split at hd
  · cases hd
  · rename_i outcome hlaunch
    exact (ha.holds_iff hn).mpr (View.exists?_of_isFile (hl _ _ _ _ hlaunch rfl))

/-- Loading gives the artifact its file, or leaves none. -/
theorem load_cases (hl : h.RunsOnlyFiles path) (hr : ∀ n, h.refusesRemoval n path = none)
    (hf : (firstDeed h path directory tableSymbol w).IsFaithful h.tempDir path)
    (ha : w.view.Offers path a) :
    (∃ e, ((load path directory).perform h w).1 = .error e ∧
        ((load path directory).perform h w).2.store.at? a = none) ∨
      ∃ symbols, ((load path directory).perform h w).1 = .ok ⟨path, directory, symbols⟩ ∧
        ((load path directory).perform h w).2.view.Holds path a := by
  rw [perform_load]
  cases hload : loaded path ((execute path directory tableSymbol).perform h w).1 with
  | error e => exact .inl ⟨e, rfl, none_discard hn hr (offers_execute hn hf ha)⟩
  | ok symbols =>
    refine .inr ⟨symbols, rfl, ?_⟩
    cases he : ((execute path directory tableSymbol).perform h w).1 with
    | error e =>
      rw [he] at hload
      cases hload
    | ok answer =>
      have hd := succeeded_of_execute h path directory tableSymbol w he
      exact holds_execute hn hf (holds_of_succeeded hn hl ha hd)

end Artifact

namespace BoundSymbol

variable (h : Host) (f : BoundSymbol)

/-- The world after the symbol was called a number of times. -/
def afterCalls : Nat → World → World
  | 0, w => w
  | n + 1, w => afterCalls n (f.call.perform h w).2

/-- The runs of the artifact for the calls. -/
def callRuns : Nat → World → List Deed
  | 0, _ => []
  | n + 1, w =>
    Artifact.firstDeed h f.artifact.path f.artifact.directory f.name w ::
      callRuns n (f.call.perform h w).2

/-- The symbol can be called any number of times, and the file of its artifact stays. Once
the symbol is dropped, nothing stands at its place. -/
def Serves (a : Place) (w : World) : Prop :=
  ∀ n, (∀ d ∈ f.callRuns h n w, d.IsFaithful h.tempDir f.artifact.path) →
    (f.afterCalls h n w).view.Holds f.artifact.path a ∧
      ((f.artifact.drop : Act SymbolError Unit).perform h
        (f.afterCalls h n w)).2.store.at? a = none

theorem perform_call (w : World) :
    (f.call.perform h w).2 =
      ((Artifact.execute f.artifact.path f.artifact.directory f.name).perform h w).2 := by
  unfold call
  rw [perform_bind]
  rcases (Artifact.execute f.artifact.path f.artifact.directory f.name).perform h w with ⟨r, u⟩
  cases r <;> rfl

/-- If each call leaves the files as they are, so does any number of calls. -/
theorem view_afterCalls {h : Host} {f : BoundSymbol} {v : View}
    (hcall : ∀ w, w.view = v → (f.call.perform h w).2.view = v) {w : World} (hw : w.view = v)
    (n : Nat) : (f.afterCalls h n w).view = v := by
  induction n generalizing w with
  | zero => exact hw
  | succ n ih => exact ih (hcall w hw)

theorem serves_of_holds {h : Host} {f : BoundSymbol} {s : Suffix} {a : Place} {w : World}
    (hn : Path.EndsIn f.artifact.path (artifactName s))
    (hr : ∀ n, h.refusesRemoval n f.artifact.path = none)
    (ha : w.view.Holds f.artifact.path a) : f.Serves h a w := by
  intro n
  induction n generalizing w with
  | zero =>
    intro _
    exact ⟨ha, Artifact.none_discard hn hr ha.offers⟩
  | succ n ih =>
    intro hruns
    have hf := hruns _ List.mem_cons_self
    have hcall : (f.call.perform h w).2.view.Holds f.artifact.path a := by
      rw [perform_call]
      exact Artifact.holds_execute hn hf ha
    exact ih hcall fun d hd => hruns d (List.mem_cons_of_mem _ hd)

end BoundSymbol

namespace Artifact

variable (h : Host) (A : Artifact) (name : String) (signature : Signature) (w : World)

/-- Binding a symbol drops the artifact, or gives it to the symbol and changes nothing. -/
theorem bind_cases :
    (∃ e, (A.bind name signature).perform h w =
        (.error e, ((A.drop : Act SymbolError Unit).perform h w).2)) ∨
      (A.bind name signature).perform h w = (.ok ⟨A, name, signature⟩, w) := by
  unfold bind
  cases A.mismatch? name signature with
  | none => exact .inr rfl
  | some e =>
    refine .inl ⟨e, ?_⟩
    unfold drop
    dsimp only
    rw [perform_bind_of_ok (Prod.ext (perform_discard h A.path w).1 rfl)]
    rfl

/-- The owner of the artifact is the artifact itself or a symbol that is bound to it. The
file is there, and it is gone once the owner is dropped or a symbol cannot be bound. -/
def IsOwned (a : Place) (w : World) : Prop :=
  w.view.Holds A.path a ∧
    ((A.drop : Act SymbolError Unit).perform h w).2.store.at? a = none ∧
    ∀ name signature,
      match (A.bind name signature).perform h w with
      | (.error _, u) => u.store.at? a = none
      | (.ok f, u) => f.Serves h a u

theorem isOwned_of_holds {h : Host} {A : Artifact} {s : Suffix} {a : Place} {w : World}
    (hn : Path.EndsIn A.path (artifactName s)) (hr : ∀ n, h.refusesRemoval n A.path = none)
    (ha : w.view.Holds A.path a) : A.IsOwned h a w := by
  refine ⟨ha, none_discard hn hr ha.offers, ?_⟩
  intro name signature
  rcases bind_cases h A name signature w with ⟨e, he⟩ | hok
  · rw [he]
    exact none_discard hn hr ha.offers
  · rw [hok]
    exact BoundSymbol.serves_of_holds hn hr ha

end Artifact

/-! ## Whole runs -/

namespace Run

theorem none_removeStray {h : Host} {w : World} {path name : String} {q : Place}
    (hn : Path.EndsIn path name) (hr : ∀ n, h.refusesRemoval n path = none)
    (hq : w.view.Offers path q) :
    ((removeStray path).perform h w).2.store.at? q = none := by
  unfold removeStray
  rw [perform_bind_of_ok (perform_view _ _)]
  split
  · have hv := (perform_removeOrWarn (ε := Failure) h w "Could not delete " path).2.view
    exact (congrArg (fun v => v.store.at? q) hv).trans (has_none_removed hn hr hq)
  · rename_i he
    rcases Store.isOpen_iff.mp hq.2 with hnone | hfile
    · exact hnone
    · exact absurd ((hq.holds_iff hn).mp ⟨hq.1, hfile⟩) he

/-- What is expected of the host and of other programs: every file can be removed, and the
artifact runs only if it is there; nothing stands in its place before; the build tool makes
a file of it, if anything, and no link of the injected file; and the artifact does not
delete itself. -/
structure IsOrderly (r : Run) (a : Place) : Prop where
  removes : ∀ n path, r.host.refusesRemoval n path = none
  launches : r.host.RunsOnlyFiles r.artifact
  vacant : r.start.view.Has r.artifact a none
  tool : ∀ d ∈ r.deeds, d.call?.isSome = true →
    d.KeepsOpen r.artifact ∧ d.PutsNoLink r.file
  faithful : ∀ d ∈ r.deeds, ∀ symbol s, d.doer = .artifact symbol s →
    d.IsFaithful r.host.tempDir r.artifact

variable {r : Run} {a : Place}

/-- Whatever the build tool does, only a file can stand in the place of the artifact once
the run has cleaned up. -/
theorem offers_cleaned (hw : r.HasWritten) (ho : r.IsOrderly a) :
    r.cleaned.view.Offers r.artifact a := by
  obtain ⟨text, q, -, -, hprep, -⟩ := written hw
  obtain ⟨tidies, htidies, hasked, hchain⟩ := r.cleanUpDeeds_cases
  have hbuild : ∀ d ∈ r.buildDeeds, d.KeepsOpen r.artifact ∧ d.PutsNoLink r.file := by
    intro d hd
    refine ho.tool d ?_ ?_
    · rw [deeds_of_hasWritten hw]
      exact List.mem_append_left _ (List.mem_append_left _ hd)
    · obtain ⟨c, w, rfl⟩ := exists_asked_of_mem_buildDeeds _ _ _ _ hd
      rfl
  have htidy : ∀ d ∈ tidies, d.KeepsOpen r.artifact := by
    intro d hd
    refine (ho.tool d ?_ ?_).1
    · rw [deeds_of_hasWritten hw, htidies]
      exact List.mem_append_left _ (List.mem_append_right _ (List.mem_cons_of_mem _ hd))
    · obtain ⟨w, rfl⟩ := hasked d hd
      rfl
  have hnoLink : r.prepared.2.view.HasNoLink r.file := by
    intro p target hp
    cases hp.unique hprep.1
    rw [hprep.2]
    simp
  have hbuilt := (r.chain_buildDeeds.keeps (I := fun v => v.Offers r.artifact a)
    (fun d hd => (hbuild d hd).1 a)
    (offers_written hw r.endsIn_artifact ho.vacant.offers)).1
  have hlink := (r.chain_buildDeeds.keeps (I := fun v => v.HasNoLink r.file)
    (fun d hd => (hbuild d hd).2) hnoLink).1
  have hremoved : (removed r.file r.host (r.built.2.entered .cleanup)).after.view.Offers
      r.artifact a := offers_removed r.endsIn_artifact hbuilt hlink
  exact (hchain.keeps (I := fun v => v.Offers r.artifact a) (fun d hd => htidy d hd a)
    hremoved).1

/-- A run that fails leaves no artifact, and one that does not fail gives it its file. -/
theorem outcome_cases (ho : r.IsOrderly a) :
    (∃ e, r.result = .error e ∧ r.after.store.at? a = none) ∨
      ∃ A, r.result = .ok A ∧ A.path = r.artifact ∧ r.after.view.Holds r.artifact a := by
  cases hp : r.prepared.1 with
  | error e =>
    obtain ⟨hresult, ha⟩ := outcome_of_error hp
    have hv : r.after.view = r.start.view :=
      ha.view.trans (prepare_error _ _ _ _ hp fun n => ho.removes n _)
    have hstore : r.after.store = r.start.store := congrArg View.store hv
    refine .inl ⟨e, hresult, ?_⟩
    rw [hstore]
    exact ho.vacant.2
  | ok s =>
    have hw : r.HasWritten := ⟨s, hp⟩
    have hcleaned := offers_cleaned hw ho
    cases hb : r.built.1 with
    | error e =>
      obtain ⟨hresult, ha⟩ := outcome_of_failed_build hw hb
      have hstray : ((removeStray r.artifact).perform r.host r.cleaned).2.store.at? a = none :=
        none_removeStray r.endsIn_artifact (fun n => ho.removes n _) hcleaned
      have hstore := congrArg View.store ha.view
      rw [World.store_view, World.store_view] at hstore
      refine .inl ⟨e, hresult, ?_⟩
      rw [hstore]
      exact hstray
    | ok x =>
      obtain ⟨hresult, ha⟩ := outcome_of_build hw hb
      have hrun : (Artifact.firstDeed r.host r.artifact r.project.directory Artifact.tableSymbol
          r.cleaned) ∈ r.deeds := by
        rw [deeds_of_hasWritten hw, lastDeeds_of_ok hb]
        exact List.mem_append_right _ (List.mem_append_left _ List.mem_cons_self)
      rcases Artifact.load_cases r.endsIn_artifact ho.launches (fun n => ho.removes n _)
        (ho.faithful _ hrun _ _ rfl) hcleaned with ⟨e, he, hnone⟩ | ⟨symbols, hok, hholds⟩
      · rw [he] at hresult
        have hstore := congrArg View.store ha.view
        rw [World.store_view, World.store_view] at hstore
        refine .inl ⟨_, hresult, ?_⟩
        rw [hstore]
        exact hnone
      · rw [hok] at hresult
        rw [← ha.view] at hholds
        exact .inr ⟨_, hresult, rfl, hholds⟩

/-- The injection that binds a symbol at its end. -/
def bound (r : Run) (name : String) (signature : Signature) : Except Failure BoundSymbol × World :=
  (injectSymbol r.tool r.project r.plan name signature).perform r.host r.start

/-- It fails as the run does, or ends as the binding in a world with the same files. -/
theorem bound_cases (r : Run) (name : String) (signature : Signature) :
    (∃ e, r.result = .error e ∧ r.bound name signature = (.error e, r.after)) ∨
      ∃ A u, r.result = .ok A ∧ u.view = r.after.view ∧
        (r.bound name signature).1 = ((A.bind name signature).perform r.host u).1.mapError .symbol ∧
        World.Alike ((A.bind name signature).perform r.host u).2 (r.bound name signature).2 := by
  unfold bound injectSymbol result after outcome
  rw [perform_bind]
  rcases (inject r.tool r.project r.plan).perform r.host r.start with ⟨e | A, u⟩
  · exact .inl ⟨e, rfl, rfl⟩
  · refine .inr ⟨A, { u with context := u.context.onSymbol name }, rfl, rfl, ?_⟩
    dsimp only
    rw [perform_within, perform_bind, perform_mapError]
    generalize (A.bind name signature).perform r.host _ = z
    rcases z with ⟨e | f, v⟩
    · exact ⟨rfl, rfl, rfl⟩
    · exact ⟨rfl, (v.alike_entered .symbolResolved).trans ⟨rfl, rfl⟩⟩

end Run

/-! ## Runs on a stage -/

open Rehearsal

/-- A deed that only lets files come and change spares the artifact. -/
theorem Deed.IsTame.isFaithful {d : Deed} (h : d.IsTame) {tempDir artifact name : String}
    (hn : Path.EndsIn artifact name) : d.IsFaithful tempDir artifact where
  keepsOpen := (keeps_of_sameWays hn h.1.gains.ways h.2).1
  stays := by
    intro q hq
    rw [h.view_after]
    exact ⟨hq.1.of_sameWays hn h.1.gains.ways, h.1.gains.files q hq.2⟩
  answers := fun _ _ _ _ _ target _ => h.1.tame.noLinks _ target

namespace Rehearsal.Stage

variable {st : Stage} {path directory symbol : String} {w : World} {s : Suffix}

theorem isTame_firstDeed (hst : st.IsTame) (process : Nat) (path directory symbol : String)
    (h : IsTameTree w.store) :
    (Artifact.firstDeed (st.host process) path directory symbol w).IsTame :=
  isTame_ran hst process path directory symbol _ (w := { w with drawn := w.drawn + 1 }) h

/-- What is run of the artifact leaves the tree tame. -/
theorem isTameTree_execute (hst : st.IsTame) (process : Nat) (h : IsTameTree w.store) :
    IsTameTree ((Artifact.execute path directory symbol).perform (st.host process) w).2.store := by
  have hfirst := (isTame_firstDeed hst process path directory symbol h).1.tame
  have hkeep : ∀ d ∈ Artifact.executeDeeds (st.host process) path directory symbol w,
      IsTameTree d.before.store → IsTameTree d.after.store := by
    intro d hd hbefore
    unfold Artifact.executeDeeds at hd
    rcases List.mem_cons.mp hd with hd | hd
    · rw [hd]
      exact hfirst
    · split at hd
      · rw [List.mem_singleton.mp hd] at hbefore ⊢
        exact isTameTree_removed _ _ hbefore
      · cases hd
  exact ((Artifact.chain_executeDeeds (st.host process) path directory symbol w).keeps
    (I := fun v => IsTameTree v.store) hkeep h).1

/-- However often a symbol is called, the artifact of a tame stage spares its own file. -/
theorem isFaithful_of_mem_callRuns (hst : st.IsTame) (process : Nat) {f : BoundSymbol}
    (hn : Path.EndsIn f.artifact.path (artifactName s)) (h : IsTameTree w.store) (n : Nat) :
    ∀ d ∈ f.callRuns (st.host process) n w, d.IsFaithful st.tempDir f.artifact.path := by
  induction n generalizing w with
  | zero =>
    intro d hd
    cases hd
  | succ n ih =>
    intro d hd
    rcases List.mem_cons.mp hd with rfl | hd
    · exact (isTame_firstDeed hst process _ _ _ h).isFaithful hn
    · refine ih ?_ d hd
      rw [BoundSymbol.perform_call]
      exact isTameTree_execute hst process h

end Rehearsal.Stage

namespace Run

variable {r : Run} {st : Stage} {a : Place}

/-- A run on a tame stage is as it is expected of the host and of other programs. -/
theorem IsStaged.isOrderly (hr : r.IsStaged st) (hvacant : r.start.view.Has r.artifact a none) :
    r.IsOrderly a where
  removes := by
    obtain ⟨process, hhost⟩ := hr.host
    rw [hhost]
    exact fun _ _ => rfl
  launches := by
    obtain ⟨process, hhost⟩ := hr.host
    have habsolute : Path.isAbsolute r.artifact = true := by
      unfold artifact
      rw [hhost]
      exact isAbsolute_artifactPath hr.absolute _
    intro n l v o ho hp
    rw [hhost] at ho
    rw [← hp] at habsolute ⊢
    exact Stage.isFile_of_launch ho habsolute
  vacant := hvacant
  tool := by
    intro d hd hc
    obtain ⟨c, w, rfl⟩ := exists_asked_of_call? hd hc
    obtain ⟨hways, hcwd⟩ := (hr.deeds hd).2 rfl
    exact ⟨(keeps_of_sameWays r.endsIn_artifact hways.gains.ways hcwd).1,
      (keeps_of_sameWays r.endsIn_file hways.gains.ways hcwd).2⟩
  faithful := by
    intro d hd symbol s hdoer
    obtain ⟨w, rfl⟩ := exists_ran_of_doer hd hdoer
    exact ((hr.deeds hd).2 rfl).isFaithful r.endsIn_artifact

end Run

/-- A run that fails leaves no artifact in its place, whichever way it fails. If it does not
fail, the file of the artifact is there and belongs to what the run returns: to the artifact,
which can be dropped or bound to a symbol, or to the symbol, which can be called any number
of times. The file is there through all calls, and gone once its owner is dropped. -/
theorem the_artifact_lives_as_long_as_its_owner {r : Run} {a : Place} (ho : r.IsOrderly a) :
    (∀ e, r.result = .error e → r.after.store.at? a = none) ∧
      (∀ A, r.result = .ok A → A.IsOwned r.host a r.after) ∧
      ∀ name signature,
        match r.bound name signature with
        | (.error _, u) => u.store.at? a = none
        | (.ok f, u) => f.Serves r.host a u := by
  have hr : ∀ path n, r.host.refusesRemoval n path = none := fun path n => ho.removes n path
  have hnone : ∀ e, r.result = .error e → r.after.store.at? a = none := by
    intro e he
    rcases Run.outcome_cases ho with ⟨e', -, hnone⟩ | ⟨A, hA, -⟩
    · exact hnone
    · rw [he] at hA
      cases hA
  have hholds : ∀ A, r.result = .ok A →
      Path.EndsIn A.path (artifactName r.suffix) ∧ r.after.view.Holds A.path a := by
    intro A hA
    rcases Run.outcome_cases ho with ⟨e, he, -⟩ | ⟨A', hA', hpath, hholds⟩
    · rw [he] at hA
      cases hA
    · cases hA.symm.trans hA'
      rw [hpath]
      exact ⟨r.endsIn_artifact, hholds⟩
  refine ⟨hnone, ?_, ?_⟩
  · intro A hA
    obtain ⟨hn, hA⟩ := hholds A hA
    exact Artifact.isOwned_of_holds hn (hr _) hA
  · intro name signature
    rcases r.bound_cases name signature with ⟨e, he, hbound⟩ | ⟨A, u, hA, hu, hresult, halike⟩
    · rw [hbound]
      exact hnone e he
    · obtain ⟨hn, hA⟩ := hholds A hA
      rw [← hu] at hA
      generalize r.bound name signature = b at hresult halike ⊢
      rcases b with ⟨result, b⟩
      rcases Artifact.bind_cases r.host A name signature u with ⟨e, he⟩ | hok
      · rw [he] at hresult halike
        cases hresult
        exact (congrArg (fun v => v.store.at? a) halike.view).trans
          (Artifact.none_discard hn (hr _) hA.offers)
      · rw [hok] at hresult halike
        cases hresult
        rw [← halike.view] at hA
        exact BoundSymbol.serves_of_holds hn (hr _) hA

namespace Sample

/-- The injection into the shop on the stage. -/
def rehearsal : Run := playing plan furnished

/-- The place of its artifact. -/
def played : Place := ["tmp", "gyv-code-injection-1700000000-7-0"]

theorem isStaged_rehearsal : rehearsal.IsStaged stage := by
  have hquiet : ∀ p ∈ Stage.commonParts, (p.2.result.all fun bytes =>
      (Stage.interpreter? (Text.decodeLossy bytes)).isNone) = true := by decide +kernel
  refine ⟨⟨7, rfl⟩, ⟨stageTool, rfl⟩, ⟨?_, ?_⟩, ⟨?_, ?_⟩, by decide⟩
  · intro bytes h
    cases h
    exact .artifact
  · intro symbol bytes h
    unfold Stage.partOf at h
    split at h
    · rename_i p hp
      have hall := hquiet p (List.mem_of_find?_eq_some hp)
      rw [h] at hall
      exact .data (by simpa using hall)
    · cases h
  · exact Store.hasNoLinks_of_entries (by simp [rehearsal, playing, furnished])
  · intro p bytes h
    rcases Store.mem_entries_of_at? h with hd | ⟨x, hx, he⟩
    · cases hd
    · -- The build tool is the only file that can be run.
      have hbytes : bytes = Stage.toolBytes := by
        simp only [rehearsal, playing, furnished, List.mem_cons, List.not_mem_nil, or_false] at hx
        rcases hx with rfl | rfl | rfl | rfl | rfl <;> cases he
        rfl
      rw [hbytes]
      exact .tool

theorem vacant_rehearsal : rehearsal.start.view.Has rehearsal.artifact played none :=
  vacant_furnished (isName_artifactName rehearsal.suffix)

/-- On the stage, the injection into the shop binds the symbol that describes the routes. The file
of the artifact stays through any number of calls, each call gives the description, and the file is
gone once the symbol is dropped. -/
theorem the_artifact_of_the_shop_lives_as_long_as_its_owner :
    ∃ f u, rehearsal.bound "GenerateOpenAPI" .bytes = (.ok f, u) ∧
      f.Serves rehearsal.host played u ∧
      ∀ n, (f.call.perform rehearsal.host (f.afterCalls rehearsal.host n u)).1 =
          .ok (View.encode "\x7b\"openapi\":\"3.0.0\"\x7d") ∧
        (f.afterCalls rehearsal.host n u).view.Holds f.artifact.path played ∧
        ((f.artifact.drop : Act SymbolError Unit).perform rehearsal.host
          (f.afterCalls rehearsal.host n u)).2.store.at? played = none := by
  have hr := isRehearsal_playing source_plan (w := furnished) rfl
  have hlisted : (table.symbols.getD []).find? (fun s => s.1 == "GenerateOpenAPI") =
      some ("GenerateOpenAPI", Signature.bytes.typeText) := rfl
  obtain ⟨f, u, hbound, hf, hu, hcall⟩ :=
    a_rehearsal_gives_what_the_stage_answers hr partOf_table parse_tableText rfl hlisted
  have hserves := (the_artifact_lives_as_long_as_its_owner
    (isStaged_rehearsal.isOrderly vacant_rehearsal)).2.2 "GenerateOpenAPI" .bytes
  rw [show rehearsal.bound "GenerateOpenAPI" .bytes = (.ok f, u) from hbound] at hserves
  have htame : IsTameTree u.store := by
    rw [← World.store_view, hu]
    exact (isStaged_rehearsal.keeps hr.written).1
  have hgives := fun w hw => hcall w descriptionText 0 _ hw partOf_description parse_descriptionText
  refine ⟨f, u, hbound, hserves, fun n => ⟨?_, hserves n ?_⟩⟩
  · rw [← resultOf_description]
    refine (hgives _ (BoundSymbol.view_afterCalls (fun w hw => ?_) rfl n)).1
    exact (hgives w hw).2.trans hw
  · have hn : Path.EndsIn f.artifact.path (artifactName rehearsal.suffix) := by
      rw [hf]
      exact rehearsal.endsIn_artifact
    exact Stage.isFaithful_of_mem_callRuns isStaged_rehearsal.stage 7 hn htame n

end Sample
end Graft
