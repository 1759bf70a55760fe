-- An injection leaves the project as it was: the injected file is gone again
-- however the run ended, and what no other program changed is as it was. A
-- file that bears the name already is not touched. This holds for each run of
-- a sequence, and for the sequence as a whole.
import Graft.Proofs.Runs

namespace Graft

open Act Deed Files Injection

namespace Run

variable (r : Run)

/-! ## What a run owes to the project -/

/-- The name of the artifact, or of the file for an answer of the artifact. -/
def IsTemporaryName (name : String) : Prop :=
  name = artifactName r.suffix ∨
    ∃ d ∈ r.deeds, ∃ symbol s, d.doer = .artifact symbol s ∧ name = Artifact.resultName s

/-- A place that bears the name of a temporary file of the run. -/
def IsTemporary (q : Place) : Prop := ∃ name, q.getLast? = some name ∧ r.IsTemporaryName name

/-- Neither the build tool nor the artifact changes what stands at the place. -/
def LeavesAlone (q : Place) : Prop := ∀ d ∈ r.deeds, d.isForeign = true → d.LeavesAlone q

/-- The run leaves the project as it was. -/
structure Restores : Prop where
  /-- The injected file is gone. -/
  gone : ∀ q, r.start.view.Leads r.file q → r.start.store.at? q = none →
    r.after.store.at? q = none
  /-- What no other program changed is as it was. -/
  kept : ∀ q, r.LeavesAlone q → ¬ r.IsTemporary q →
    r.after.store.at? q = r.start.store.at? q
  /-- Where something stands already, it stays, and the run says so. -/
  taken : ∀ q e text, r.start.view.Leads r.file q → r.start.store.at? q = some e →
    checkRoot r.start.view r.project = .ok () → source r.project r.plan = .ok text →
    r.result = .error (.temporaryFile r.file .alreadyExists) ∧ r.after.view = r.start.view

/-! ## The deeds of each part -/

theorem not_temporary_of_file {q : Place} (hq : q.getLast? = some (fileName r.suffix)) :
    ¬ r.IsTemporary q := by
  rintro ⟨name, hname, rfl | ⟨d, -, symbol, s, -, rfl⟩⟩
  · rw [hq] at hname
    exact fileName_ne_artifactName _ _ (Option.some.inj hname)
  · rw [hq] at hname
    exact fileName_ne_resultName _ _ (Option.some.inj hname)

/-- A removal of a temporary file. -/
def Tidies (d : Deed) : Prop :=
  ∃ path name w, d = removed path r.host w ∧ Path.EndsIn path name ∧ r.IsTemporaryName name

theorem Tidies.leavesAlone {r : Run} {d : Deed} (hd : r.Tidies d) {q : Place}
    (hq : ¬ r.IsTemporary q) : d.LeavesAlone q := by
  obtain ⟨path, name, w, rfl, hn, ht⟩ := hd
  exact leavesAlone_removed hn r.host w fun hl => hq ⟨name, hl, ht⟩

/-- After the clean-up, the artifact runs at most once. All else is the removal of
temporary files. -/
theorem lastDeeds_split {r : Run} (hw : r.HasWritten) :
    ∃ runs removals, r.lastDeeds = runs ++ removals ∧
      (∀ d ∈ runs, d.isForeign = true) ∧ ∀ d ∈ removals, r.Tidies d := by
  obtain ⟨runs, removals, hlast, hruns, hremovals⟩ := r.lastDeeds_cases
  refine ⟨runs, removals, hlast, ?_, ?_⟩
  · intro d hd
    obtain ⟨symbol, s, w, rfl⟩ := hruns d hd
    rfl
  · intro d hd
    obtain ⟨w, rfl | ⟨symbol, s, u, hu, rfl⟩⟩ := hremovals d hd
    · exact ⟨_, _, w, rfl, r.endsIn_artifact, .inl rfl⟩
    · have hrun : ran r.artifact r.project.directory symbol s r.host u ∈ r.deeds := by
        rw [deeds_of_hasWritten hw, hlast]
        exact List.mem_append_right _ (List.mem_append_left _ hu)
      exact ⟨_, _, w, rfl, Artifact.endsIn_resultPath _ _, .inr ⟨_, hrun, _, _, rfl, rfl⟩⟩

/-! ## The injected file comes and goes -/

section

variable {r : Run} (hw : r.HasWritten) (hr : ∀ n, r.host.refusesRemoval n r.file = none)
  (hs : ∀ d ∈ r.deeds, d.isForeign = true → d.Spares r.file)

include hw hr hs

/-- The injected file stands until the clean-up, and is gone after it. A place that no
other program changed is as it was. -/
theorem cleaned_up :
    ∃ q, r.start.view.Has r.file q none ∧ r.cleaned.view.Has r.file q none ∧
      ∀ p, r.LeavesAlone p → r.cleaned.store.at? p = r.start.store.at? p := by
  obtain ⟨text, q, -, hstart, hprep, hother⟩ := written hw
  obtain ⟨tidies, htidies, hasked, hchain⟩ := r.cleanUpDeeds_cases
  have hforeign : ∀ d ∈ tidies, d.isForeign = true := by
    intro d hd
    obtain ⟨w, rfl⟩ := hasked d hd
    rfl
  have hbuild : ∀ d ∈ r.buildDeeds, d ∈ r.deeds ∧ d.isForeign = true := by
    intro d hd
    obtain ⟨c, u, rfl⟩ := exists_asked_of_mem_buildDeeds _ _ _ _ hd
    rw [deeds_of_hasWritten hw]
    exact ⟨List.mem_append_left _ (List.mem_append_left _ hd), rfl⟩
  have htidy : ∀ d ∈ tidies, d ∈ r.deeds := by
    intro d hd
    rw [deeds_of_hasWritten hw, htidies]
    exact List.mem_append_left _ (List.mem_append_right _ (List.mem_cons_of_mem _ hd))
  have hbuilt := (r.chain_buildDeeds.keeps
    (I := fun v => v.Has r.file q (some (.file (View.encode text) false)))
    (fun d hd => (hs d (hbuild d hd).1 (hbuild d hd).2).has) hprep).1
  obtain ⟨hgone, halone⟩ := has_removed r.endsIn_file (w := r.built.2.entered .cleanup) hr hbuilt
  have hcleaned := (hchain.keeps (I := fun v => v.Has r.file q none)
    (fun d hd => (hs d (htidy d hd) (hforeign d hd)).has) hgone).1
  refine ⟨q, hstart, hcleaned, ?_⟩
  intro p hp
  by_cases hpq : p = q
  · rw [hpq]
    exact hcleaned.2.trans hstart.2.symm
  · have hp_built := (r.chain_buildDeeds.keeps
      (I := fun v => v.store.at? p = r.start.store.at? p)
      (fun d hd => (hp d (hbuild d hd).1 (hbuild d hd).2).trans)
      (hother p hpq)).1
    exact (hchain.keeps (I := fun v => v.store.at? p = r.start.store.at? p)
      (fun d hd => (hp d (htidy d hd) (hforeign d hd)).trans)
      ((halone p hpq).trans hp_built)).1

theorem restores_of_hasWritten : r.Restores := by
  obtain ⟨q, hstart, hcleaned, halone⟩ := cleaned_up hw hr hs
  obtain ⟨runs, removals, hlast, hforeign, htidies⟩ := lastDeeds_split hw
  have hc := chain_lastDeeds hw
  rw [hlast] at hc
  obtain ⟨z, hruns, hremovals⟩ := hc.split
  have hmem : ∀ d ∈ runs, d ∈ r.deeds := by
    intro d hd
    rw [deeds_of_hasWritten hw, hlast]
    exact List.mem_append_right _ (List.mem_append_left _ hd)
  refine ⟨?_, ?_, ?_⟩
  · intro p hp hnone
    obtain rfl := hp.unique hstart.1
    have hz := (hruns.keeps (I := fun v => v.Has r.file p none)
      (fun d hd => (hs d (hmem d hd) (hforeign d hd)).has) hcleaned).1
    have hname := r.not_temporary_of_file (hp.getLast? r.endsIn_file)
    exact (hremovals.keeps (I := fun v => v.store.at? p = none)
      (fun d hd => ((htidies d hd).leavesAlone hname).trans) hz.2).1
  · intro p hp hname
    have hz := (hruns.keeps (I := fun v => v.store.at? p = r.start.store.at? p)
      (fun d hd => (hp d (hmem d hd) (hforeign d hd)).trans) (halone p hp)).1
    exact (hremovals.keeps (I := fun v => v.store.at? p = r.start.store.at? p)
      (fun d hd => ((htidies d hd).leavesAlone hname).trans) hz).1
  · intro p e text hp he
    obtain rfl := hp.unique hstart.1
    rw [← World.store_view, hstart.2] at he
    cases he

end

theorem restores_of_error {r : Run} {e : Failure} (hp : r.prepared.1 = .error e)
    (hr : ∀ n, r.host.refusesRemoval n r.file = none) : r.Restores := by
  have hprep : r.prepared.2.view = r.start.view := prepare_error _ _ _ _ hp hr
  obtain ⟨hresult, ha⟩ := outcome_of_error hp
  have hv : r.after.view = r.start.view := ha.view.trans hprep
  have hstore : r.after.store = r.start.store := congrArg View.store hv
  refine ⟨?_, ?_, ?_⟩
  · intro q _ hnone
    rw [hstore, hnone]
  · intro q _ _
    rw [hstore]
  · intro q e' text hq he hc hsource
    refine ⟨?_, hv⟩
    obtain ⟨htaken, -⟩ := prepare_taken r.host r.opened r.project r.plan hc hsource hq he
    rw [hresult]
    exact congrArg Except.error (Except.error.inj (hp.symm.trans htaken))

/-- Every run leaves the project as it was, if the host removes the injected file and the
other programs spare it. -/
theorem restores {r : Run} (hr : ∀ n, r.host.refusesRemoval n r.file = none)
    (hs : ∀ d ∈ r.deeds, d.isForeign = true → d.Spares r.file) : r.Restores := by
  cases hp : r.prepared.1 with
  | error e => exact restores_of_error hp hr
  | ok s => exact restores_of_hasWritten ⟨s, hp⟩ hr hs

end Run

/-! ## One run after the other -/

/-- What is injected, and with which build tool. -/
structure Order where
  tool : BuildTool
  project : Project
  plan : Plan

def Order.run (o : Order) (h : Host) (w : World) : Run := ⟨o.tool, o.project, o.plan, h, w⟩

/-- The runs of the orders. Each one begins in the world that the one before it left. -/
def runs (h : Host) : World → List Order → List Run
  | _, [] => []
  | w, o :: os => o.run h w :: runs h (o.run h w).after os

/-- The world after the runs of the orders. -/
def afterRuns (h : Host) (w : World) (os : List Order) : World :=
  os.foldl (fun w o => (o.run h w).after) w

theorem exists_of_mem_runs {h : Host} {w : World} {os : List Order} {r : Run}
    (hr : r ∈ runs h w os) : ∃ o ∈ os, ∃ u, r = o.run h u := by
  induction os generalizing w with
  | nil => cases hr
  | cons o os ih =>
    rcases List.mem_cons.mp hr with rfl | hr
    · exact ⟨o, List.mem_cons_self, w, rfl⟩
    · obtain ⟨x, hx, u, rfl⟩ := ih hr
      exact ⟨x, List.mem_cons_of_mem _ hx, u, rfl⟩

/-- Each run of a sequence leaves the project as it was, whatever the build tool and the
artifact do to other files and however the run ends, if the host removes the injected file
and the other programs spare it. What none of them changed is at the end as it was before
the first run. -/
theorem injections_leave_the_project_as_it_was (h : Host) (w : World) (os : List Order)
    (hr : ∀ r ∈ runs h w os, ∀ n, h.refusesRemoval n r.file = none)
    (hs : ∀ r ∈ runs h w os, ∀ d ∈ r.deeds, d.isForeign = true → d.Spares r.file) :
    (∀ r ∈ runs h w os, r.Restores) ∧
      ∀ q, (∀ r ∈ runs h w os, r.LeavesAlone q ∧ ¬ r.IsTemporary q) →
        (afterRuns h w os).store.at? q = w.store.at? q := by
  have hall : ∀ r ∈ runs h w os, r.Restores := by
    intro r hm
    obtain ⟨o, -, u, rfl⟩ := exists_of_mem_runs hm
    exact Run.restores (hr _ hm) (hs _ hm)
  refine ⟨hall, ?_⟩
  clear hr hs
  intro q hq
  induction os generalizing w with
  | nil => rfl
  | cons o os ih =>
    have hfirst := List.mem_cons_self (a := o.run h w) (l := runs h (o.run h w).after os)
    obtain ⟨halone, hname⟩ := hq _ hfirst
    have hrest := ih (o.run h w).after (fun r hm => hall r (List.mem_cons_of_mem _ hm))
      fun r hm => hq r (List.mem_cons_of_mem _ hm)
    exact hrest.trans ((hall _ hfirst).kept q halone hname)

namespace Sample

theorem spares_scribe {path name : String} (hn : Path.EndsIn path name) (hne : name ≠ "go.sum")
    (directory : String) (c : ToolCall) (h : Host) (w : World) :
    (asked scribe directory c h w).Spares path := by
  have hv : (asked scribe directory c h w).after.view =
      if w.store.way sums = none then ⟨w.store.put sums (.file [104] false), w.cwd⟩
      else w.view := by
    unfold asked ofStep ask scribe
    dsimp only
    rw [perform_bind_of_ok (perform_record _ _ _), perform_mapError, perform_ofFunction]
    dsimp only [World.store_record]
    exact apply_ite World.view _ _ _
  intro q hq
  change w.view.Leads path q at hq
  unfold Deed.LeavesAlone
  rw [← World.store_view, hv]
  split
  · rename_i hopen
    refine ⟨hq.of_sameWays hn (Store.sameWays_put _ _ hopen), Store.at?_put_of_ne ?_⟩
    rintro rfl
    have hlast := hq.getLast? hn
    simp [sums] at hlast
    exact hne hlast.symm
  · exact ⟨hq, rfl⟩

theorem spares_ran (path artifact directory symbol : String) (s : Suffix) (w : World) :
    (ran artifact directory symbol s host w).Spares path := fun _ hq => ⟨hq, rfl⟩

def order : Order := ⟨scribe, project, plan⟩

/-- Two injections into the shop, the first of which writes its file. -/
theorem two_injections_leave_the_shop_as_it_was :
    (order.run host world).HasWritten ∧
      (∀ r ∈ runs host world [order, order], r.Restores) ∧
      ∀ q, (∀ r ∈ runs host world [order, order], r.LeavesAlone q ∧ ¬ r.IsTemporary q) →
        (afterRuns host world [order, order]).store.at? q = world.store.at? q := by
  refine ⟨hasWritten_run,
    injections_leave_the_project_as_it_was host world [order, order] (fun _ _ _ => rfl) ?_⟩
  intro r hr d hd hf
  obtain ⟨o, ho, u, rfl⟩ := exists_of_mem_runs hr
  have horder : o = order := by simpa using ho
  subst horder
  rcases Run.foreign_of_isForeign hd hf with ⟨c, w, rfl⟩ | ⟨symbol, s, w, rfl⟩
  · refine spares_scribe (Run.endsIn_file _) ?_ _ c _ w
    intro he
    have hz := take_fileName (order.run host u).suffix
    rw [he] at hz
    exact absurd hz (by decide)
  · exact spares_ran _ _ _ symbol s w

end Sample
end Graft
