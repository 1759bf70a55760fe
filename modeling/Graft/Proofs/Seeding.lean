-- Which seeders are run. All that is asked for must be among the functions that
-- a scan of the seeders finds, and the first that is not is reported, before
-- anything is done. If all are, the injected function calls them in the order in
-- which they were asked for.
import Graft.Proofs.Listings
import Graft.Proofs.Refusing
import Graft.Proofs.Templates

namespace Graft

open Act Injection

/-! ## Failures that tell of what was resolved -/

namespace Act

variable {ε α β : Type}

/-- The step never fails because something was not resolved. -/
def NeverResolves (a : Act Failure α) : Prop :=
  ∀ h w e, (a.perform h w).1 = .error (.resolve e) → False

theorem NeverRefuses.neverResolves {a : Act Failure α} (ha : NeverRefuses a) :
    a.NeverResolves := by
  intro h w e he
  exact ha h w _ he (.inr (.inl rfl))

theorem neverResolves_of_ok {a : Act Failure α} (ha : a.Succeeds) : a.NeverResolves := by
  intro h w e he
  obtain ⟨x, hx⟩ := ha h w
  rw [hx] at he
  cases he

theorem neverResolves_ofExcept {r : Except Failure α} (hr : ∀ e, r ≠ .error (.resolve e)) :
    (ofExcept r).NeverResolves := fun _ _ e he => hr e he

theorem NeverResolves.bind {a : Act Failure α} {f : α → Act Failure β} (ha : a.NeverResolves)
    (hf : ∀ x, (f x).NeverResolves) : (a >>= f).NeverResolves := by
  intro h w e he
  refine failure_bind (P := fun e : Failure => ∀ r, e ≠ .resolve r) h w ?_ ?_ he e rfl
  · rintro h w _ hfails r rfl
    exact ha h w r hfails
  · rintro x h w _ hfails r rfl
    exact hf x h w r hfails

theorem NeverResolves.within {a : Act Failure α} (ha : a.NeverResolves)
    (change : Context → Context) : (within change a).NeverResolves := fun h _ e he => ha h _ e he

end Act

namespace Injection

variable (tool : BuildTool) (p : Project) (plan : Plan)

theorem neverResolves_prepare : (prepare p plan).NeverResolves := by
  refine (neverResolves_of_ok succeeds_view).bind fun v => ?_
  refine (neverResolves_ofExcept fun e he => ?_).bind fun _ => ?_
  · unfold checkRoot at he
    split at he
    · cases he
    · cases he
    · split at he <;> cases he
  refine (neverResolves_ofExcept fun e he => ?_).bind fun text => ?_
  · obtain ⟨_, hstub⟩ := stub_of_source_error he
    cases hstub
  refine (neverResolves_of_ok (succeeds_advance _)).bind fun _ => ?_
  refine (neverResolves_of_ok succeeds_drawSuffix).bind fun s => ?_
  refine (neverResolves_of_ok succeeds_view).bind fun u => ?_
  refine (neverResolves_ofExcept fun e he => ?_).bind fun paths => ?_
  · cases hf : Scan.sourceFiles u p.directory with
    | error e' =>
      rw [hf] at he
      cases he
    | ok files =>
      rw [hf] at he
      cases he
  refine (neverResolves_of_ok (succeeds_warnLater _)).bind fun _ => ?_
  refine NeverRefuses.neverResolves ?_
  exact (neverRefuses_writeFile p s text).bind fun _ => neverRefuses_of_ok fun _ _ => ⟨_, rfl⟩

/-- An injection does not fail for what its plan was resolved from. -/
theorem neverResolves_injectSymbol (symbol : String) (signature : Signature) :
    (injectSymbol tool p plan symbol signature).NeverResolves := by
  have hinject : (inject tool p plan).NeverResolves := by
    refine NeverResolves.within ?_ _
    refine (neverResolves_of_ok succeeds_read).bind fun h => ?_
    exact (neverResolves_prepare p plan).bind fun s =>
      (neverRefuses_buildAndLoad tool p plan _ _).neverResolves
  refine hinject.bind fun A => NeverRefuses.neverResolves (NeverRefuses.within ?_ _)
  refine NeverRefuses.bind (neverRefuses_mapError (fun _ => ?_) _) fun f => ?_
  · simp [Failure.IsRefusal, Failure.category]
  · exact neverRefuses_of_ok fun _ _ => ⟨f, rfl⟩

end Injection

/-! ## The task as a whole -/

namespace Task

theorem plan_seed (p : Project) (seeders : List String) (h : Host) (w : World) :
    ((plan p (.seed seeders)).perform h w).1 =
      seedPlan w.view p (Seeder.orDefault seeders) := by
  unfold plan
  by_cases hempty : seeders.isEmpty = true
  · simp only [hempty, if_true]
    rfl
  · simp only [hempty]
    rfl

/-- A task that fails for what it refers to fails while it is planned. -/
theorem plan_of_bindWith_error (tool : BuildTool) (p : Project) (t : Task) {e : Resolve.Error}
    {h : Host} {w : World} (he : ((bindWith tool p t).perform h w).1 = .error (.resolve e)) :
    (plan p t).perform h w = (.error (.resolve e), ((bindWith tool p t).perform h w).2) := by
  unfold bindWith at he ⊢
  rw [perform_bind] at he ⊢
  generalize (plan p t).perform h w = z at he ⊢
  rcases z with ⟨e' | made, u⟩
  · cases he
    rfl
  · exact (Injection.neverResolves_injectSymbol tool p made _ _ h u _ he).elim

theorem bindWith_eq_error_iff (tool : BuildTool) (p : Project) (t : Task) {e : Resolve.Error}
    (h : Host) (w : World) :
    ((bindWith tool p t).perform h w).1 = .error (.resolve e) ↔
      ((plan p t).perform h w).1 = .error (.resolve e) := by
  constructor
  · intro he
    rw [plan_of_bindWith_error tool p t he]
  · intro he
    unfold bindWith
    rw [perform_bind]
    generalize (plan p t).perform h w = z at he ⊢
    rcases z with ⟨e' | made, u⟩
    · cases he
      rfl
    · cases he

end Task

/-- Seeders are refused exactly if the scan finds functions and one that is asked for is not among
them. Then nothing is done; what is reported is the first such name, and the functions in the
order of the files and their texts, those of the default name in front. Once the run of seeders
is planned, the injected function calls what is asked for, one after the other, each from the
package that is imported. -/
theorem seeders_are_looked_up_and_called_in_order (tool : BuildTool) (p : Project)
    (seeders : List String) (h : Host) (w : World) :
    ((∃ u, ((Task.bindWith tool p (.seed seeders)).perform h w).1 =
        .error (.resolve (.unknownSeeder u))) ↔
      ∃ found, Task.scanned w.view p = .ok found ∧ found ≠ [] ∧
        ∃ name ∈ Seeder.orDefault seeders, name ∉ found) ∧
    (∀ u, ((Task.bindWith tool p (.seed seeders)).perform h w).1 =
        .error (.resolve (.unknownSeeder u)) →
      w.Reported ((Task.bindWith tool p (.seed seeders)).perform h w).2 ∧
      ∃ sources found before after, Task.scanned w.view p = .ok found ∧
        Scan.Reads w.view (Task.seederDirectory p) sources ∧
        found = sources.flatMap Go.Source.exportedFunctions ∧
        Seeder.orDefault seeders = before ++ u.name :: after ∧
        (∀ name ∈ before, name ∈ found) ∧ u.name ∉ found ∧ u.available.Perm found ∧
        u.available = found.filter (· == "Run") ++ found.filter (· != "Run")) ∧
    ∀ plan, ((Task.plan p (.seed seeders)).perform h w).1 = .ok plan →
      ∃ module stated path package text, p.modulePath = .ok module ∧
        path = packageImportPath module p.config.seeders ∧
        Scan.packageName w.view (Task.seederDirectory p) = .ok stated ∧
        package = stated.getD (baseName path) ∧
        Injection.source p plan = .ok text ∧
        StandsIn (Task.importLine ⟨some package, path⟩) text ∧
        StandsIn (Stub.seeding package (Seeder.orDefault seeders)) text := by
  have hunknown : ∀ u, ((Task.bindWith tool p (.seed seeders)).perform h w).1 =
      .error (.resolve (.unknownSeeder u)) ↔ ∃ found, Task.scanned w.view p = .ok found ∧
        found ≠ [] ∧ Seeder.validate (Seeder.orDefault seeders) (Seeder.ordered found) =
          .error u := by
    intro u
    rw [Task.bindWith_eq_error_iff, Task.plan_seed, Task.seedPlan_eq_unknown_iff]
  refine ⟨?_, ?_, ?_⟩
  · constructor
    · rintro ⟨u, hu⟩
      obtain ⟨found, hscan, hne, hvalidate⟩ := (hunknown u).mp hu
      obtain ⟨-, before, after, hasked, -, hnot⟩ := Seeder.validate_eq_error_iff.mp hvalidate
      rw [Seeder.mem_ordered] at hnot
      exact ⟨found, hscan, hne, u.name, by simp [hasked], hnot⟩
    · rintro ⟨found, hscan, hne, name, hname, hnot⟩
      cases hvalidate : Seeder.validate (Seeder.orDefault seeders) (Seeder.ordered found) with
      | error u => exact ⟨u, (hunknown u).mpr ⟨found, hscan, hne, hvalidate⟩⟩
      | ok _ => exact absurd (Seeder.validate_ordered_eq_ok_iff.mp hvalidate name hname) hnot
  · intro u hu
    obtain ⟨found, hscan, -, hvalidate⟩ := (hunknown u).mp hu
    obtain ⟨havailable, before, after, hasked, hbefore, hnot⟩ :=
      Seeder.validate_eq_error_iff.mp hvalidate
    obtain ⟨sources, hreads, hfound⟩ := Scan.collect_results_eq_ok_iff.mp hscan
    refine ⟨?_, sources, found, before, after, hscan, hreads, hfound, hasked, ?_, ?_, ?_,
      havailable⟩
    · have hplan := Task.onlyReports_plan p (t := .seed seeders) (by simp) h w
      rw [Task.plan_of_bindWith_error tool p _ hu] at hplan
      exact hplan
    · exact fun name hname => Seeder.mem_ordered.mp (hbefore name hname)
    · exact fun hin => hnot (Seeder.mem_ordered.mpr hin)
    · rw [havailable]
      exact Seeder.ordered_perm found
  · intro plan hplan
    rw [Task.plan_seed, Task.seedPlan_eq_ok_iff] at hplan
    obtain ⟨found, module, stated, -, -, -, hmodule, hstated, rfl⟩ := hplan
    obtain ⟨text, htext, himport, hcalls⟩ := Task.source_seedPlanOf p _ _ _
    exact ⟨module, stated, _, _, text, hmodule, rfl, hstated, rfl, htext, himport, hcalls⟩

/-! ## The seeder of a shop -/

namespace Sample

/-- A seeder that the shop does not have is refused, and the one that it has is called where none
is asked for. -/
theorem the_seeders_of_the_shop_are_looked_up :
    (∃ u, ((Task.bindWith scribe (seeding "./seeders/") (.seed ["Run", "Users"])).perform host
        seeded).1 = .error (.resolve (.unknownSeeder u)) ∧ u.name = "Users") ∧
    ∃ text, Injection.source (seeding "./seeders/") (seederPlan "./seeders/") = .ok text ∧
      StandsIn (Stub.seeding "seeder" ["Run"]) text := by
  have hplan : Task.seedPlan seeded.view (seeding "./seeders/") ["Run"] =
      .ok (seederPlan "./seeders/") :=
    seedPlan_seeded (by decide) (by decide)
  have hscanned : Task.scanned seeded.view (seeding "./seeders/") = .ok ["Run"] :=
    scanned_seeding (by decide) (by decide)
  constructor
  · obtain ⟨hrefused, htold, -⟩ := seeders_are_looked_up_and_called_in_order scribe
      (seeding "./seeders/") ["Run", "Users"] host seeded
    obtain ⟨u, hu⟩ := hrefused.mpr ⟨_, hscanned, by decide, "Users", by decide, by decide⟩
    obtain ⟨-, _, found, before, after, hscan, -, -, hasked, -, hnot, -⟩ := htold u hu
    cases hscanned.symm.trans hscan
    refine ⟨u, hu, ?_⟩
    have hname : u.name ∈ ["Run", "Users"] := by
      change u.name ∈ Seeder.orDefault ["Run", "Users"]
      simp [hasked]
    simp only [List.mem_cons, List.not_mem_nil, or_false] at hname hnot
    exact hname.resolve_left hnot
  · obtain ⟨-, -, hcalled⟩ := seeders_are_looked_up_and_called_in_order scribe
      (seeding "./seeders/") [] host seeded
    obtain ⟨module, stated, path, package, text, hmodule, rfl, hstated, rfl, htext, -, hcalls⟩ :=
      hcalled (seederPlan "./seeders/") (by rw [Task.plan_seed]; exact hplan)
    refine ⟨text, htext, ?_⟩
    obtain ⟨_, module', stated', -, -, -, hmodule', hstated', hplan'⟩ :=
      Task.seedPlan_eq_ok_iff.mp hplan
    cases hmodule.symm.trans hmodule'
    cases hstated.symm.trans hstated'
    injection hplan' with _ hdata
    simp only [List.cons.injEq, Prod.mk.injEq, Stub.Value.text.injEq, true_and] at hdata
    rw [hdata.2.1]
    exact hcalls

end Sample

end Graft
