-- No task fails for its stub. A task that was planned gives a value to each
-- parameter that its stub and the layout around it use, for every version of
-- the framework, so its source text can be filled. Nothing else that a task
-- does is about stubs.
import Graft.Proofs.Capture
import Graft.Proofs.Packages
import Graft.Proofs.Refusing

namespace Graft

open Act

/-! ## The stubs of the tasks -/

namespace Task

/-- The text with holes that a task fills. -/
def content : Task → Stub.Content
  | migrate => Stub.Injection.migrate
  | seed _ => Stub.Injection.seed
  | clear => Stub.Injection.clear
  | openapi => Stub.Injection.openapi

/-- The stub that a task fills. -/
def stub (t : Task) : Stub.Page := ⟨Stub.defaultName t.category, t.content⟩

/-- The parameters that a task gives values to, with those that every injection gives. -/
def params : Task → List Stub.Param
  | migrate => [.goyaveImportPath, .symbolEnv, .resultEnv, .listSymbol, .modelImportPath]
  | seed _ => seedParams
  | clear => [.goyaveImportPath, .symbolEnv, .resultEnv, .listSymbol, .modelImportPath]
  | openapi => openapiParams

/-- Every version of the framework gets the same stub for a task. -/
theorem select_category (t : Task) (wanted : Version) :
    Stub.select t.category wanted = .ok t.stub.name := by
  cases t with
  | migrate => exact Stub.select_of_unversioned (by decide) (by decide) wanted
  | seed _ => exact select_seedStub wanted
  | clear => exact Stub.select_of_unversioned (by decide) (by decide) wanted
  | openapi => exact Stub.select_describer wanted

theorem stub_mem (t : Task) : t.stub ∈ Stub.pages := by
  cases t with
  | migrate => exact List.mem_of_getElem? (i := 7) rfl
  | seed _ => exact seedStub_mem
  | clear => exact List.mem_of_getElem? (i := 9) rfl
  | openapi => exact Stub.describer_mem

/-- A stub fills the layout, and the two use no parameter that the task does not give. -/
theorem content_uses (t : Task) :
    ∃ imports symbols body, t.stub.content = .filling imports symbols body ∧
      ∀ q ∈ Stub.paramsAround imports symbols body, q ∈ t.params := by
  cases t with
  | migrate => exact ⟨_, _, _, rfl, by decide⟩
  | seed _ => exact ⟨_, _, _, rfl, mem_seedParams rfl⟩
  | clear => exact ⟨_, _, _, rfl, by decide⟩
  | openapi => exact ⟨_, _, _, rfl, mem_openapiParams rfl⟩

/-! ## Plans that can be filled -/

/-- The plan is for the stub of the task and gives all that is used there. -/
structure Suits (t : Task) (p : Project) (plan : Plan) : Prop where
  category : plan.category = t.category
  gives : (Injection.commonData p ++ plan.data).Gives t.params

/-- A plan that suits its task can be filled, for every version of the framework. -/
theorem Suits.source {t : Task} {p : Project} {plan : Plan} (hs : t.Suits p plan) :
    ∃ text, Stub.select plan.category p.framework.version = .ok t.stub.name ∧
      Stub.render t.stub.name (Injection.commonData p ++ plan.data) = .ok text ∧
      Injection.source p plan = .ok text := by
  obtain ⟨imports, symbols, body, hcontent, huses⟩ := t.content_uses
  obtain ⟨_, _, _, _, _, -, -, htext⟩ := Stub.fill_around hcontent (hs.gives.mono huses)
  have hselect : Stub.select plan.category p.framework.version = .ok t.stub.name := by
    rw [hs.category]
    exact t.select_category _
  exact ⟨_, hselect, Stub.render_of_fill t.stub_mem htext,
    Injection.source_of_fill t.stub_mem hselect htext⟩

theorem suits_modelData {p : Project} {t : Task} (ht : t.params = migrate.params)
    (path : String) : t.Suits p ⟨t.category, [(.modelImportPath, .text path)], []⟩ := by
  refine ⟨rfl, ?_⟩
  rw [ht]
  intro q hq
  simp only [params, List.mem_cons, List.not_mem_nil, or_false] at hq
  rcases hq with rfl | rfl | rfl | rfl | rfl <;> exact ⟨_, rfl⟩

theorem suits_seedPlanOf (p : Project) (given seeders : List String) (path package : String) :
    (seed given).Suits p (seedPlanOf path package seeders) :=
  ⟨rfl, gives_seedPlanOf p path package seeders⟩

theorem suits_openapiPlan (p : Project) (r : Reference) : openapi.Suits p (openapiPlan p r) :=
  ⟨rfl, gives_openapiData p r⟩

end Task

/-! ## Failures that are not about stubs -/

/-- A result has the property, and a failure is not about a stub. -/
inductive Spares {α : Type} (P : α → Prop) : Except Failure α → Prop
  | ok {x : α} (hx : P x) : Spares P (.ok x)
  | error {e : Failure} (he : e.category ≠ .template) : Spares P (.error e)

namespace Spares

variable {ε α β : Type} {P : α → Prop} {Q : β → Prop}

theorem of_error {r : Except Failure α} (hr : Spares P r) {e : Failure} (he : r = .error e) :
    e.category ≠ .template := by
  subst he
  cases hr with
  | error he => exact he

theorem bind {r : Except Failure α} {f : α → Except Failure β} (hr : Spares P r)
    (hf : ∀ x, P x → Spares Q (f x)) : Spares Q (r >>= f) := by
  cases hr with
  | error he => exact .error he
  | ok hx => exact hf _ hx

theorem mapError {g : ε → Failure} (hg : ∀ e, (g e).category ≠ .template) (r : Except ε α) :
    Spares (fun _ => True) (r.mapError g) := by
  cases r with
  | error e => exact .error (hg e)
  | ok x => exact .ok trivial

end Spares

namespace Act

variable {ε α β : Type} {P : α → Prop} {Q : β → Prop}

/-- The results of the step have the property, and none of its failures is about a stub. -/
def Yields (P : α → Prop) (a : Act Failure α) : Prop := ∀ h w, Spares P (a.perform h w).1

/-- The step never fails. -/
def Succeeds (a : Act ε α) : Prop := ∀ h w, ∃ x, (a.perform h w).1 = .ok x

theorem Succeeds.bind {a : Act ε α} {f : α → Act ε β} (ha : a.Succeeds)
    (hf : ∀ x, (f x).Succeeds) : (a >>= f).Succeeds := by
  intro h w
  obtain ⟨x, hx⟩ := ha h w
  rw [perform_bind_of_ok (Prod.ext hx rfl)]
  exact hf x h _

variable {a : Act Failure α} {f : α → Act Failure β}

theorem Succeeds.yields (ha : a.Succeeds) : a.Yields fun _ => True := by
  intro h w
  obtain ⟨x, hx⟩ := ha h w
  rw [hx]
  exact .ok trivial

theorem NeverRefuses.yields (ha : a.NeverRefuses) : a.Yields fun _ => True := by
  intro h w
  have hw := ha h w
  generalize (a.perform h w).1 = r at hw ⊢
  cases r with
  | ok x => exact .ok trivial
  | error e => exact .error fun he => hw e rfl (.inr (.inr he))

theorem yields_pure {x : α} (hx : P x) : (pure x : Act Failure α).Yields P := fun _ _ => .ok hx

theorem yields_ofExcept {r : Except Failure α} (hr : Spares P r) :
    (Act.ofExcept r).Yields P := fun _ _ => hr

theorem Yields.bind (ha : a.Yields P) (hf : ∀ x, P x → (f x).Yields Q) :
    (a >>= f).Yields Q := by
  intro h w
  have hw := ha h w
  rw [perform_bind]
  generalize a.perform h w = z at hw ⊢
  rcases z with ⟨e | x, u⟩
  · cases hw with
    | error he => exact .error he
  · cases hw with
    | ok hx => exact hf x hx h u

/-- Nothing need be known of what a step comes to that never fails. -/
theorem Succeeds.andThen (ha : a.Succeeds) (hf : ∀ x, (f x).Yields Q) : (a >>= f).Yields Q :=
  ha.yields.bind fun x _ => hf x

theorem Yields.within (ha : a.Yields P) (change : Context → Context) :
    (within change a).Yields P := fun h w => ha h { w with context := change w.context }

theorem yields_mapError {g : ε → Failure} (hg : ∀ e, (g e).category ≠ .template) (a : Act ε α) :
    (mapError g a).Yields fun _ => True := fun h w => Spares.mapError hg (a.perform h w).1

theorem succeeds_pure (x : α) : (pure x : Act ε α).Succeeds := fun _ _ => ⟨x, rfl⟩

theorem succeeds_read : (read : Act ε Host).Succeeds := fun h _ => ⟨h, rfl⟩

theorem succeeds_view : (view : Act ε Files.View).Succeeds := fun _ w => ⟨w.view, rfl⟩

theorem succeeds_record (e : Event) : (record e : Act ε Unit).Succeeds := fun _ _ => ⟨(), rfl⟩

theorem succeeds_advance (p : Phase) : (advance p : Act ε Unit).Succeeds := fun _ _ => ⟨(), rfl⟩

theorem succeeds_drawSuffix : (drawSuffix : Act ε Suffix).Succeeds :=
  fun h w => ⟨w.nextSuffix h, rfl⟩

end Act

/-! ## Opening a project -/

namespace Config

variable {ε : Type}

theorem succeeds_readFile? (path : String) : (readFile? path : Act ε (Option Config)).Succeeds := by
  refine succeeds_view.bind fun v => ?_
  split
  · exact succeeds_pure _
  · exact (succeeds_record _).bind fun _ => succeeds_pure _
  · split
    · exact succeeds_pure _
    · refine succeeds_read.bind fun h => ?_
      exact (succeeds_record _).bind fun _ => succeeds_pure _

theorem succeeds_firstIn (dirs : List String) :
    (firstIn dirs : Act ε (Option Config)).Succeeds := by
  induction dirs with
  | nil => exact succeeds_pure _
  | cons dir dirs ih =>
    refine (succeeds_readFile? _).bind ?_
    intro found
    cases found with
    | none => exact ih
    | some c => exact succeeds_pure _

theorem succeeds_search (start : String) : (search start : Act ε Config).Succeeds :=
  (succeeds_firstIn _).bind fun _ _ _ => ⟨_, rfl⟩

end Config

namespace Project

theorem spares_modulePath (p : Project) : Spares (fun _ => True) p.modulePath :=
  Spares.mapError (fun _ => by simp [Failure.category]) _

theorem yields_openWith (directory : String) (config : Config) :
    (openWith directory config).Yields fun _ => True := by
  refine Yields.within ?_ _
  refine (succeeds_advance _).andThen fun _ => succeeds_view.andThen fun v => ?_
  refine Yields.bind (yields_ofExcept (Spares.mapError ?_ _)) fun manifest _ => ?_
  · simp [Failure.category]
  refine Yields.bind (yields_ofExcept (Spares.mapError ?_ _)) fun framework _ => ?_
  · simp [Failure.category]
  refine (succeeds_advance _).andThen fun _ => ?_
  split
  · refine Yields.bind (P := fun _ => True) (yields_ofExcept ?_) fun _ _ => ?_
    · exact .error (by simp [Failure.category])
    · exact (succeeds_advance _).andThen fun _ => yields_pure trivial
  · exact (succeeds_advance _).andThen fun _ => yields_pure trivial

theorem yields_openIn (directory : String) : (openIn directory).Yields fun _ => True :=
  (Config.succeeds_search directory).andThen fun config => yields_openWith directory config

end Project

/-! ## The injection of a plan that can be filled -/

namespace Injection

theorem spares_checkRoot (v : Files.View) (p : Project) :
    Spares (fun _ => True) (checkRoot v p) := by
  unfold checkRoot
  split
  · exact .error (by simp [Failure.category])
  · exact .ok trivial
  · split
    · exact .ok trivial
    · exact .error (by simp [Failure.category])

theorem succeeds_warnLater (paths : List String) : (warnLater paths).Succeeds := by
  induction paths with
  | nil => exact succeeds_pure _
  | cons path more ih => exact (succeeds_record _).bind fun _ => ih

variable {p : Project} {plan : Plan} {text : String}

theorem yields_prepare (hs : source p plan = .ok text) :
    (prepare p plan).Yields fun _ => True := by
  refine succeeds_view.andThen fun v => ?_
  refine Yields.bind (yields_ofExcept (spares_checkRoot v p)) fun _ _ => ?_
  refine Yields.bind (P := (· = text)) (yields_ofExcept ?_) fun text _ => ?_
  · rw [hs]
    exact .ok rfl
  refine (succeeds_advance _).andThen fun _ => succeeds_drawSuffix.andThen fun s => ?_
  refine succeeds_view.andThen fun u => ?_
  refine Yields.bind (yields_ofExcept (Spares.mapError ?_ _)) fun paths _ => ?_
  · simp [Failure.category]
  refine (succeeds_warnLater _).andThen fun _ => ?_
  refine (neverRefuses_writeFile p s text).yields.bind fun _ _ => ?_
  exact (succeeds_advance _).andThen fun _ => yields_pure trivial

theorem yields_injectSymbol (tool : BuildTool) (hs : source p plan = .ok text) (symbol : String)
    (signature : Signature) : (injectSymbol tool p plan symbol signature).Yields fun _ => True := by
  refine Yields.bind (P := fun _ => True) (Yields.within ?_ _) fun A _ => Yields.within ?_ _
  · refine succeeds_read.andThen fun h => ?_
    exact (yields_prepare hs).bind fun s _ => (neverRefuses_buildAndLoad tool p plan _ _).yields
  · refine (yields_mapError (fun _ => by simp [Failure.category]) _).bind fun f _ => ?_
    exact (succeeds_advance _).andThen fun _ => yields_pure trivial

end Injection

/-! ## Whole tasks -/

namespace Task

theorem spares_modelPlan (p : Project) {t : Task} (ht : t.params = migrate.params) :
    Spares (t.Suits p) (modelPlan p t) :=
  p.spares_modulePath.bind fun _ _ => .ok (suits_modelData ht _)

theorem spares_seedPlan (v : Files.View) (p : Project) (given seeders : List String) :
    Spares ((seed given).Suits p) (seedPlan v p seeders) := by
  have hresolve : ∀ e : Resolve.Error, (Failure.resolve e).category ≠ .template := by
    simp [Failure.category]
  refine (Spares.mapError hresolve _).bind fun available _ => ?_
  refine (Spares.mapError (fun _ => hresolve _) _).bind fun _ _ => ?_
  refine p.spares_modulePath.bind fun module _ => ?_
  refine (Spares.mapError (fun _ => by simp [Failure.category]) _).bind fun package _ => ?_
  exact .ok (suits_seedPlanOf p given seeders _ _)

/-- Where a task is planned, its plan can be filled. -/
theorem yields_plan (p : Project) (t : Task) : (t.plan p).Yields (t.Suits p) := by
  cases t with
  | migrate => exact yields_ofExcept (spares_modelPlan p rfl)
  | clear => exact yields_ofExcept (spares_modelPlan p rfl)
  | seed seeders =>
    have hplan : (view >>= fun v =>
        Act.ofExcept (seedPlan v p (Seeder.orDefault seeders))).Yields ((seed seeders).Suits p) :=
      succeeds_view.andThen fun v => yields_ofExcept (spares_seedPlan v p _ _)
    unfold plan
    dsimp only
    split
    · exact (succeeds_record _).andThen fun _ => hplan
    · exact hplan
  | openapi =>
    refine (yields_mapError (fun _ => by simp [Failure.category]) _).bind fun r _ => ?_
    exact (succeeds_advance _).andThen fun _ => yields_pure (suits_openapiPlan p r)

theorem yields_bindWith (tool : BuildTool) (p : Project) (t : Task) :
    (t.bindWith tool p).Yields fun _ => True := by
  refine (t.yields_plan p).bind fun plan hs => ?_
  obtain ⟨text, -, -, htext⟩ := hs.source
  exact Injection.yields_injectSymbol tool htext _ _

end Task

/-- No task fails for its stub: for each version of the framework, all settings and every build
tool, the plan of a task finds its stub and fills it, and no failure of the task is about a
stub. This holds for a task with a project that was opened before, and for one that opens it. -/
theorem no_task_fails_for_its_stub (directory : String) (t : Task) (h : Host) (w : World) :
    (∀ p plan, ((t.plan p).perform h w).1 = .ok plan →
        ∃ name text, Stub.select plan.category p.framework.version = .ok name ∧
          Stub.render name (Injection.commonData p ++ plan.data) = .ok text ∧
          Injection.source p plan = .ok text) ∧
      (∀ tool p e, ((t.bindWith tool p).perform h w).1 = .error e → e.category ≠ .template) ∧
      (∀ tool config e, ((t.bindAt tool directory config).perform h w).1 = .error e →
        e.category ≠ .template) ∧
      ∀ e, ((t.bind directory).perform h w).1 = .error e → e.category ≠ .template := by
  refine ⟨?_, ?_, ?_, ?_⟩
  · intro p plan hplan
    have hs := t.yields_plan p h w
    rw [hplan] at hs
    cases hs with
    | ok hs =>
      obtain ⟨text, htext⟩ := hs.source
      exact ⟨_, text, htext⟩
  · exact fun tool p e => (t.yields_bindWith tool p h w).of_error
  · intro tool config e
    exact ((Project.yields_openWith directory config).bind
      (fun p _ => t.yields_bindWith tool p) h w).of_error
  · intro e
    exact ((Project.yields_openIn directory).bind
      (fun p _ => t.yields_bindWith p.toolchain.tool p) h w).of_error

/-! ## The shop -/

namespace Sample

theorem planned_routed :
    ((Task.openapi.plan project).perform host routed).1 =
      .ok (Task.openapiPlan project registrer) := by
  unfold Task.plan
  rw [perform_bind, perform_mapError, routeRegistrer_routed]
  rfl

/-- The plan for the routes of the shop is filled, and where the shop has no start call, the task
fails for that. -/
theorem the_shop_never_fails_for_its_stub :
    (∃ name text, Stub.select "inject/openapi" project.framework.version = .ok name ∧
        Stub.render name (Injection.commonData project ++
          (Task.openapiPlan project registrer).data) = .ok text ∧
        Injection.source project (Task.openapiPlan project registrer) = .ok text) ∧
      ∃ e, ((Task.openapi.bindAt scribe "/shop" .default).perform host unwritten).1 = .error e ∧
        e.category ≠ .template := by
  refine ⟨(no_task_fails_for_its_stub "/shop" .openapi host routed).1 project _ planned_routed, ?_⟩
  obtain ⟨u, hu⟩ := openapi_unwritten
  have herror := congrArg Prod.fst hu
  exact ⟨_, herror, (no_task_fails_for_its_stub "/shop" .openapi host unwritten).2.2.1 scribe
    .default _ herror⟩

end Sample

end Graft
