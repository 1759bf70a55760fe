-- What a task leaves as the context. A step inside of a guard gives back the
-- context from before it, whatever it came to. All phases of a task are
-- entered inside of a guard but one: the phase in which the routes of the
-- project are found.
import Graft.Proofs.Capture
import Graft.Proofs.Refusing

namespace Graft

open Act

namespace Act

variable {ε α β : Type} {a : Act ε α} {f : α → Act ε β}

/-- Whatever the step comes to, the context after it is the one from before it. -/
def KeepsContext (a : Act ε α) : Prop := ∀ h w, (a.perform h w).2.context = w.context

/-- The guard around a step gives the context back, whatever the step itself does to it. -/
theorem keepsContext_within (change : Context → Context) (a : Act ε α) :
    (within change a).KeepsContext := fun _ _ => rfl

theorem OnlyReports.keepsContext (ha : a.OnlyReports) : a.KeepsContext := by
  intro h w
  obtain ⟨reports, hu⟩ := ha h w
  rw [hu]

theorem KeepsContext.bind (ha : a.KeepsContext) (hf : ∀ x, (f x).KeepsContext) :
    (a >>= f).KeepsContext := by
  intro h w
  have htrans : ∀ {w u z : World}, u.context = w.context → z.context = u.context →
      z.context = w.context := fun hu hz => hz.trans hu
  exact relates_bind (R := fun w u => u.context = w.context) h w htrans ha hf

end Act

/-! ## The steps of a task -/

theorem Project.keepsContext_openWith (directory : String) (config : Config) :
    (Project.openWith directory config).KeepsContext := keepsContext_within _ _

theorem Project.keepsContext_openIn (directory : String) :
    (Project.openIn directory).KeepsContext :=
  (Config.onlyReports_search directory).keepsContext.bind fun config =>
    keepsContext_openWith directory config

/-- An injection keeps the context with every build tool: both of its parts are guarded. -/
theorem Injection.keepsContext_injectSymbol (tool : BuildTool) (p : Project) (plan : Plan)
    (symbol : String) (signature : Signature) :
    (injectSymbol tool p plan symbol signature).KeepsContext :=
  (keepsContext_within _ _).bind fun _ => keepsContext_within _ _

namespace Task

/-- The context after a task, by what came of its planning. -/
def contextAfter (t : Task) (planned : Except Failure Plan) (c : Context) : Context :=
  match t, planned with
  | .openapi, .ok _ => c.inPhase .callSiteResolved
  | _, _ => c

@[simp] theorem contextAfter_error (t : Task) (e : Failure) (c : Context) :
    t.contextAfter (.error e) c = c := by
  cases t <;> rfl

theorem contextAfter_of_ne {t : Task} (ht : t ≠ .openapi) (planned : Except Failure Plan)
    (c : Context) : t.contextAfter planned c = c := by
  cases t with
  | openapi => exact absurd rfl ht
  | _ => rfl

/-- The plan of a task in a directory, with these settings. -/
def planAt (directory : String) (config : Config) (t : Task) : Act Failure Plan := do
  let p ← Project.openWith directory config
  t.plan p

/-- The plan of a task in a directory, with the settings that count there. -/
def planIn (directory : String) (t : Task) : Act Failure Plan := do
  let p ← Project.openIn directory
  t.plan p

theorem context_plan (p : Project) (t : Task) (h : Host) (w : World) :
    ((t.plan p).perform h w).2.context =
      t.contextAfter ((t.plan p).perform h w).1 w.context := by
  by_cases ht : t = .openapi
  · subst ht
    have hkeeps := (Resolve.onlyReports_routeRegistrer p.directory
      p.framework.importPath).keepsContext h w
    unfold plan
    rw [perform_bind, perform_mapError]
    generalize (Resolve.routeRegistrer p.directory p.framework.importPath).perform h w = z at hkeeps ⊢
    rcases z with ⟨e | registrer, u⟩
    · exact hkeeps
    · exact congrArg (Context.inPhase .callSiteResolved) hkeeps
  · rw [contextAfter_of_ne ht]
    exact (onlyReports_plan p ht).keepsContext h w

theorem context_bindWith (tool : BuildTool) (p : Project) (t : Task) (h : Host) (w : World) :
    ((t.bindWith tool p).perform h w).2.context =
      t.contextAfter ((t.plan p).perform h w).1 w.context := by
  have hplan := t.context_plan p h w
  unfold bindWith
  rw [perform_bind]
  generalize (t.plan p).perform h w = z at hplan ⊢
  rcases z with ⟨e | plan, u⟩
  · exact hplan
  · exact (Injection.keepsContext_injectSymbol tool p plan t.symbol t.signature h u).trans hplan

/-- A task that opens its project first leaves the context of its planning. -/
theorem context_opening {opening : Act Failure Project} (ho : opening.KeepsContext)
    (tool : Project → BuildTool) (t : Task) (h : Host) (w : World) :
    ((opening >>= fun p => t.bindWith (tool p) p).perform h w).2.context =
      t.contextAfter ((opening >>= fun p => t.plan p).perform h w).1 w.context := by
  have hw := ho h w
  rw [perform_bind, perform_bind]
  generalize opening.perform h w = z at hw ⊢
  rcases z with ⟨e | p, u⟩
  · rw [contextAfter_error]
    exact hw
  · dsimp only at hw ⊢
    rw [context_bindWith, hw]

end Task

/-- A task leaves the context as it was, whatever comes of it, unless it found the routes of
the project: then the phase of the finding is left. This holds for a task with a project that
was opened before, and for one that opens it, with every build tool. The call of the bound
symbol leaves the context as it was. -/
theorem only_found_routes_leave_a_phase (directory : String) (t : Task) (h : Host) (w : World) :
    (∀ tool p, ((t.bindWith tool p).perform h w).2.context =
        t.contextAfter ((t.plan p).perform h w).1 w.context) ∧
      (∀ tool config, ((t.bindAt tool directory config).perform h w).2.context =
        t.contextAfter ((t.planAt directory config).perform h w).1 w.context) ∧
      ((t.bind directory).perform h w).2.context =
        t.contextAfter ((t.planIn directory).perform h w).1 w.context ∧
      ∀ f, ((Task.invoke f).perform h w).2.context = w.context := by
  refine ⟨fun tool p => t.context_bindWith tool p h w, ?_, ?_, ?_⟩
  · intro tool config
    exact t.context_opening (Project.keepsContext_openWith directory config) (fun _ => tool) h w
  · exact t.context_opening (Project.keepsContext_openIn directory) (fun p => p.toolchain.tool) h w
  · exact fun f => keepsContext_within _ _ h w

/-! ## The routes of the shop -/

namespace Sample

theorem plan_routed :
    ∃ plan, ((Task.openapi.plan project).perform host routed).1 = .ok plan := by
  unfold Task.plan
  rw [perform_bind, perform_mapError, routeRegistrer_routed]
  exact ⟨_, rfl⟩

/-- Nothing was going on before the routes of the shop were described, and the phase of their
finding is left behind. -/
theorem the_routes_of_the_shop_leave_a_phase :
    routed.context = .empty ∧
      ((Task.openapi.bindWith scribe project).perform host routed).2.context =
        Context.empty.inPhase .callSiteResolved := by
  obtain ⟨plan, hplan⟩ := plan_routed
  refine ⟨rfl, ?_⟩
  rw [Task.context_bindWith, hplan]
  rfl

end Sample

end Graft
