-- Tasks that are refused. What a project is, what a task refers to and the
-- stub that it fills are checked before anything is written. So a task that
-- is refused has left all files alone, has asked nothing of the build tool
-- and has run no artifact.
import Graft.Proofs.Registrers
import Graft.Proofs.Reporting
import Graft.Proofs.Runs

namespace Graft

open Act Injection

/-- The failure says that the project is not fit for the task: its manifest, what the task
refers to in it, or the stub for it. -/
def Failure.IsRefusal (e : Failure) : Prop :=
  e.category = .configuration ∨ e.category = .resolution ∨ e.category = .template

/-! ## Worlds in which nothing was done -/

namespace World

/-- Only a phase was entered, or something was said. -/
def isNote : Event → Bool
  | .entered _ => true
  | .said _ _ => true
  | _ => false

/-- From the first world to the second, no file was created, changed or removed, and the
journal tells of notes only: nothing was asked of the build tool, and nothing was run. -/
structure Untouched (w u : World) : Prop where
  store : u.store = w.store
  cwd : u.cwd = w.cwd
  notes : ∃ notes, u.journal = w.journal ++ notes ∧
    ∀ m ∈ notes, isNote m.event = true ∧ m.store = w.store

theorem Untouched.refl (w : World) : Untouched w w := ⟨rfl, rfl, [], by simp, by simp⟩

theorem Untouched.trans {w u z : World} (hu : Untouched w u) (hz : Untouched u z) :
    Untouched w z := by
  obtain ⟨notes, hj, hn⟩ := hu.notes
  obtain ⟨more, hj', hn'⟩ := hz.notes
  refine ⟨hz.store.trans hu.store, hz.cwd.trans hu.cwd, notes ++ more, ?_, ?_⟩
  · rw [hj', hj, List.append_assoc]
  · intro m hm
    rcases List.mem_append.mp hm with hm | hm
    · exact hn m hm
    · rw [← hu.store]
      exact hn' m hm

theorem untouched_record (w : World) {e : Event} (he : isNote e = true) :
    Untouched w (w.record e) := by
  refine ⟨rfl, rfl, [⟨e, w.context, w.store⟩], rfl, ?_⟩
  intro m hm
  rw [List.mem_singleton.mp hm]
  exact ⟨he, rfl⟩

theorem Untouched.view {w u : World} (hu : Untouched w u) : u.view = w.view := by
  unfold World.view
  rw [hu.store, hu.cwd]

end World

/-! ## Steps that only take notes -/

namespace Act

open World

variable {ε ε' α β : Type}

/-- Whatever the step comes to, it leaves everything alone. -/
def IsNoting (a : Act ε α) : Prop := ∀ h w, Untouched w (a.perform h w).2

theorem OnlyReports.isNoting {a : Act ε α} (ha : a.OnlyReports) : IsNoting a := by
  intro h w
  obtain ⟨reports, hu⟩ := ha h w
  rw [hu]
  refine ⟨rfl, rfl, _, rfl, ?_⟩
  intro m hm
  obtain ⟨r, -, rfl⟩ := List.mem_map.mp hm
  exact ⟨rfl, rfl⟩

theorem isNoting_pure (x : α) : IsNoting (pure x : Act ε α) := (onlyReports_pure x).isNoting

theorem isNoting_read : IsNoting (read : Act ε Host) := onlyReports_read.isNoting

theorem isNoting_view : IsNoting (view : Act ε Files.View) := onlyReports_view.isNoting

theorem isNoting_ofExcept (r : Except ε α) : IsNoting (ofExcept r) :=
  (onlyReports_ofExcept r).isNoting

theorem isNoting_advance (p : Phase) : IsNoting (advance p : Act ε Unit) := by
  intro h w
  obtain ⟨hs, hc, hn⟩ := World.untouched_record { w with context := w.context.inPhase p }
    (e := .entered p) rfl
  exact ⟨hs, hc, hn⟩

theorem isNoting_drawSuffix : IsNoting (drawSuffix : Act ε Suffix) :=
  fun _ _ => ⟨rfl, rfl, [], by simp, by simp⟩

theorem IsNoting.bind {a : Act ε α} {f : α → Act ε β} (ha : IsNoting a)
    (hf : ∀ x, IsNoting (f x)) : IsNoting (a >>= f) :=
  fun h w => relates_bind (R := Untouched) h w Untouched.trans ha hf

theorem IsNoting.within {a : Act ε α} (ha : IsNoting a) (change : Context → Context) :
    IsNoting (within change a) := by
  intro h w
  obtain ⟨hs, hc, hn⟩ := ha h { w with context := change w.context }
  exact ⟨hs, hc, hn⟩

theorem IsNoting.mapError {a : Act ε α} (ha : IsNoting a) (f : ε → ε') :
    IsNoting (mapError f a) := fun h w => ha h w

/-! ## Steps that refuse -/

variable {a b : Act Failure α} {f g : α → Act Failure β}

/-- The step never fails with a refusal. -/
def NeverRefuses (a : Act Failure α) : Prop :=
  ∀ h w e, (a.perform h w).1 = .error e → ¬ e.IsRefusal

theorem NeverRefuses.bind (ha : NeverRefuses a) (hf : ∀ x, NeverRefuses (f x)) :
    NeverRefuses (a >>= f) :=
  fun h w _ he => failure_bind (P := fun e : Failure => ¬ e.IsRefusal) h w ha hf he

theorem NeverRefuses.within (ha : NeverRefuses a) (change : Context → Context) :
    NeverRefuses (within change a) := fun h _ e he => ha h _ e he

theorem neverRefuses_mapError {c : ε → Failure} (hc : ∀ e, ¬ (c e).IsRefusal) (a : Act ε α) :
    NeverRefuses (mapError c a) := by
  intro h w e he
  rw [perform_mapError] at he
  generalize a.perform h w = z at he
  rcases z with ⟨e' | x, u⟩
  · cases he
    exact hc e'
  · cases he

theorem neverRefuses_of_ok (ha : ∀ h w, ∃ x, (a.perform h w).1 = .ok x) : NeverRefuses a := by
  intro h w e he
  obtain ⟨x, hx⟩ := ha h w
  rw [hx] at he
  cases he

/-- When the first step refuses, it has left everything alone, and the second step refuses
in the same way. -/
def RefusesAlike (a b : Act Failure α) : Prop :=
  ∀ h w e u, a.perform h w = (.error e, u) → e.IsRefusal →
    Untouched w u ∧ b.perform h w = (.error e, u)

theorem NeverRefuses.refusesAlike (ha : NeverRefuses a) : RefusesAlike a b := by
  intro h w e u hu he
  exact absurd he (ha h w e (congrArg Prod.fst hu))

theorem IsNoting.refusesAlike (ha : IsNoting a) : RefusesAlike a a := by
  intro h w e u hu _
  have hw := ha h w
  rw [hu] at hw
  exact ⟨hw, hu⟩

/-- A refusal after notes is a refusal. -/
theorem RefusesAlike.after {c : Act Failure α} (hc : IsNoting c)
    (hf : ∀ x, RefusesAlike (f x) (g x)) : RefusesAlike (c >>= f) (c >>= g) := by
  intro h w e u hu he
  have hw := hc h w
  rw [perform_bind] at hu ⊢
  generalize c.perform h w = z at hw hu ⊢
  rcases z with ⟨e' | x, z⟩
  · cases hu
    exact ⟨hw, rfl⟩
  · obtain ⟨hz, hg⟩ := hf x h z e u hu he
    exact ⟨hw.trans hz, hg⟩

/-- What comes after a step that may refuse does not refuse. -/
theorem RefusesAlike.before (ha : RefusesAlike a b) (hf : ∀ x, NeverRefuses (f x)) :
    RefusesAlike (a >>= f) (b >>= g) := by
  intro h w e u hu he
  have hw := ha h w e
  rw [perform_bind] at hu ⊢
  generalize a.perform h w = z at hw hu
  rcases z with ⟨e' | x, z⟩
  · cases hu
    obtain ⟨hz, hb⟩ := hw u rfl he
    rw [hb]
    exact ⟨hz, rfl⟩
  · exact absurd he (hf x h z e (congrArg Prod.fst hu))

theorem RefusesAlike.within (ha : RefusesAlike a b) (change : Context → Context) :
    RefusesAlike (within change a) (within change b) := by
  intro h w e u hu he
  have hw := ha h { w with context := change w.context } e
  rw [perform_within] at hu ⊢
  generalize a.perform h { w with context := change w.context } = z at hw hu
  rcases z with ⟨r, z⟩
  cases hu
  obtain ⟨⟨hs, hc, hn⟩, hb⟩ := hw z rfl he
  rw [hb]
  exact ⟨⟨hs, hc, hn⟩, rfl⟩

end Act

/-! ## What comes before the injection -/

theorem Project.isNoting_openWith (directory : String) (config : Config) :
    IsNoting (Project.openWith directory config) := by
  refine IsNoting.within ?_ _
  refine (isNoting_advance _).bind fun _ => isNoting_view.bind fun v => ?_
  refine (isNoting_ofExcept _).bind fun manifest => (isNoting_ofExcept _).bind fun framework => ?_
  refine (isNoting_advance _).bind fun _ => ?_
  split
  · exact (isNoting_ofExcept _).bind fun _ => (isNoting_advance _).bind fun _ => isNoting_pure _
  · exact (isNoting_advance _).bind fun _ => isNoting_pure _

theorem Project.openWith_ok (h : Host) (config : Config) {w : World} {directory : String}
    {m : Manifest} {f : Manifest.Framework} (hm : Manifest.read w.view directory = .ok m)
    (hf : m.framework = .ok f) (hv : Project.isTooOld f = false) :
    ((Project.openWith directory config).perform h w).1 = .ok ⟨directory, m, f, config⟩ := by
  let opened : World := { w with context := w.context.onProject directory }
  have hread : Manifest.read (opened.entered .created).view directory = .ok m := hm
  unfold Project.openWith
  rw [perform_within]
  change (Act.perform _ h opened).1 = _
  rw [perform_bind_of_ok (perform_advance _ _ _), perform_bind_of_ok (perform_view _ _), hread]
  dsimp only [Except.mapError]
  rw [perform_bind_of_ok (perform_ofExcept _ _ _), hf]
  dsimp only
  rw [perform_bind_of_ok (perform_ofExcept _ _ _), perform_bind_of_ok (perform_advance _ _ _), hv]
  rfl

theorem Task.isNoting_plan (p : Project) (t : Task) : IsNoting (t.plan p) := by
  by_cases ht : t = .openapi
  · subst ht
    refine ((Resolve.onlyReports_routeRegistrer _ _).isNoting.mapError _).bind fun registrer => ?_
    exact (isNoting_advance _).bind fun _ => isNoting_pure _
  · exact (onlyReports_plan p ht).isNoting

/-! ## What comes after the first write -/

namespace Injection

variable (tool : BuildTool) (p : Project) (plan : Plan)

theorem neverRefuses_writeFile (s : Suffix) (text : String) :
    NeverRefuses (writeFile (filePath p s) text) := by
  intro h w e he
  rcases perform_writeFile_cases h w (endsIn_filePath p s) text with ⟨fault, hf, -⟩ | ⟨hok, -⟩
  · rw [hf] at he
    cases he
    simp [Failure.IsRefusal, Failure.category]
  · rw [hok] at he
    cases he

theorem neverRefuses_ask (directory : String) (c : ToolCall) :
    NeverRefuses (ask tool directory c) := by
  refine NeverRefuses.bind (neverRefuses_of_ok fun _ _ => ⟨(), rfl⟩) fun _ => ?_
  exact neverRefuses_mapError (fun _ => by simp [Failure.IsRefusal, Failure.category]) _

theorem neverRefuses_addAll (directory : String) (ds : List Dependency) :
    NeverRefuses (addAll tool directory ds) := by
  induction ds with
  | nil => exact neverRefuses_of_ok fun _ _ => ⟨(), rfl⟩
  | cons d ds ih =>
    refine NeverRefuses.bind (neverRefuses_of_ok fun _ _ => ⟨(), rfl⟩) fun _ => ?_
    exact (neverRefuses_ask tool directory _).bind fun _ => ih

theorem neverRefuses_build (ds : List Dependency) (artifact : String) :
    NeverRefuses (build tool p ds artifact) := by
  refine (neverRefuses_addAll tool p.directory ds).bind fun _ => ?_
  refine NeverRefuses.bind (neverRefuses_of_ok fun _ _ => ⟨(), rfl⟩) fun _ => ?_
  refine NeverRefuses.bind (neverRefuses_of_ok fun _ _ => ⟨(), rfl⟩) fun _ => ?_
  exact (neverRefuses_ask tool p.directory _).bind fun _ =>
    neverRefuses_of_ok fun _ _ => ⟨(), rfl⟩

theorem neverRefuses_buildAndLoad (file artifact : String) :
    NeverRefuses (buildAndLoad tool p plan file artifact) := by
  intro h w e he
  have hb := neverRefuses_build tool p (missing p.manifest plan.dependencies) artifact h w
  rw [perform_buildAndLoad] at he
  dsimp only at he
  split at he
  · rename_i hbuild
    cases he
    exact hb _ hbuild
  · split at he
    · cases he
      simp [Failure.IsRefusal, Failure.category]
    · cases he

/-! ## The injection -/

variable (tool' : BuildTool)

/-- The preparation refuses before it writes the injected file. -/
theorem refusesAlike_prepare : RefusesAlike (prepare p plan) (prepare p plan) := by
  refine RefusesAlike.after isNoting_view fun v => ?_
  refine RefusesAlike.after (isNoting_ofExcept _) fun _ => ?_
  refine RefusesAlike.after (isNoting_ofExcept _) fun text => ?_
  refine RefusesAlike.after (isNoting_advance _) fun _ => ?_
  refine RefusesAlike.after isNoting_drawSuffix fun s => ?_
  refine RefusesAlike.after isNoting_view fun u => ?_
  refine RefusesAlike.after (isNoting_ofExcept _) fun paths => ?_
  refine RefusesAlike.after (onlyReports_warnLater _).isNoting fun _ => ?_
  refine NeverRefuses.refusesAlike ?_
  exact (neverRefuses_writeFile p s text).bind fun _ => neverRefuses_of_ok fun _ _ => ⟨_, rfl⟩

theorem refusesAlike_inject : RefusesAlike (inject tool p plan) (inject tool' p plan) := by
  refine RefusesAlike.within ?_ _
  refine RefusesAlike.after isNoting_read fun h => ?_
  exact (refusesAlike_prepare p plan).before fun s => neverRefuses_buildAndLoad tool p plan _ _

theorem refusesAlike_injectSymbol (symbol : String) (signature : Signature) :
    RefusesAlike (injectSymbol tool p plan symbol signature)
      (injectSymbol tool' p plan symbol signature) := by
  refine (refusesAlike_inject tool p plan tool').before fun A => ?_
  refine NeverRefuses.within ?_ _
  refine NeverRefuses.bind (neverRefuses_mapError (fun _ => ?_) _) fun f => ?_
  · simp [Failure.IsRefusal, Failure.category]
  · exact neverRefuses_of_ok fun _ _ => ⟨f, rfl⟩

end Injection

/-! ## Whole tasks -/

namespace Task

theorem refusesAlike_bindWith (tool tool' : BuildTool) (p : Project) (t : Task) :
    RefusesAlike (t.bindWith tool p) (t.bindWith tool' p) :=
  RefusesAlike.after (t.isNoting_plan p) fun plan =>
    refusesAlike_injectSymbol tool p plan tool' _ _

/-- The task in a directory, with these settings and this build tool: the project is checked
first. -/
def bindAt (tool : BuildTool) (directory : String) (config : Config) (t : Task) :
    Act Failure BoundSymbol := do
  let p ← Project.openWith directory config
  t.bindWith tool p

end Task

/-- A task that is refused, from the checking of the project to the binding of its symbol,
leaves everything alone: no file was created, changed or removed, nothing was asked of the
build tool and nothing was run. It would be refused in the same way with every build tool.
This also holds where the settings are searched and name the build tool. -/
theorem a_refused_task_leaves_everything_alone (directory : String) (t : Task) (h : Host)
    (w : World) :
    (∀ tool config e u, (t.bindAt tool directory config).perform h w = (.error e, u) →
        e.IsRefusal → World.Untouched w u ∧
          ∀ tool', (t.bindAt tool' directory config).perform h w = (.error e, u)) ∧
      ∀ e u, (t.bind directory).perform h w = (.error e, u) → e.IsRefusal →
        World.Untouched w u := by
  refine ⟨?_, ?_⟩
  · intro tool config e u hu he
    have halike : ∀ tool', RefusesAlike (t.bindAt tool directory config)
        (t.bindAt tool' directory config) := fun tool' =>
      RefusesAlike.after (Project.isNoting_openWith directory config) fun p =>
        t.refusesAlike_bindWith tool tool' p
    exact ⟨(halike tool h w e u hu he).1, fun tool' => (halike tool' h w e u hu he).2⟩
  · intro e u hu he
    have halike : RefusesAlike (t.bind directory) (t.bind directory) := by
      refine RefusesAlike.after ((Config.onlyReports_search directory).isNoting.bind ?_) fun p => ?_
      · exact fun config => Project.isNoting_openWith directory config
      · exact t.refusesAlike_bindWith _ _ p
    exact (halike h w e u hu he).1

/-! ## A shop without a start call -/

namespace Sample

open Files (Store)

def manifestText : String := "module shop\n\nrequire goyave.dev/goyave/v5 v5.0.0\n"

/-- The shop before any source is written. -/
def unwritten : World :=
  ⟨⟨[(["shop"], .directory),
      (["shop", "go.mod"], .file (Files.View.encode manifestText) false)]⟩,
    [], none, .empty, 0, []⟩

section Manifest

variable {s : Store} (hat : s.at? ["shop"] = some .directory)
  (hfile : s.at? ["shop", "go.mod"] = some (.file (Files.View.encode manifestText) false))

include hat hfile

theorem readText_manifest : Files.View.readText ⟨s, []⟩ "/shop/go.mod" = .ok manifestText := by
  have hparts : Path.parts "/shop/go.mod" = ["shop", "go.mod"] := by decide
  have habsolute : Path.isAbsolute "/shop/go.mod" = true := by decide
  have hplace : s.place [] true "/shop/go.mod" = .ok ["shop", "go.mod"] := by
    rw [Store.place_eq_walk (by decide) (by decide), hparts, habsolute]
    simp [Store.walk, hat, hfile]
  have hfind : Files.View.find ⟨s, []⟩ "/shop/go.mod" =
      .ok (.file (Files.View.encode manifestText) false) := by
    unfold Files.View.find
    dsimp only
    rw [hplace]
    dsimp only
    rw [hfile]
  exact Files.View.readText_of_find hfind

theorem read_manifest : Manifest.read ⟨s, []⟩ "/shop" = .ok project.manifest := by
  have hempty : "/shop".isEmpty = false := by decide
  have hjoin : Path.join "/shop" Manifest.fileName = "/shop/go.mod" := by decide
  unfold Manifest.read
  rw [hempty]
  simp only [Bool.false_eq_true, if_false]
  rw [hjoin, readText_manifest hat hfile]
  dsimp only
  exact eq_ok_of_toOption (by decide +kernel)

/-- The shop is opened, and its files stay. -/
theorem openWith_shop (h : Host) {w : World} (hw : w.view = ⟨s, []⟩) :
    ∃ u, (Project.openWith "/shop" .default).perform h w = (.ok project, u) ∧ u.view = w.view := by
  have hframework : project.manifest.framework = .ok project.framework :=
    eq_ok_of_toOption (by decide)
  have hread : Manifest.read w.view "/shop" = .ok project.manifest := by
    rw [hw]
    exact read_manifest hat hfile
  exact ⟨_, Prod.ext (Project.openWith_ok h .default hread hframework (by decide)) rfl,
    (Project.isNoting_openWith "/shop" .default h w).view⟩

end Manifest

theorem sourceFiles_unwritten : Scan.sourceFiles unwritten.view project.directory = .ok [] :=
  sourceFiles_of_namesIn (s := unwritten.store) (by simp [Store.at?, unwritten])
    (show _ = ["go.mod"] by simp [Store.namesIn, unwritten, Store.nameIn?]) (by decide +kernel)

/-- The shop is in order, but it starts the framework nowhere. -/
theorem openapi_unwritten :
    ∃ u, (Task.openapi.bindAt scribe "/shop" .default).perform host unwritten =
      (.error (.resolve (.noStartCall "/shop")), u) := by
  obtain ⟨u, hopen, hview⟩ := openWith_shop (by simp [Store.at?, unwritten])
    (by simp [Store.at?, unwritten]) host (show unwritten.view = ⟨unwritten.store, []⟩ from rfl)
  unfold Task.bindAt
  rw [perform_bind_of_ok hopen]
  have hnext : (Scan.Stream.next u.view
      (Scan.sitesIn (Resolve.startsFramework project.framework.importPath))
      (.start project.directory)).1 = none := by
    rw [hview]
    unfold Scan.Stream.next Scan.Stream.start
    dsimp only
    rw [sourceFiles_unwritten]
    rfl
  have hregistrer := Resolve.result_routeRegistrer project.directory project.framework.importPath
    host u
  rw [hnext] at hregistrer
  have hplan : ((Task.openapi.plan project).perform host u).1 =
      .error (.resolve (.noStartCall "/shop")) := by
    unfold Task.plan
    rw [perform_bind, perform_mapError, hregistrer]
    rfl
  exact ⟨_, perform_bind_of_error (Prod.ext hplan rfl)⟩

theorem the_shop_is_refused_without_a_start_call :
    ∃ u, (Task.openapi.bindAt scribe "/shop" .default).perform host unwritten =
        (.error (.resolve (.noStartCall "/shop")), u) ∧
      World.Untouched unwritten u ∧
      ∀ tool, (Task.openapi.bindAt tool "/shop" .default).perform host unwritten =
        (.error (.resolve (.noStartCall "/shop")), u) := by
  obtain ⟨u, hu⟩ := openapi_unwritten
  have hrefusal : (Failure.resolve (.noStartCall "/shop")).IsRefusal := .inr (.inl rfl)
  exact ⟨u, hu, (a_refused_task_leaves_everything_alone "/shop" .openapi host unwritten).1 scribe
    .default _ u hu hrefusal⟩

end Sample

end Graft
