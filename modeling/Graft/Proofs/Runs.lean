-- Runs of an injection. A run prepares and writes the injected file, builds
-- with it in place, cleans up, and loads the artifact or removes what a
-- failed build left. Here is what each part leaves, and how its deeds follow
-- one another.
import Graft.Proofs.Deeds
import Graft.Proofs.Rendering

namespace Graft

open Act Deed Files

namespace Injection

/-! ## The injected source -/

/-- A plan is filled into the stub that is chosen for it. -/
theorem source_of_fill {p : Project} {plan : Plan} {page : Stub.Page} (hpage : page ∈ Stub.pages)
    (hselect : Stub.select plan.category p.framework.version = .ok page.name) {text : String}
    (h : page.fill (commonData p ++ plan.data) = .ok text) : source p plan = .ok text := by
  rw [source, bind_eq_ok_iff]
  exact ⟨_, mapError_eq_ok_iff.mpr hselect, mapError_eq_ok_iff.mpr (Stub.render_of_fill hpage h)⟩

theorem exists_source {p : Project} {plan : Plan} {page : Stub.Page} (hpage : page ∈ Stub.pages)
    (hselect : Stub.select plan.category p.framework.version = .ok page.name)
    (h : (page.fill (commonData p ++ plan.data)).toBool = true) :
    ∃ text, source p plan = .ok text := by
  cases htext : page.fill (commonData p ++ plan.data) with
  | error place =>
    rw [htext] at h
    cases h
  | ok text => exact ⟨text, source_of_fill hpage hselect htext⟩

/-- Where there is no source, it is for the stub. -/
theorem stub_of_source_error {p : Project} {plan : Plan} {e : Failure}
    (h : source p plan = .error e) : ∃ e', e = .stub e' := by
  rw [source, bind_eq_error_iff] at h
  rcases h with h | ⟨_, -, h⟩
  · obtain ⟨e', -, rfl⟩ := mapError_eq_error_iff.mp h
    exact ⟨e', rfl⟩
  · obtain ⟨e', -, rfl⟩ := mapError_eq_error_iff.mp h
    exact ⟨e', rfl⟩

variable (h : Host) (w : World) (tool : BuildTool) (p : Project) (plan : Plan)

/-! ## Preparing -/

theorem sourceFiles_of_checkRoot {v : View} {p : Project} (hc : checkRoot v p = .ok ()) :
    ∃ files, (Scan.sourceFiles v p.directory).mapError Failure.scan = .ok files := by
  unfold checkRoot Scan.packageName at hc
  cases hf : Scan.sourceFiles v p.directory with
  | ok files => exact ⟨files, rfl⟩
  | error e =>
    rw [hf] at hc
    cases hc

theorem perform_warnLater (paths : List String) :
    ((warnLater paths).perform h w).1 = .ok () ∧
      World.Alike w ((warnLater paths).perform h w).2 := by
  induction paths generalizing w with
  | nil => exact ⟨rfl, .refl w⟩
  | cons path more ih =>
    unfold warnLater
    rw [perform_bind_of_ok (perform_warn _ _ _)]
    exact ⟨(ih _).1, (w.alike_record rfl).trans (ih _).2⟩

/-- The injected file is written in full where nothing stood, or it is not there, unless the
host refuses to remove a part of it. -/
theorem perform_writeFile_cases {path name : String} (hn : Path.EndsIn path name)
    (text : String) :
    (∃ fault, ((writeFile path text).perform h w).1 = .error (.temporaryFile path fault) ∧
        ((∀ n, h.refusesRemoval n path = none) →
          ((writeFile path text).perform h w).2.view = w.view)) ∨
      ((writeFile path text).perform h w).1 = .ok () ∧
        ∃ q, w.view.Leads path q ∧ w.store.at? q = none ∧
          ((writeFile path text).perform h w).2.view =
            ⟨w.store.put q (.file (View.encode text) false), w.cwd⟩ := by
  unfold writeFile
  rw [perform_bind, perform_attempt]
  have hc := perform_createFile_cases h w path (View.encode text)
  generalize (createFile path (View.encode text)).perform h w = z at hc ⊢
  rcases z with ⟨r, u⟩
  rcases hc with ⟨fault, hr, hv⟩ | ⟨written, q, kept, hr, hq, he, hv, hkept⟩
  · cases hr
    exact .inl ⟨fault, rfl, fun _ => hv⟩
  · cases hr
    cases written with
    | whole =>
      cases hkept rfl
      exact .inr ⟨rfl, q, hq, he, hv⟩
    | partly fault =>
      left
      dsimp only
      rw [perform_bind_of_ok (Prod.ext (perform_removeOrWarn h u _ path).1 rfl)]
      refine ⟨fault, rfl, ?_⟩
      intro hrefuse
      have hopen : w.store.IsOpen q := Store.isOpen_iff.mpr (.inl he)
      have hu : u.view.Leads path q := by
        rw [hv]
        exact hq.of_sameWays hn (Store.sameWays_put kept false hopen)
      have hat : u.store.at? q = some (.file kept false) := by
        rw [← World.store_view, hv]
        exact Store.at?_put_self (Store.ne_root_of_at? he)
      have hrem := (perform_removeFile_of_at? h u hrefuse hu hat (by simp)).2
      have hstore : u.store = w.store.put q (.file kept false) := congrArg View.store hv
      have hcwd : u.cwd = w.cwd := congrArg View.cwd hv
      refine (perform_removeOrWarn h u _ path).2.view.trans (hrem.trans ?_)
      rw [hstore, hcwd, Store.erase_put he]
      rfl

theorem perform_writeFile_of_at? {path : String} {q : Place} {e : Entry} (text : String)
    (hq : w.view.Leads path q) (he : w.store.at? q = some e) :
    ((writeFile path text).perform h w).1 = .error (.temporaryFile path .alreadyExists) ∧
      ((writeFile path text).perform h w).2.view = w.view := by
  have hc := perform_createFile_of_at? h w hq he (View.encode text)
  unfold writeFile
  rw [perform_bind, perform_attempt]
  generalize (createFile path (View.encode text)).perform h w = z at hc ⊢
  rcases z with ⟨r, u⟩
  obtain ⟨hr, hv⟩ := hc
  cases hr
  exact ⟨rfl, hv⟩

/-- The world once the stub is filled and a name is drawn. -/
def named (w : World) : World := { w.entered .templateRendered with drawn := w.drawn + 1 }

/-- The project is listed again in the same files. -/
theorem view_named : (named w).view = w.view := rfl

theorem alike_named : World.Alike w (named w) := ⟨rfl, (w.alike_entered .templateRendered).asks⟩

/-- A project that is in order, with a stub that can be filled, comes to the writing of the
injected file, once the files behind it are reported. -/
theorem perform_prepare_of_sourceFiles {text : String} {files : List String}
    (hc : checkRoot w.view p = .ok ()) (hs : source p plan = .ok text)
    (hf : (Scan.sourceFiles w.view p.directory).mapError Failure.scan = .ok files) :
    (prepare p plan).perform h w =
      match (writeFile (filePath p (w.nextSuffix h)) text).perform h
          ((warnLater (later (fileName (w.nextSuffix h)) files)).perform h (named w)).2 with
      | (.error e, z) => (.error e, z)
      | (.ok _, z) => (.ok (w.nextSuffix h), z.entered .tempFileWritten) := by
  have hok := (perform_warnLater h (named w) (later (fileName (w.nextSuffix h)) files)).1
  unfold prepare
  rw [perform_bind_of_ok (perform_view _ _), hc, hs,
    perform_bind_of_ok (perform_ofExcept _ _ _), perform_bind_of_ok (perform_ofExcept _ _ _),
    perform_bind_of_ok (perform_advance _ _ _), perform_bind_of_ok (perform_drawSuffix _ _),
    World.nextSuffix_entered]
  change Act.perform _ h (named w) = _
  rw [perform_bind_of_ok (perform_view _ _), view_named, hf,
    perform_bind_of_ok (perform_ofExcept _ _ _)]
  rw [perform_bind_of_ok (Prod.ext hok rfl), perform_bind]
  generalize (writeFile (filePath p (w.nextSuffix h)) text).perform h _ = z
  rcases z with ⟨e | _, z⟩
  · rfl
  · rfl

/-- Nothing was done to the files by then. -/
theorem perform_prepare {text : String} (hc : checkRoot w.view p = .ok ())
    (hs : source p plan = .ok text) :
    ∃ u, World.Alike w u ∧ (prepare p plan).perform h w =
      match (writeFile (filePath p (w.nextSuffix h)) text).perform h u with
      | (.error e, z) => (.error e, z)
      | (.ok _, z) => (.ok (w.nextSuffix h), z.entered .tempFileWritten) := by
  obtain ⟨files, hf⟩ := sourceFiles_of_checkRoot hc
  have ha := (perform_warnLater h (named w) (later (fileName (w.nextSuffix h)) files)).2
  refine ⟨_, (alike_named w).trans ha, ?_⟩
  rw [perform_prepare_of_sourceFiles h w p plan hc hs hf]

/-- Either the project is in order and the stub can be filled, or the preparation fails and
leaves everything as it was. -/
theorem prepare_cases :
    (∃ e, ((prepare p plan).perform h w).1 = .error e ∧
        World.Alike w ((prepare p plan).perform h w).2) ∨
      checkRoot w.view p = .ok () ∧ ∃ text, source p plan = .ok text := by
  cases hc : checkRoot w.view p with
  | error e =>
    left
    unfold prepare
    rw [perform_bind_of_ok (perform_view _ _), hc, perform_bind_of_error (perform_ofExcept _ _ _)]
    exact ⟨e, rfl, .refl w⟩
  | ok x =>
    cases hs : source p plan with
    | error e =>
      left
      unfold prepare
      rw [perform_bind_of_ok (perform_view _ _), hc, hs,
        perform_bind_of_ok (perform_ofExcept _ _ _),
        perform_bind_of_error (perform_ofExcept _ _ _)]
      exact ⟨e, rfl, .refl w⟩
    | ok text => exact .inr ⟨rfl, text, rfl⟩

/-- Once the injected file is written, it stands where nothing stood, and nothing else was
changed. -/
theorem prepare_ok {s : Suffix} (hp : ((prepare p plan).perform h w).1 = .ok s) :
    s = w.nextSuffix h ∧ ∃ text q, source p plan = .ok text ∧
      w.view.Leads (filePath p s) q ∧ w.store.at? q = none ∧
      ((prepare p plan).perform h w).2.view =
        ⟨w.store.put q (.file (View.encode text) false), w.cwd⟩ := by
  rcases prepare_cases h w p plan with ⟨e, he, -⟩ | ⟨hc, text, hs⟩
  · rw [he] at hp
    cases hp
  · obtain ⟨u, hu, hprep⟩ := perform_prepare h w p plan hc hs
    have hw := perform_writeFile_cases h u (endsIn_filePath p (w.nextSuffix h)) text
    rw [hprep] at hp ⊢
    generalize (writeFile (filePath p (w.nextSuffix h)) text).perform h u = z at hp hw ⊢
    rcases z with ⟨r, z⟩
    rcases hw with ⟨fault, hr, -⟩ | ⟨hr, q, hq, he, hv⟩
    · cases hr
      cases hp
    · cases hr
      cases hp
      have hstore : u.store = w.store := congrArg View.store hu.view
      have hcwd : u.cwd = w.cwd := congrArg View.cwd hu.view
      rw [hu.view] at hq
      rw [hstore] at he
      rw [hstore, hcwd] at hv
      exact ⟨rfl, text, q, hs, hq, he, hv⟩

/-- A preparation that fails leaves the files as they were, unless the host refuses to
remove a part of the injected file. -/
theorem prepare_error {e : Failure} (hp : ((prepare p plan).perform h w).1 = .error e)
    (hr : ∀ n, h.refusesRemoval n (filePath p (w.nextSuffix h)) = none) :
    ((prepare p plan).perform h w).2.view = w.view := by
  rcases prepare_cases h w p plan with ⟨e, -, ha⟩ | ⟨hc, text, hs⟩
  · exact ha.view
  · obtain ⟨u, hu, hprep⟩ := perform_prepare h w p plan hc hs
    have hw := perform_writeFile_cases h u (endsIn_filePath p (w.nextSuffix h)) text
    rw [hprep] at hp ⊢
    generalize (writeFile (filePath p (w.nextSuffix h)) text).perform h u = z at hp hw ⊢
    rcases z with ⟨r, z⟩
    rcases hw with ⟨fault, hfault, hv⟩ | ⟨hok, -⟩
    · cases hfault
      exact (hv hr).trans hu.view
    · cases hok
      cases hp

/-- If something stands where the injected file is to be written, it stays, and the run
reports that it is there. -/
theorem prepare_taken {text : String} {q : Place} {e : Entry} (hc : checkRoot w.view p = .ok ())
    (hs : source p plan = .ok text) (hq : w.view.Leads (filePath p (w.nextSuffix h)) q)
    (he : w.store.at? q = some e) :
    ((prepare p plan).perform h w).1 =
        .error (.temporaryFile (filePath p (w.nextSuffix h)) .alreadyExists) ∧
      ((prepare p plan).perform h w).2.view = w.view := by
  obtain ⟨u, hu, hprep⟩ := perform_prepare h w p plan hc hs
  have hstore : u.store = w.store := congrArg View.store hu.view
  rw [← hu.view] at hq
  rw [← hstore] at he
  have hw := perform_writeFile_of_at? h u text hq he
  rw [hprep]
  generalize (writeFile (filePath p (w.nextSuffix h)) text).perform h u = z at hw ⊢
  rcases z with ⟨r, z⟩
  obtain ⟨hr, hv⟩ := hw
  cases hr
  exact ⟨rfl, hv.trans hu.view⟩

/-- A project in order gets its injected file, if nothing stands at its place and the host
does not refuse to write it. -/
theorem prepare_ok_of {text : String} {q : Place} (hc : checkRoot w.view p = .ok ())
    (hs : source p plan = .ok text) (hq : w.view.Has (filePath p (w.nextSuffix h)) q none)
    (hr : ∀ n, h.refusesWrite n (filePath p (w.nextSuffix h)) = none) :
    ((prepare p plan).perform h w).1 = .ok (w.nextSuffix h) := by
  obtain ⟨u, hu, hprep⟩ := perform_prepare h w p plan hc hs
  have hstore : u.store = w.store := congrArg View.store hu.view
  obtain ⟨hl, he⟩ := hq
  rw [← hu.view] at hl
  rw [World.store_view, ← hstore] at he
  have hcreate := perform_createFile_of_none h u hr hl he (View.encode text)
  have hwrite : ((writeFile (filePath p (w.nextSuffix h)) text).perform h u).1 = .ok () := by
    unfold writeFile
    rw [perform_bind, perform_attempt]
    dsimp only
    rw [hcreate]
    rfl
  rw [hprep]
  generalize (writeFile (filePath p (w.nextSuffix h)) text).perform h u = z at hwrite ⊢
  rcases z with ⟨r, z⟩
  cases hwrite
  rfl

/-! ## Building and loading -/

variable (file artifact : String)

/-- The world that the build leaves. -/
def afterBuild (ds : List Dependency) (w : World) : World :=
  ((build tool p ds artifact).perform h w).2

/-- The world once everything is cleaned up. -/
def afterCleanUp (ds : List Dependency) (w : World) : World :=
  ((cleanUp tool p file (!ds.isEmpty)).perform h
    ((afterBuild h tool p artifact ds w).entered .cleanup)).2

theorem perform_buildAndLoad :
    (buildAndLoad tool p plan file artifact).perform h w =
      let ds := missing p.manifest plan.dependencies
      let z := afterCleanUp h tool p file artifact ds w
      match ((build tool p ds artifact).perform h w).1 with
      | .error e => (.error e, ((removeStray artifact).perform h z).2)
      | .ok _ =>
        match (Artifact.load artifact p.directory).perform h z with
        | (.error e, u) => (.error (.symbol e), u)
        | (.ok a, u) => (.ok a, u.entered .loaded) := by
  have hc := fun u => (perform_cleanUp h u tool p file
    (!(missing p.manifest plan.dependencies).isEmpty)).1
  unfold buildAndLoad afterCleanUp afterBuild
  rw [perform_bind, perform_attempt]
  dsimp only
  rw [perform_bind_of_ok (perform_advance _ _ _), perform_bind_of_ok (Prod.ext (hc _) rfl)]
  cases ((build tool p (missing p.manifest plan.dependencies) artifact).perform h w).1 with
  | error e =>
    dsimp only
    rw [perform_bind_of_ok (Prod.ext (perform_removeStray h _ artifact).1 rfl)]
    rfl
  | ok x =>
    dsimp only
    rw [perform_bind, perform_mapError]
    generalize (Artifact.load artifact p.directory).perform h _ = z
    rcases z with ⟨e | a, z⟩
    · rfl
    · rfl

/-- The deeds after cleaning up: what a failed build left is removed, or the artifact is
loaded. -/
def lastDeeds (ds : List Dependency) (w : World) : List Deed :=
  match ((build tool p ds artifact).perform h w).1 with
  | .error _ => strayDeeds h artifact (afterCleanUp h tool p file artifact ds w)
  | .ok _ => Artifact.loadDeeds h artifact p.directory (afterCleanUp h tool p file artifact ds w)

theorem chain_cleanUpDeeds (ds : List Dependency) :
    Chain (afterBuild h tool p artifact ds w)
      (cleanUpDeeds h tool p file (!ds.isEmpty)
        ((afterBuild h tool p artifact ds w).entered .cleanup))
      (afterCleanUp h tool p file artifact ds w) :=
  (perform_cleanUp h _ tool p file _).2.before (World.alike_entered _ _)

theorem chain_lastDeeds :
    Chain (afterCleanUp h tool p file artifact (missing p.manifest plan.dependencies) w)
      (lastDeeds h tool p file artifact (missing p.manifest plan.dependencies) w)
      ((buildAndLoad tool p plan file artifact).perform h w).2 := by
  rw [perform_buildAndLoad]
  unfold lastDeeds
  dsimp only
  generalize afterCleanUp h tool p file artifact (missing p.manifest plan.dependencies) w = z
  cases ((build tool p (missing p.manifest plan.dependencies) artifact).perform h w).1 with
  | error e => exact (perform_removeStray h z artifact).2
  | ok x =>
    have hl := Artifact.chain_loadDeeds h artifact p.directory z
    dsimp only
    generalize (Artifact.load artifact p.directory).perform h z = l at hl ⊢
    rcases l with ⟨e | a, u⟩
    · exact hl
    · exact hl.after (u.alike_entered _)

end Injection

/-! ## Whole runs -/

/-- An injection: the build tool, the project and the plan, on a host and in a world. -/
structure Run where
  tool : BuildTool
  project : Project
  plan : Plan
  host : Host
  start : World

namespace Run

open Injection

variable (r : Run)

/-- What the temporary files of the run are named with. -/
def suffix : Suffix := r.start.nextSuffix r.host

/-- The path of the injected file. -/
def file : String := filePath r.project r.suffix

/-- The path of the artifact. -/
def artifact : String := artifactPath r.host.tempDir r.suffix

theorem endsIn_file : Path.EndsIn r.file (fileName r.suffix) := endsIn_filePath _ _

theorem endsIn_artifact : Path.EndsIn r.artifact (artifactName r.suffix) :=
  endsIn_artifactPath _ _

/-- The dependencies that the run adds. -/
def missing : List Dependency := Injection.missing r.project.manifest r.plan.dependencies

/-- The world in which the project is worked on. -/
def opened : World :=
  { r.start with context := r.start.context.onProject r.project.directory }

/-- The preparation and the world once the injected file is written. -/
def prepared : Except Failure Suffix × World :=
  (prepare r.project r.plan).perform r.host r.opened

/-- The build and the world that it leaves. -/
def built : Except Failure Unit × World :=
  (build r.tool r.project r.missing r.artifact).perform r.host r.prepared.2

/-- The world once the run has cleaned up. -/
def cleaned : World :=
  afterCleanUp r.host r.tool r.project r.file r.artifact r.missing r.prepared.2

def outcome : Except Failure Artifact × World :=
  (inject r.tool r.project r.plan).perform r.host r.start

/-- The result of the run. -/
def result : Except Failure Artifact := r.outcome.1

/-- The world that the run leaves. -/
def after : World := r.outcome.2

/-! ## Its deeds -/

def buildDeeds : List Deed :=
  Injection.buildDeeds r.host r.tool r.project r.artifact r.missing r.prepared.2

def cleanUpDeeds : List Deed :=
  Injection.cleanUpDeeds r.host r.tool r.project r.file (!r.missing.isEmpty)
    (r.built.2.entered .cleanup)

def lastDeeds : List Deed :=
  Injection.lastDeeds r.host r.tool r.project r.file r.artifact r.missing r.prepared.2

/-- The run wrote its injected file. -/
def HasWritten : Prop := ∃ s, r.prepared.1 = .ok s

/-- All that was done to the files once the injected file was written. -/
def deeds : List Deed :=
  match r.prepared.1 with
  | .error _ => []
  | .ok _ => r.buildDeeds ++ r.cleanUpDeeds ++ r.lastDeeds

theorem deeds_of_hasWritten {r : Run} (hw : r.HasWritten) :
    r.deeds = r.buildDeeds ++ r.cleanUpDeeds ++ r.lastDeeds := by
  obtain ⟨s, hs⟩ := hw
  unfold deeds
  rw [hs]

/-- Once it is written, the injected file stands where nothing stood, and all other places
are as they were. -/
theorem written {r : Run} (hw : r.HasWritten) :
    ∃ text q, source r.project r.plan = .ok text ∧ r.start.view.Has r.file q none ∧
      r.prepared.2.view.Has r.file q (some (.file (View.encode text) false)) ∧
      ∀ p, p ≠ q → r.prepared.2.store.at? p = r.start.store.at? p := by
  obtain ⟨s, hs⟩ := hw
  obtain ⟨rfl, text, q, hsource, hq, he, hv⟩ := prepare_ok _ _ _ _ hs
  refine ⟨text, q, hsource, ⟨hq, he⟩, ?_, ?_⟩
  · rw [prepared, hv]
    exact ⟨hq.of_sameWays r.endsIn_file
        (Store.sameWays_put _ _ (Store.isOpen_iff.mpr (.inl he))),
      Store.at?_put_self (Store.ne_root_of_at? he)⟩
  · intro p hp
    rw [← World.store_view, prepared, hv]
    exact Store.at?_put_of_ne hp

theorem offers_written {r : Run} (hw : r.HasWritten) {path name : String}
    (hn : Path.EndsIn path name) {p : Place} (hp : r.start.view.Offers path p) :
    r.prepared.2.view.Offers path p := by
  obtain ⟨s, hs⟩ := hw
  obtain ⟨rfl, text, q, -, -, he, hv⟩ := prepare_ok _ _ _ _ hs
  have hways : r.start.store.SameWays (r.start.store.put q (.file (View.encode text) false)) :=
    Store.sameWays_put _ _ (Store.isOpen_iff.mpr (.inl he))
  rw [prepared, hv]
  exact ⟨hp.1.of_sameWays hn hways, hways.isOpen hp.2⟩

theorem lastDeeds_of_error {r : Run} {e : Failure} (hb : r.built.1 = .error e) :
    r.lastDeeds = strayDeeds r.host r.artifact r.cleaned := by
  unfold built at hb
  unfold lastDeeds Injection.lastDeeds cleaned
  rw [hb]

theorem lastDeeds_of_ok {r : Run} {x : Unit} (hb : r.built.1 = .ok x) :
    r.lastDeeds =
      Artifact.loadDeeds r.host r.artifact r.project.directory r.cleaned := by
  unfold built at hb
  unfold lastDeeds Injection.lastDeeds cleaned
  rw [hb]

theorem chain_buildDeeds : Chain r.prepared.2 r.buildDeeds r.built.2 :=
  Injection.chain_buildDeeds _ _ _ _ _ _

theorem chain_cleanUpDeeds : Chain r.built.2 r.cleanUpDeeds r.cleaned :=
  Injection.chain_cleanUpDeeds _ _ _ _ _ _ _

/-! ## The deeds of other programs -/

/-- The deed was done by the build tool or by the artifact of the run. -/
def Foreign (d : Deed) : Prop :=
  (∃ c w, d = asked r.tool r.project.directory c r.host w) ∨
    ∃ symbol s w, d = ran r.artifact r.project.directory symbol s r.host w

/-- The clean-up removes the injected file, and then at most tidies. -/
theorem cleanUpDeeds_cases :
    ∃ tidies, r.cleanUpDeeds = removed r.file r.host (r.built.2.entered .cleanup) :: tidies ∧
      (∀ d ∈ tidies, ∃ w, d = asked r.tool r.project.directory .tidy r.host w) ∧
      Chain (removed r.file r.host (r.built.2.entered .cleanup)).after tidies r.cleaned := by
  have hc := r.chain_cleanUpDeeds
  unfold cleanUpDeeds Injection.cleanUpDeeds at hc ⊢
  cases hc with
  | next hd hds =>
    refine ⟨_, rfl, ?_, hds⟩
    intro d hd
    split at hd
    · exact ⟨_, List.mem_singleton.mp hd⟩
    · cases hd

theorem foreign_of_mem_buildDeeds {r : Run} {d : Deed} (hd : d ∈ r.buildDeeds) : r.Foreign d :=
  .inl (exists_asked_of_mem_buildDeeds _ _ _ _ hd)

/-- After the clean-up, the artifact runs at most once. All else is the removal of the
artifact, or of its answer. -/
theorem lastDeeds_cases :
    ∃ runs removals, r.lastDeeds = runs ++ removals ∧
      (∀ d ∈ runs, ∃ symbol s w, d = ran r.artifact r.project.directory symbol s r.host w) ∧
      ∀ d ∈ removals, ∃ w, d = removed r.artifact r.host w ∨ ∃ symbol s u,
        ran r.artifact r.project.directory symbol s r.host u ∈ runs ∧
          d = removed (Artifact.resultPath r.host.tempDir s) r.host w := by
  cases hb : r.built.1 with
  | error e =>
    rw [lastDeeds_of_error hb]
    refine ⟨[], _, (List.nil_append _).symm, by simp, ?_⟩
    unfold strayDeeds
    intro d hd
    split at hd
    · exact ⟨_, .inl (List.mem_singleton.mp hd)⟩
    · cases hd
  | ok x =>
    rw [lastDeeds_of_ok hb]
    unfold Artifact.loadDeeds Artifact.executeDeeds
    refine ⟨[_], _, List.cons_append, ?_, ?_⟩
    · intro d hd
      exact ⟨_, _, _, List.mem_singleton.mp hd⟩
    · intro d hd
      rcases List.mem_append.mp hd with hd | hd
      · split at hd
        · exact ⟨_, .inr ⟨_, _, _, List.mem_cons_self, List.mem_singleton.mp hd⟩⟩
        · cases hd
      · split at hd
        · cases hd
        · exact ⟨_, .inl (List.mem_singleton.mp hd)⟩

/-- Every deed was done by the build tool or the artifact, or is a removal of the injection
itself. -/
theorem foreign_or_removed {r : Run} {d : Deed} (hd : d ∈ r.deeds) :
    r.Foreign d ∨ ∃ path w, d = removed path r.host w := by
  unfold deeds at hd
  split at hd
  · cases hd
  · rcases List.mem_append.mp hd with hd | hd
    · rcases List.mem_append.mp hd with hd | hd
      · exact .inl (foreign_of_mem_buildDeeds hd)
      · obtain ⟨tidies, htidies, hasked, -⟩ := r.cleanUpDeeds_cases
        rw [htidies] at hd
        rcases List.mem_cons.mp hd with rfl | hd
        · exact .inr ⟨_, _, rfl⟩
        · obtain ⟨w, rfl⟩ := hasked d hd
          exact .inl (.inl ⟨_, w, rfl⟩)
    · obtain ⟨runs, removals, hlast, hruns, hremovals⟩ := r.lastDeeds_cases
      rw [hlast] at hd
      rcases List.mem_append.mp hd with hd | hd
      · exact .inl (.inr (hruns d hd))
      · obtain ⟨w, rfl | ⟨symbol, s, u, -, rfl⟩⟩ := hremovals d hd <;> exact .inr ⟨_, w, rfl⟩

theorem exists_asked_of_call? {r : Run} {d : Deed} (hd : d ∈ r.deeds)
    (hc : d.call?.isSome = true) :
    ∃ c w, d = asked r.tool r.project.directory c r.host w := by
  rcases foreign_or_removed hd with (hasked | ⟨symbol, s, w, rfl⟩) | ⟨path, w, rfl⟩
  · exact hasked
  · cases hc
  · cases hc

theorem exists_ran_of_doer {r : Run} {d : Deed} (hd : d ∈ r.deeds) {symbol : String}
    {s : Suffix} (hdoer : d.doer = .artifact symbol s) :
    ∃ w, d = ran r.artifact r.project.directory symbol s r.host w := by
  rcases foreign_or_removed hd with (⟨c, w, rfl⟩ | ⟨symbol', s', w, rfl⟩) | ⟨path, w, rfl⟩
  · cases hdoer
  · cases hdoer
    exact ⟨w, rfl⟩
  · cases hdoer

theorem foreign_of_isForeign {r : Run} {d : Deed} (hd : d ∈ r.deeds)
    (hf : d.isForeign = true) : r.Foreign d := by
  rcases foreign_or_removed hd with hd | ⟨path, w, rfl⟩
  · exact hd
  · cases hf

/-! ## Its outcome -/

/-- What the run does in the context of its project. -/
def body : Act Failure Artifact := do
  let suffix ← prepare r.project r.plan
  buildAndLoad r.tool r.project r.plan (filePath r.project suffix)
    (artifactPath r.host.tempDir suffix)

theorem outcome_eq :
    r.outcome = ((r.body.perform r.host r.opened).1,
      { (r.body.perform r.host r.opened).2 with context := r.start.context }) := by
  unfold outcome inject body opened
  rw [perform_within, perform_bind_of_ok (perform_read _ _)]

theorem result_eq : r.result = (r.body.perform r.host r.opened).1 := by
  rw [result, outcome_eq]

theorem alike_after : World.Alike (r.body.perform r.host r.opened).2 r.after := by
  rw [after, outcome_eq]
  exact ⟨rfl, rfl⟩

theorem outcome_of_error {r : Run} {e : Failure} (hp : r.prepared.1 = .error e) :
    r.result = .error e ∧ World.Alike r.prepared.2 r.after := by
  have ha := r.alike_after
  rw [result_eq]
  unfold body at ha ⊢
  rw [perform_bind_of_error (Prod.ext hp rfl)] at ha ⊢
  exact ⟨rfl, ha⟩

theorem outcome_of_hasWritten {r : Run} (hw : r.HasWritten) :
    r.result =
        ((buildAndLoad r.tool r.project r.plan r.file r.artifact).perform r.host r.prepared.2).1 ∧
      World.Alike
        ((buildAndLoad r.tool r.project r.plan r.file r.artifact).perform r.host r.prepared.2).2
        r.after := by
  obtain ⟨s, hs⟩ := hw
  obtain ⟨rfl, -⟩ := prepare_ok _ _ _ _ hs
  have ha := r.alike_after
  rw [result_eq]
  unfold body at ha ⊢
  rw [perform_bind_of_ok (Prod.ext hs rfl)] at ha ⊢
  exact ⟨rfl, ha⟩

theorem outcome_of_failed_build {r : Run} (hw : r.HasWritten) {e : Failure}
    (hb : r.built.1 = .error e) :
    r.result = .error e ∧
      World.Alike ((removeStray r.artifact).perform r.host r.cleaned).2 r.after := by
  obtain ⟨hresult, ha⟩ := outcome_of_hasWritten hw
  unfold built missing at hb
  rw [perform_buildAndLoad] at hresult ha
  dsimp only at hresult ha
  rw [hb] at hresult ha
  dsimp only at hresult ha
  exact ⟨hresult, ha⟩

theorem outcome_of_build {r : Run} (hw : r.HasWritten) {x : Unit} (hb : r.built.1 = .ok x) :
    r.result =
        ((Artifact.load r.artifact r.project.directory).perform r.host r.cleaned).1.mapError
          .symbol ∧
      World.Alike ((Artifact.load r.artifact r.project.directory).perform r.host r.cleaned).2
        r.after := by
  obtain ⟨hresult, ha⟩ := outcome_of_hasWritten hw
  unfold built missing at hb
  rw [perform_buildAndLoad] at hresult ha
  dsimp only at hresult ha
  rw [hb] at hresult ha
  unfold cleaned missing
  generalize (Artifact.load r.artifact r.project.directory).perform r.host _ = z at hresult ha ⊢
  rcases z with ⟨e | A, u⟩
  · exact ⟨hresult, ha⟩
  · exact ⟨hresult, (u.alike_entered _).trans ha⟩

theorem chain_lastDeeds {r : Run} (hw : r.HasWritten) :
    Chain r.cleaned r.lastDeeds r.after :=
  (Injection.chain_lastDeeds _ _ _ _ _ _ _).after (outcome_of_hasWritten hw).2

/-- The deeds of a run lead from the world with the injected file to the world that the run
leaves. -/
theorem chain_deeds {r : Run} (hw : r.HasWritten) : Chain r.prepared.2 r.deeds r.after := by
  rw [deeds_of_hasWritten hw]
  exact (r.chain_buildDeeds.append r.chain_cleanUpDeeds).append (chain_lastDeeds hw)

end Run

/-! ## A sample project -/

namespace Sample

/-- A small shop. -/
def project : Project :=
  ⟨"/shop", ⟨"/shop/go.mod", some "shop", none, [⟨"goyave.dev/goyave/v5", "v5.0.0", false⟩]⟩,
    ⟨"goyave.dev/goyave/v5", .release 5 0 0, "v5.0.0"⟩, .default⟩

/-- Describes the routes of the shop with a module that it does not require yet. -/
def plan : Plan :=
  ⟨"inject/openapi",
    [(.routeRegistrer, .text "Register"), (.routeRegistrerImport, .text "")],
    [⟨"goyave.dev/openapi3", none⟩]⟩

/-- The place of the sums of all modules. -/
def sums : Place := ["shop", "go.sum"]

def world : World :=
  ⟨⟨[(["shop"], .directory), (sums, .file [] false), (["tmp"], .directory)]⟩, [], none, .empty,
    0, []⟩

/-- A build tool that writes the sums, and cannot build. -/
def scribe : BuildTool :=
  ⟨fun _ c => .ofFunction fun _ w =>
    (match c with
      | .build _ => .error (.notFound "go")
      | _ => .ok (),
     if w.store.way sums = none then { w with store := w.store.put sums (.file [104] false) }
     else w)⟩

/-- A host on which no program can be run. -/
def host : Host :=
  ⟨"/tmp", [], 7, fun _ => 1000, fun _ _ _ => .error .notFound, fun _ _ => none, fun _ _ => none,
    fun _ => "", fun _ => ""⟩

def run : Run := ⟨scribe, project, plan, host, world⟩

theorem has_file_run :
    world.view.Has run.file ["shop", "zz_gyv_codeinject-1000-7-0.go"] none := by
  have hparts : Path.parts run.file = ["shop", "zz_gyv_codeinject-1000-7-0.go"] := by
    decide
  have habsolute : Path.isAbsolute run.file = true := by decide
  have hnone : world.view.store.at? ["shop", "zz_gyv_codeinject-1000-7-0.go"] = none := by decide
  exact ⟨View.leads_of_parts run.endsIn_file habsolute hparts (by decide) (by decide)
    (Store.isOpen_iff.mpr (.inl hnone)), hnone⟩

theorem place_directory {s : Store} (h : s.at? ["shop"] = some .directory) :
    s.place [] true project.directory = .ok ["shop"] := by
  have hparts : Path.parts project.directory = ["shop"] := by decide
  have habsolute : Path.isAbsolute project.directory = true := by decide
  rw [Store.place_eq_walk (by decide) (by decide), hparts, habsolute]
  simp [Store.walk, h]

/-- The shop has no source if the one name in it is none of a source. -/
theorem sourceFiles_of_namesIn {s : Store} {name : String}
    (hat : s.at? ["shop"] = some .directory) (hnames : s.namesIn ["shop"] = [name])
    (hsource : (Path.fileName? (Path.join project.directory name)).bind Path.extension? ≠
      some "go") : Scan.sourceFiles ⟨s, []⟩ project.directory = .ok [] := by
  have hno : ∀ e, Scan.isSource ⟨Path.join project.directory name, e⟩ = false := by
    intro e
    unfold Scan.isSource
    cases e <;> simp [hsource]
  unfold Scan.sourceFiles View.list
  dsimp only
  rw [place_directory hat]
  dsimp only
  rw [hat, hnames]
  simp [hno]

theorem sourceFiles_world : Scan.sourceFiles world.view project.directory = .ok [] :=
  sourceFiles_of_namesIn (s := world.store) (by decide)
    (show _ = ["go.sum"] by decide +kernel) (by decide +kernel)

/-- The stub for the routes can be filled for the shop. -/
theorem source_plan : ∃ text, Injection.source project plan = .ok text := by
  have hpage : ⟨"inject/openapi/default.go.stub", Stub.Injection.openapi⟩ ∈ Stub.pages :=
    List.mem_of_getElem? (i := 10) rfl
  exact Injection.exists_source hpage (Stub.select_of_unversioned (by decide) (by decide) _)
    (by decide +kernel)

theorem hasWritten_run : run.HasWritten := by
  have hc : Injection.checkRoot world.view project = .ok () := by
    unfold Injection.checkRoot Scan.packageName
    rw [sourceFiles_world]
    rfl
  obtain ⟨text, hsource⟩ := source_plan
  exact ⟨_, Injection.prepare_ok_of host run.opened project plan hc hsource has_file_run
    fun _ => rfl⟩

end Sample
end Graft
