-- The deeds of an injection: what the build tool, the artifact and the
-- injection itself did to the files once the injected file was written. Each
-- deed begins with the files that the one before it left, so that what every
-- deed keeps is kept by all of them together.
import Graft.Proofs.TemporaryNames

namespace Graft

/-- Who changes files in the course of an injection. -/
inductive Doer
  /-- The build tool, when something is asked of it. -/
  | tool (c : ToolCall)
  /-- The artifact, when it runs for a symbol. The suffix names the file for its answer. -/
  | artifact (symbol : String) (answer : Suffix)
  /-- The injection, when it removes the file at a path. -/
  | removal (path : String)
  deriving DecidableEq, Repr

/-- Something that was done, with the worlds before and after it. -/
structure Deed where
  doer : Doer
  before : World
  after : World
  succeeded : Bool

namespace Deed

variable {ε α : Type}

/-- A step as a deed. -/
def ofStep (doer : Doer) (a : Act ε α) (h : Host) (w : World) : Deed :=
  ⟨doer, w, (a.perform h w).2, (a.perform h w).1.toBool⟩

def asked (tool : BuildTool) (directory : String) (c : ToolCall) : Host → World → Deed :=
  ofStep (.tool c) (Injection.ask tool directory c)

def ran (artifact directory symbol : String) (answer : Suffix) (h : Host) : World → Deed :=
  ofStep (.artifact symbol answer)
    (Act.launch (Artifact.runFor artifact directory symbol
      (Artifact.resultPath h.tempDir answer))) h

def removed (path : String) : Host → World → Deed := ofStep (.removal path) (Act.removeFile path)

/-- What was asked of the build tool. -/
def call? (d : Deed) : Option ToolCall :=
  match d.doer with
  | .tool c => some c
  | _ => none

@[simp] theorem call?_asked (tool : BuildTool) (directory : String) (c : ToolCall) (h : Host)
    (w : World) : (asked tool directory c h w).call? = some c := rfl

@[simp] theorem call?_ran (artifact directory symbol : String) (s : Suffix) (h : Host)
    (w : World) : (ran artifact directory symbol s h w).call? = none := rfl

@[simp] theorem call?_removed (path : String) (h : Host) (w : World) :
    (removed path h w).call? = none := rfl

/-- Another program did it. -/
def isForeign (d : Deed) : Bool :=
  match d.doer with
  | .removal _ => false
  | _ => true

/-- The deed leaves what stands at a place as it is. -/
def LeavesAlone (q : Files.Place) (d : Deed) : Prop := d.after.store.at? q = d.before.store.at? q

/-- The deed spares the file at a path: the path still leads to its place, and what stands
there stays. -/
def Spares (path : String) (d : Deed) : Prop :=
  ∀ q, d.before.view.Leads path q → d.after.view.Leads path q ∧ d.LeavesAlone q

theorem Spares.has {path : String} {d : Deed} (hd : d.Spares path) {q : Files.Place}
    {e : Option Files.Entry} (h : d.before.view.Has path q e) : d.after.view.Has path q e :=
  ⟨(hd q h.1).1, (hd q h.1).2.trans h.2⟩

/-- A file that is removed leaves its place empty, and all other places alone. -/
theorem has_removed {path name : String} (hn : Path.EndsIn path name) {h : Host} {w : World}
    (hr : ∀ n, h.refusesRemoval n path = none) {q : Files.Place} {bytes : List UInt8} {x : Bool}
    (hq : w.view.Has path q (some (.file bytes x))) :
    (removed path h w).after.view.Has path q none ∧
      ∀ p, p ≠ q → (removed path h w).LeavesAlone p := by
  obtain ⟨hl, he⟩ := hq
  obtain ⟨-, hv⟩ := Act.perform_removeFile_of_at? h w hr hl he (by simp)
  have hopen : w.store.IsOpen q := Files.Store.isOpen_iff.mpr (.inr ⟨_, _, he⟩)
  unfold removed ofStep
  refine ⟨?_, ?_⟩
  · dsimp only
    rw [hv]
    exact ⟨hl.of_sameWays hn (Files.Store.sameWays_erase hopen),
      Files.Store.at?_erase_self (hl.ne_root hn)⟩
  · intro p hp
    unfold LeavesAlone
    dsimp only
    rw [← World.store_view, hv]
    exact Files.Store.at?_erase_of_ne hp

theorem leavesAlone_removed {path name : String} (hn : Path.EndsIn path name) (h : Host)
    (w : World) {q : Files.Place} (hq : q.getLast? ≠ some name) :
    (removed path h w).LeavesAlone q := by
  unfold LeavesAlone removed ofStep
  rcases Act.perform_removeFile_cases h w path with ⟨fault, -, hv⟩ | ⟨-, p, e, hp, -, -, hv⟩
  · rw [← World.store_view, hv]
    rfl
  · rw [← World.store_view, hv]
    refine Files.Store.at?_erase_of_ne ?_
    rintro rfl
    exact hq (hp.getLast? hn)

/-- Where no link stands, a removal does not change where other paths lead. -/
theorem offers_removed {path name other : String} (hn : Path.EndsIn path name) {h : Host}
    {w : World} {q : Files.Place} (hq : w.view.Offers path q) (hl : w.view.HasNoLink other) :
    (removed other h w).after.view.Offers path q := by
  unfold removed ofStep
  dsimp only
  rcases Act.perform_removeFile_cases h w other with ⟨fault, -, hv⟩ | ⟨-, p, e, hp, he, hd, hv⟩
  · rw [hv]
    exact hq
  · have hw := Files.Store.sameWays_erase (hl.isOpen hp he hd)
    rw [hv]
    exact ⟨hq.1.of_sameWays hn hw, hw.isOpen hq.2⟩

theorem holds_removed {path name other name' : String} (hn : Path.EndsIn path name)
    (ho : Path.EndsIn other name') (hne : name ≠ name') {h : Host} {w : World} {q : Files.Place}
    (hq : w.view.Holds path q) (hl : w.view.HasNoLink other) :
    (removed other h w).after.view.Holds path q := by
  obtain ⟨bytes, x, hf⟩ := hq.2
  have halone : (removed other h w).LeavesAlone q := by
    refine leavesAlone_removed ho h w ?_
    rw [hq.1.getLast? hn]
    exact fun he => hne (Option.some.inj he)
  exact ⟨(offers_removed hn hq.offers hl).1, bytes, x, halone.trans hf⟩

/-- Once a file was to be removed, nothing stands where it could. -/
theorem has_none_removed {path name : String} (hn : Path.EndsIn path name) {h : Host} {w : World}
    (hr : ∀ n, h.refusesRemoval n path = none) {q : Files.Place} (hq : w.view.Offers path q) :
    (removed path h w).after.store.at? q = none := by
  rcases Files.Store.isOpen_iff.mp hq.2 with he | ⟨bytes, x, he⟩
  · unfold removed ofStep
    dsimp only
    rcases Act.perform_removeFile_cases h w path with ⟨fault, -, hv⟩ | ⟨-, p, e, hp, hp', -, -⟩
    · rw [← World.store_view, hv]
      exact he
    · cases hp.unique hq.1
      cases he.symm.trans hp'
  · exact (has_removed hn hr ⟨hq.1, he⟩).1.2

/-! ## One deed after the other -/

/-- The deeds lead from one world to the other. Nothing else changed the files, and nothing
else was asked of the build tool. -/
inductive Chain : World → List Deed → World → Prop
  | done {w u : World} (h : World.Alike w u) : Chain w [] u
  | next {d : Deed} {ds : List Deed} {w u : World} (hd : World.Alike w d.before)
      (hds : Chain d.after ds u) : Chain w (d :: ds) u

namespace Chain

variable {w u z : World} {d : Deed} {ds es : List Deed}

theorem single (hd : World.Alike w d.before) (hu : World.Alike d.after u) : Chain w [d] u :=
  .next hd (.done hu)

theorem before (h : World.Alike z w) (hd : Chain w ds u) : Chain z ds u := by
  cases hd with
  | done hu => exact .done (h.trans hu)
  | next hw hds => exact .next (h.trans hw) hds

theorem after (hd : Chain w ds u) (h : World.Alike u z) : Chain w ds z := by
  induction hd with
  | done hu => exact .done (hu.trans h)
  | next hd _ ih => exact .next hd (ih h)

theorem append (hd : Chain w ds u) (he : Chain u es z) : Chain w (ds ++ es) z := by
  induction hd with
  | done hu => exact he.before hu
  | next hd _ ih => exact .next hd (ih he)

theorem split (hc : Chain w (ds ++ es) u) : ∃ z, Chain w ds z ∧ Chain z es u := by
  induction ds generalizing w with
  | nil => exact ⟨w, .done (.refl w), hc⟩
  | cons d ds ih =>
    cases hc with
    | next hd hds =>
      obtain ⟨z, hz, hu⟩ := ih hds
      exact ⟨z, .next hd hz, hu⟩

/-- What each deed keeps holds before each of them and at the end. -/
theorem keeps {I : Files.View → Prop} (hc : Chain w ds u)
    (hk : ∀ d ∈ ds, I d.before.view → I d.after.view) (hw : I w.view) :
    I u.view ∧ ∀ d ∈ ds, I d.before.view := by
  induction hc with
  | done hu => exact ⟨hu.view ▸ hw, by simp⟩
  | @next d ds w u hd _ ih =>
    have hb : I d.before.view := hd.view ▸ hw
    obtain ⟨hu, hds⟩ := ih (fun e he => hk e (List.mem_cons_of_mem _ he))
      (hk d List.mem_cons_self hb)
    refine ⟨hu, ?_⟩
    intro e he
    rcases List.mem_cons.mp he with rfl | he
    · exact hb
    · exact hds e he

end Chain

end Deed

open Act Deed

/-! ## Removing files -/

namespace Injection

variable {ε : Type} (h : Host) (w : World)

theorem chain_removeOrWarn (complaint path : String) :
    Chain w [removed path h w] ((removeOrWarn complaint path : Act ε Unit).perform h w).2 :=
  .single (.refl w) (perform_removeOrWarn h w complaint path).2

/-! ## Adding dependencies and building -/

variable (tool : BuildTool) (p : Project) (directory artifact file : String)

/-- The world in which a dependency is asked for. -/
def announced (d : Dependency) (w : World) : World :=
  w.record (.said .info ("Adding dependency " ++ d.text))

/-- The deeds of adding dependencies. -/
def getDeeds : List Dependency → World → List Deed
  | [], _ => []
  | d :: ds, w =>
    let deed := asked tool directory (.get d) h (announced d w)
    deed :: if deed.succeeded then getDeeds ds deed.after else []

theorem perform_addAll_cons (d : Dependency) (ds : List Dependency) :
    (addAll tool directory (d :: ds)).perform h w =
      match (ask tool directory (.get d)).perform h (announced d w) with
      | (.ok _, u) => (addAll tool directory ds).perform h u
      | (.error e, u) => (.error e, u) := by
  rw [addAll, perform_bind_of_ok (perform_info _ _ _), perform_bind]
  unfold announced
  rcases (ask tool directory (.get d)).perform h _ with ⟨r, u⟩
  cases r <;> rfl

theorem chain_getDeeds (ds : List Dependency) :
    Chain w (getDeeds h tool directory ds w) ((addAll tool directory ds).perform h w).2 := by
  induction ds generalizing w with
  | nil => exact .done (.refl w)
  | cons d ds ih =>
    rw [perform_addAll_cons, getDeeds]
    refine .next (w.alike_record rfl) ?_
    unfold asked ofStep
    rcases (ask tool directory (.get d)).perform h (announced d w) with ⟨r, u⟩
    cases r with
    | error e => exact .done (.refl u)
    | ok x => exact ih u

theorem exists_asked_of_mem_getDeeds {ds : List Dependency} {w : World} {d : Deed}
    (hd : d ∈ getDeeds h tool directory ds w) :
    ∃ x u, d = asked tool directory (.get x) h u := by
  induction ds generalizing w with
  | nil => cases hd
  | cons x xs ih =>
    unfold getDeeds at hd
    rcases List.mem_cons.mp hd with rfl | hd
    · exact ⟨x, _, rfl⟩
    · split at hd
      · exact ih hd
      · cases hd

/-- The world in which the build is asked for, once all dependencies are there. -/
def ready (p : Project) (w : World) : World :=
  (w.entered .dependenciesEnsured).record (.said .info ("Building " ++ p.directory))

/-- The deeds of adding the dependencies and building. -/
def buildDeeds (ds : List Dependency) (w : World) : List Deed :=
  getDeeds h tool p.directory ds w ++
    match (addAll tool p.directory ds).perform h w with
    | (.ok _, u) => [asked tool p.directory (.build artifact) h (ready p u)]
    | (.error _, _) => []

theorem perform_build (ds : List Dependency) :
    (build tool p ds artifact).perform h w =
      match (addAll tool p.directory ds).perform h w with
      | (.error e, u) => (.error e, u)
      | (.ok _, u) =>
        match (ask tool p.directory (.build artifact)).perform h (ready p u) with
        | (.error e, z) => (.error e, z)
        | (.ok _, z) => (.ok (), z.entered .built) := by
  rw [build, perform_bind]
  rcases (addAll tool p.directory ds).perform h w with ⟨r, u⟩
  cases r with
  | error e => rfl
  | ok x =>
    dsimp only
    rw [perform_bind_of_ok (perform_advance _ _ _), perform_bind_of_ok (perform_info _ _ _),
      perform_bind]
    unfold ready
    rcases (ask tool p.directory (.build artifact)).perform h _ with ⟨r, z⟩
    cases r <;> rfl

theorem chain_buildDeeds (ds : List Dependency) :
    Chain w (buildDeeds h tool p artifact ds w)
      ((build tool p ds artifact).perform h w).2 := by
  refine (chain_getDeeds h w tool p.directory ds).append ?_
  rw [perform_build]
  rcases (addAll tool p.directory ds).perform h w with ⟨r, u⟩
  cases r with
  | error e => exact .done (.refl u)
  | ok x =>
    refine .next ((u.alike_entered _).trans (World.alike_record _ rfl)) ?_
    unfold asked ofStep
    dsimp only
    rcases (ask tool p.directory (.build artifact)).perform h (ready p u) with ⟨r, z⟩
    cases r with
    | error e => exact .done (.refl z)
    | ok x => exact .done (z.alike_entered _)

theorem exists_asked_of_mem_buildDeeds {ds : List Dependency} {w : World} {d : Deed}
    (hd : d ∈ buildDeeds h tool p artifact ds w) :
    ∃ c u, d = asked tool p.directory c h u := by
  unfold buildDeeds at hd
  rcases List.mem_append.mp hd with hd | hd
  · obtain ⟨x, u, rfl⟩ := exists_asked_of_mem_getDeeds h tool p.directory hd
    exact ⟨_, u, rfl⟩
  · split at hd
    · exact ⟨_, _, List.mem_singleton.mp hd⟩
    · cases hd

/-! ## Cleaning up -/

/-- The world after the injected file was to be removed. -/
def cleared (file : String) (h : Host) (w : World) : World :=
  ((removeOrWarn "Could not delete temporary file " file : Act Failure Unit).perform h w).2

/-- The deeds of cleaning up. -/
def cleanUpDeeds (tidy : Bool) (w : World) : List Deed :=
  removed file h w ::
    if tidy then [asked tool p.directory .tidy h (cleared file h w)] else []

theorem perform_cleanUp (tidy : Bool) :
    ((cleanUp tool p file tidy).perform h w).1 = .ok () ∧
      Chain w (cleanUpDeeds h tool p file tidy w)
        ((cleanUp tool p file tidy).perform h w).2 := by
  have hr : (removeOrWarn "Could not delete temporary file " file : Act Failure Unit).perform h w =
      (.ok (), cleared file h w) := Prod.ext (perform_removeOrWarn h w _ file).1 rfl
  have ha : World.Alike (removed file h w).after (cleared file h w) :=
    (perform_removeOrWarn h w _ file).2
  unfold cleanUp cleanUpDeeds
  rw [perform_bind_of_ok hr]
  cases tidy with
  | false => exact ⟨rfl, .single (.refl w) ha⟩
  | true =>
    simp only [if_true]
    rw [perform_bind, perform_attempt]
    unfold asked ofStep
    dsimp only
    rcases (ask tool p.directory .tidy).perform h (cleared file h w) with ⟨r, u⟩
    cases r with
    | ok x => exact ⟨rfl, .next (.refl w) (.single ha (.refl u))⟩
    | error e => exact ⟨rfl, .next (.refl w) (.single ha (u.alike_record rfl))⟩

/-- The deeds of removing what a failed build left behind. -/
def strayDeeds (w : World) : List Deed :=
  if w.view.exists? artifact then [removed artifact h w] else []

theorem perform_removeStray :
    ((removeStray artifact).perform h w).1 = .ok () ∧
      Chain w (strayDeeds h artifact w) ((removeStray artifact).perform h w).2 := by
  unfold removeStray strayDeeds
  rw [perform_bind_of_ok (perform_view _ _)]
  split
  · exact ⟨(perform_removeOrWarn h w _ artifact).1, chain_removeOrWarn h w _ artifact⟩
  · exact ⟨rfl, .done (.refl w)⟩

end Injection

/-! ## Running the artifact -/

namespace Artifact

variable (h : Host) (path directory symbol : String) (w : World)

/-- The run of the artifact for a symbol. -/
def firstDeed (w : World) : Deed :=
  ran path directory symbol (w.nextSuffix h) h { w with drawn := w.drawn + 1 }

/-- The deeds of running the artifact and removing its answer, if it gave one. -/
def executeDeeds (w : World) : List Deed :=
  let answer := resultPath h.tempDir (w.nextSuffix h)
  let run := firstDeed h path directory symbol w
  run ::
    if run.succeeded && (run.after.view.readText answer).toBool then [removed answer h run.after]
    else []

theorem chain_executeDeeds :
    Chain w (executeDeeds h path directory symbol w)
      ((execute path directory symbol).perform h w).2 := by
  refine .next ⟨rfl, rfl⟩ ?_
  unfold execute
  rw [perform_bind_of_ok (perform_read _ _), perform_bind_of_ok (perform_drawSuffix _ _),
    perform_bind, perform_mapError]
  unfold firstDeed ran ofStep
  dsimp only
  rcases (launch (runFor path directory symbol (resultPath h.tempDir (w.nextSuffix h)))).perform h
    { w with drawn := w.drawn + 1 } with ⟨r, u⟩
  cases r with
  | error fault => exact .done (.refl u)
  | ok outcome =>
    dsimp only [Except.mapError]
    rw [perform_bind_of_ok (perform_view _ _)]
    cases u.view.readText (resultPath h.tempDir (w.nextSuffix h)) with
    | error fault => exact .done (.refl u)
    | ok text =>
      dsimp only [Except.toBool]
      rw [perform_bind_of_ok (Prod.ext (perform_removeOrWarn h u _ _).1 rfl)]
      have hr := Injection.chain_removeOrWarn (ε := SymbolError) h u "Could not delete "
        (resultPath h.tempDir (w.nextSuffix h))
      cases Envelope.parse text with
      | none => exact hr
      | some e => exact hr

theorem succeeded_of_execute {e : Envelope}
    (he : ((execute path directory symbol).perform h w).1 = .ok e) :
    (firstDeed h path directory symbol w).succeeded = true := by
  unfold execute at he
  rw [perform_bind_of_ok (perform_read _ _), perform_bind_of_ok (perform_drawSuffix _ _),
    perform_bind, perform_mapError] at he
  unfold firstDeed ran ofStep
  dsimp only at he ⊢
  rcases hl : (launch (runFor path directory symbol
    (resultPath h.tempDir (w.nextSuffix h)))).perform h { w with drawn := w.drawn + 1 } with ⟨r, u⟩
  rw [hl] at he
  cases r with
  | error fault => cases he
  | ok outcome => rfl

theorem perform_discard {ε : Type} :
    ((discard path : Act ε Unit).perform h w).1 = .ok () ∧
      Chain w [removed path h w] ((discard path : Act ε Unit).perform h w).2 :=
  ⟨(perform_removeOrWarn h w _ path).1, Injection.chain_removeOrWarn h w _ path⟩

/-- The deeds of loading the artifact. -/
def loadDeeds (w : World) : List Deed :=
  executeDeeds h path directory tableSymbol w ++
    match loaded path ((execute path directory tableSymbol).perform h w).1 with
    | .ok _ => []
    | .error _ => [removed path h ((execute path directory tableSymbol).perform h w).2]

theorem perform_load :
    (load path directory).perform h w =
      match loaded path ((execute path directory tableSymbol).perform h w).1 with
      | .ok symbols =>
        (.ok ⟨path, directory, symbols⟩, ((execute path directory tableSymbol).perform h w).2)
      | .error e =>
        (.error e, ((discard path : Act SymbolError Unit).perform h
          ((execute path directory tableSymbol).perform h w).2).2) := by
  unfold load
  rw [perform_bind, perform_attempt]
  dsimp only
  cases loaded path ((execute path directory tableSymbol).perform h w).1 with
  | ok symbols => rfl
  | error e =>
    dsimp only
    rw [perform_bind_of_ok (Prod.ext (perform_discard h path _).1 rfl)]
    rfl

theorem chain_loadDeeds :
    Chain w (loadDeeds h path directory w) ((load path directory).perform h w).2 := by
  refine (chain_executeDeeds h path directory tableSymbol w).append ?_
  rw [perform_load]
  cases loaded path ((execute path directory tableSymbol).perform h w).1 with
  | ok symbols => exact .done (.refl _)
  | error e => exact (perform_discard h path _).2

end Artifact
end Graft
