-- Rehearsals that come to their end. On a stage where no program fails, the
-- build tool is found and does what it is asked, the artifact is loaded with
-- the table that the stage gives, and the symbols in the table can be bound
-- and called. A run of the artifact leaves the files as they were.
import Graft.Proofs.Refusing
import Graft.Proofs.Stages

namespace Graft

open Act Deed Files

/-! ## Paths in a tree that gains files -/

namespace Files

variable {s t : Store} {v : View} {d q : Place} {path name : String}

/-- Files that come and go take no directory away. -/
theorem Store.SameWays.place (hw : s.SameWays t) {cwd : Place}
    (h : s.place cwd true path = .ok d) (hd : s.at? d = some .directory) :
    t.place cwd true path = .ok d ∧ t.at? d = some .directory := by
  have hat : t.at? d = some .directory := by
    refine Store.at?_of_way ?_
    rw [← hw d]
    simp [Store.way, hd]
  refine ⟨?_, hat⟩
  unfold Store.place at h ⊢
  split at h
  · cases h
  · rename_i hempty
    rw [if_neg hempty]
    split at h
    · cases h
    · rename_i p hwalk
      have hp : p = d := by
        split at h
        · split at h
          · cases h
          · exact Except.ok.inj h
        · exact Except.ok.inj h
      subst hp
      rw [Store.walk_of_sameWays hw hwalk]
      dsimp only
      rw [hat]

/-- Where a file can stand, links at the end of the path do not matter. -/
theorem View.Leads.place (hq : v.Leads path q) (hn : Path.EndsIn path name)
    (ho : v.store.IsOpen q) (follow : Bool) : v.store.place v.cwd follow path = .ok q := by
  unfold View.Leads at hq
  rw [Store.place_of_endsIn hn] at hq ⊢
  exact Store.walk_follow hq ho follow

theorem View.Has.find {e : Entry} (hq : v.Has path q (some e)) (hn : Path.EndsIn path name)
    (ho : v.store.IsOpen q) : v.find path = .ok e := by
  rw [hq.1.find hn ho, hq.2]
  rfl

/-- A file that is put where the path leads stands there. -/
theorem View.Has.put (hq : v.Has path q none) (hn : Path.EndsIn path name) (bytes : List UInt8)
    (x : Bool) : View.Has ⟨v.store.put q (.file bytes x), v.cwd⟩ path q (some (.file bytes x)) :=
  ⟨hq.1.of_sameWays hn (Store.sameWays_put _ _ hq.offers.2), Store.at?_put_self (hq.1.ne_root hn)⟩

/-- A file that is put in another place changes nothing. -/
theorem View.Has.put_of_ne {e : Option Entry} {p : Place} (hq : v.Has path q e)
    (hn : Path.EndsIn path name) (ho : v.store.IsOpen p) (hne : q ≠ p) (bytes : List UInt8)
    (x : Bool) : View.Has ⟨v.store.put p (.file bytes x), v.cwd⟩ path q e :=
  ⟨hq.1.of_sameWays hn (Store.sameWays_put _ _ ho), (Store.at?_put_of_ne hne).trans hq.2⟩

theorem View.Has.erase_of_ne {e : Option Entry} {p : Place} (hq : v.Has path q e)
    (hn : Path.EndsIn path name) (ho : v.store.IsOpen p) (hne : q ≠ p) :
    View.Has ⟨v.store.erase p, v.cwd⟩ path q e :=
  ⟨hq.1.of_sameWays hn (Store.sameWays_erase ho), (Store.at?_erase_of_ne hne).trans hq.2⟩

theorem Store.isOpen_of_file {p : Place} {bytes : List UInt8} {x : Bool}
    (h : s.at? p = some (.file bytes x)) : s.IsOpen p := Store.isOpen_iff.mpr (.inr ⟨bytes, x, h⟩)

end Files

/-- A file that can be removed is gone, and nothing is reported. -/
theorem Act.perform_removeOrWarn_of_has {ε : Type} {h : Host} {w : World} {path : String}
    {q : Place} {bytes : List UInt8} {x : Bool} (hr : ∀ n, h.refusesRemoval n path = none)
    (hq : w.view.Has path q (some (.file bytes x))) (complaint : String) :
    ∃ u, (removeOrWarn complaint path : Act ε Unit).perform h w = (.ok (), u) ∧
      u.view = ⟨w.store.erase q, w.cwd⟩ := by
  obtain ⟨-, hremoved⟩ := perform_removeFile_of_at? h w hr hq.1 hq.2 (by simp)
  obtain ⟨hok, halike⟩ := perform_removeOrWarn (ε := ε) h w complaint path
  exact ⟨_, Prod.ext hok rfl, halike.view.trans hremoved⟩

/-! ## The programs of a stage -/

namespace Rehearsal.Stage

variable {st : Stage} {binary directory : String} {b d : Place} {v : View}

/-- The tree is set for a run: the first place where the build tool is looked for holds it, the
directory of the project is there, and so is room for each answer. -/
structure IsSet (st : Stage) (binary directory : String) (b d : Place) (v : View) : Prop where
  name : Path.IsName binary
  tool : ∃ base more, st.searchPath = base :: more ∧ Path.isAbsolute base = true ∧
    v.Has (Path.join base binary) b (some (.file toolBytes true))
  directory : v.store.place v.cwd true directory = .ok d
  isDirectory : v.store.at? d = some .directory
  answers : ∀ s, ∃ c, v.Has (Artifact.resultPath st.tempDir s) c none

/-- A file that comes or goes leaves the tree set, unless it is the build tool or an answer. -/
theorem IsSet.of_sameWays (h : st.IsSet binary directory b d v) {s : Store}
    (hw : v.store.SameWays s) (hb : s.at? b = v.store.at? b)
    (hanswers : ∀ suffix c, v.Leads (Artifact.resultPath st.tempDir suffix) c →
      v.store.at? c = none → s.at? c = none) : st.IsSet binary directory b d ⟨s, v.cwd⟩ := by
  obtain ⟨base, more, hfirst, habsolute, htool⟩ := h.tool
  obtain ⟨hplace, hd⟩ := hw.place h.directory h.isDirectory
  refine ⟨h.name, ⟨base, more, hfirst, habsolute, ?_, hb.trans htool.2⟩, hplace, hd, ?_⟩
  · exact htool.1.of_sameWays (Path.endsIn_join h.name base) hw
  · intro suffix
    obtain ⟨c, hc⟩ := h.answers suffix
    exact ⟨c, hc.1.of_sameWays (Artifact.endsIn_resultPath _ _) hw, hanswers suffix c hc.1 hc.2⟩

/-- An answer never stands where another temporary file does. -/
theorem ne_of_answer {path name : String} {p c : Place} {s : Suffix} (hn : Path.EndsIn path name)
    (hne : ∀ s, name ≠ Artifact.resultName s) (hp : v.Leads path p)
    (hc : v.Leads (Artifact.resultPath st.tempDir s) c) : c ≠ p :=
  hp.ne hn (hc.getLast? (Artifact.endsIn_resultPath _ _)) (hne s)

/-- A temporary file that is put where nothing stands leaves the tree set. -/
theorem IsSet.put {path name : String} {p : Place} (h : st.IsSet binary directory b d v)
    (hn : Path.EndsIn path name) (hne : ∀ s, name ≠ Artifact.resultName s) (hp : v.Has path p none)
    (bytes : List UInt8) (x : Bool) :
    st.IsSet binary directory b d ⟨v.store.put p (.file bytes x), v.cwd⟩ := by
  obtain ⟨base, more, -, -, htool⟩ := h.tool
  refine h.of_sameWays (Store.sameWays_put _ _ hp.offers.2) (Store.at?_put_of_ne ?_) ?_
  · rintro rfl
    cases hp.2.symm.trans htool.2
  · intro s c hc hnone
    rw [Store.at?_put_of_ne (ne_of_answer hn hne hp.1 hc)]
    exact hnone

/-- So does a file that goes, unless it can be run. -/
theorem IsSet.erase {q : Place} {bytes : List UInt8} (h : st.IsSet binary directory b d v)
    (hq : v.store.at? q = some (.file bytes false)) :
    st.IsSet binary directory b d ⟨v.store.erase q, v.cwd⟩ := by
  obtain ⟨base, more, -, -, htool⟩ := h.tool
  refine h.of_sameWays (Store.sameWays_erase (Store.isOpen_of_file hq))
    (Store.at?_erase_of_ne ?_) ?_
  · rintro rfl
    cases hq.symm.trans htool.2
  · intro s c _ hnone
    rw [Store.at?_erase_of_ne ?_]
    · exact hnone
    · rintro rfl
      cases hq.symm.trans hnone

theorem viewIn_of_place (hp : v.store.place v.cwd true directory = .ok d)
    (hd : v.store.at? d = some .directory) : viewIn v directory = .ok ⟨v.store, d⟩ := by
  unfold viewIn
  rw [hp]
  dsimp only
  rw [hd]

/-- The build tool is found, and can be run in the directory. -/
theorem IsSet.finds (h : st.IsSet binary directory b d v) :
    ∃ program, Toolchain.findProgram st.searchPath v binary = some program ∧
      programAt ⟨v.store, d⟩ program = .ok .tool := by
  obtain ⟨base, more, hfirst, habsolute, htool⟩ := h.tool
  have hn := Path.endsIn_join h.name base
  have hfind := htool.find hn (Store.isOpen_of_file htool.2)
  have hempty : binary.isEmpty = false := by
    rw [Bool.eq_false_iff]
    intro he
    rw [String.isEmpty_iff.mp he] at h
    exact h.name.nonempty rfl
  have hslash : binary.toList.contains '/' = false := by simpa using h.name.no_slash
  have hrun : Toolchain.canRun v (Path.join base binary) = true := by
    unfold Toolchain.canRun
    rw [hfind]
  have hinside : View.find ⟨v.store, d⟩ (Path.join base binary) = .ok (.file toolBytes true) := by
    rw [← hfind]
    exact View.find_of_isAbsolute
      ((Path.isAbsolute_join (Path.isAbsolute_of_name h.name) base).trans habsolute) _ _ _
  refine ⟨Path.join base binary, ?_, ?_⟩
  · unfold Toolchain.findProgram
    rw [hempty, hslash, hfirst]
    simp [hrun]
  · unfold programAt
    rw [hinside]
    simp

/-! ## The build tool -/

/-- The build tool never fails, and the build leaves the artifact of the stage. -/
structure Succeeds (st : Stage) : Prop where
  replies : ∀ verb, (st.replyTo verb).exit % 256 = 0
  product : st.product = .artifact

theorem Succeeds.isSuccess_tool (hst : st.Succeeds) (v : View) (l : Launch) :
    (st.outcome v l .tool).exit.isSuccess = true := by
  simp [outcome, ended, Exit.isSuccess, hst.replies]

/-- A program that is found in the directory runs as the stage says. -/
theorem launch_of_programAt {l : Launch} {pr : Program}
    (hp : v.store.place v.cwd true l.directory = .ok d) (hd : v.store.at? d = some .directory)
    (hpr : programAt ⟨v.store, d⟩ l.program = .ok pr) :
    st.launch l v = .ok (st.outcome ⟨v.store, d⟩ l pr) := by
  unfold launch
  rw [viewIn_of_place hp hd]
  dsimp only [bind, Except.bind]
  rw [hpr]
  rfl

theorem perform_launch {l : Launch} {o : Outcome} {w : World} (process : Nat)
    (h : st.launch l w.view = .ok o) :
    ∃ u, (Act.launch l).perform (st.host process) w = (.ok o, u) ∧ u.view = ⟨o.store, w.cwd⟩ := by
  have hhost : (st.host process).launch (w.record (.launched l)).journal.length l
      (w.record (.launched l)).view = .ok o := h
  refine ⟨{ w.record (.launched l) with store := o.store }, ?_, rfl⟩
  unfold Act.launch
  rw [perform_ofFunction]
  dsimp only
  rw [hhost]

/-- What a build tool that does not fail makes of the tree. -/
theorem perform_ask {t : Toolchain} (hst : st.Succeeds) (process : Nat) {w : World}
    (h : st.IsSet t.binary directory b d w.view) (c : ToolCall) :
    ∃ u, (Injection.ask t.tool directory c).perform (st.host process) w = (.ok (), u) ∧
      u.view = ⟨st.built ⟨w.store, d⟩ (t.arguments c), w.cwd⟩ := by
  obtain ⟨program, hfound, hprogram⟩ := h.finds
  obtain ⟨u, hlaunch, hu⟩ := perform_launch (w := w.record (.asked c)) process
    (launch_of_programAt (l := ⟨program, t.arguments c, directory, []⟩) h.directory h.isDirectory
      hprogram)
  refine ⟨u, ?_, hu⟩
  unfold Injection.ask Toolchain.tool Toolchain.run
  dsimp only
  rw [perform_bind_of_ok (perform_record _ _ _), perform_mapError,
    perform_bind_of_ok (perform_read _ _), perform_bind_of_ok (perform_view _ _),
    show (st.host process).searchPath = st.searchPath from rfl,
    show (w.record (.asked c)).view = w.view from rfl, hfound]
  dsimp only
  rw [perform_bind, perform_mapError, hlaunch]
  dsimp only [Except.mapError]
  rw [if_pos (hst.isSuccess_tool _ _)]
  rfl

/-- Only a build changes the tree. -/
theorem built_of_ne {arguments : List String} (h : verbOf arguments ≠ buildVerb) :
    st.built v arguments = v.store := by
  unfold built
  rw [if_neg (by simpa using h)]

/-- A build puts the artifact in its place. -/
theorem built_of_build (hst : st.Succeeds) (t : Toolchain) {output name : String} {a : Place}
    (habsolute : Path.isAbsolute output = true) (hn : Path.EndsIn output name)
    (ha : v.Has output a none) :
    st.built ⟨v.store, d⟩ (t.arguments (.build output)) =
      v.store.put a (.file artifactBytes true) := by
  have hverb : verbOf (t.arguments (.build output)) = buildVerb := rfl
  have hlast : (t.arguments (.build output)).getLast? = some output := by
    unfold Toolchain.arguments
    rw [List.getLast?_append]
    rfl
  have hplace : v.store.place d true output = .ok a := by
    rw [Store.place_of_isAbsolute habsolute v.store d v.cwd]
    exact ha.1.place hn ha.offers.2 true
  unfold built
  rw [if_pos (by rw [hverb]; rfl), hlast]
  unfold productBytes
  rw [hst.product]
  dsimp only
  unfold putProgram
  dsimp only
  rw [hplace]
  dsimp only
  rw [ha.2]

/-! ## The artifact -/

variable {artifact name symbol text : String} {a : Place} {exit : Nat}

theorem programAt_of_find {path : String} (h : v.find path = .ok (.file artifactBytes true)) :
    programAt v path = .ok .artifact := by
  have hne : (artifactBytes == toolBytes) = false := by decide +kernel
  unfold programAt
  rw [h]
  simp [hne]

/-- The artifact leaves its answer where nothing stands. -/
theorem answered_of_has {result : String} {c : Place} (habsolute : Path.isAbsolute result = true)
    (hn : Path.EndsIn result name) (hc : v.Has result c none)
    {environment : List (String × String)}
    (hlookup : lookup environment Artifact.resultVariable = result) :
    answered ⟨v.store, d⟩ environment ⟨some (View.encode text), exit⟩ =
      v.store.put c (.file (View.encode text) false) := by
  have hplace : v.store.place d true result = .ok c := by
    rw [Store.place_of_isAbsolute habsolute v.store d v.cwd]
    exact hc.1.place hn hc.offers.2 true
  unfold answered View.write
  rw [hlookup]
  dsimp only
  rw [hplace]
  dsimp only
  rw [hc.2]

/-- What the artifact of the stage does for a symbol leaves the files as they were, and gives
what the stage answers. -/
theorem perform_execute (process : Nat) {w : World} {e : Envelope}
    (h : st.IsSet binary directory b d w.view) (htemp : Path.isAbsolute st.tempDir = true)
    (habsolute : Path.isAbsolute artifact = true) (hn : Path.EndsIn artifact name)
    (ha : w.view.Has artifact a (some (.file artifactBytes true)))
    (hpart : st.partOf symbol = ⟨some (View.encode text), exit⟩)
    (hparse : Envelope.parse text = some e) :
    ∃ u, (Artifact.execute artifact directory symbol).perform (st.host process) w = (.ok e, u) ∧
      u.view = w.view := by
  have hresult := Artifact.endsIn_resultPath st.tempDir (w.nextSuffix (st.host process))
  have hrabsolute := Artifact.isAbsolute_resultPath htemp (w.nextSuffix (st.host process))
  obtain ⟨c, hc⟩ := h.answers (w.nextSuffix (st.host process))
  generalize hpath : Artifact.resultPath st.tempDir (w.nextSuffix (st.host process)) = result
    at hresult hrabsolute hc
  have hprogram : programAt ⟨w.store, d⟩ artifact = .ok .artifact := by
    refine programAt_of_find ?_
    rw [← ha.find hn (Store.isOpen_of_file ha.2)]
    exact View.find_of_isAbsolute habsolute _ _ _
  obtain ⟨u, hlaunch, hu⟩ := perform_launch (w := { w with drawn := w.drawn + 1 }) process
    (launch_of_programAt (l := Artifact.runFor artifact directory symbol result)
      h.directory h.isDirectory hprogram)
  have hview : u.view = ⟨w.view.store.put c (.file (View.encode text) false), w.view.cwd⟩ := by
    rw [hu]
    unfold outcome
    dsimp only
    rw [show st.partOf (lookup (Artifact.runFor artifact directory symbol result).environment
        Artifact.symbolVariable) = st.partOf symbol from rfl, hpart]
    exact congrArg (fun s => View.mk s w.cwd) (answered_of_has hrabsolute hresult hc rfl)
  have hfile : u.view.Has result c (some (.file (View.encode text) false)) := by
    rw [hview]
    exact hc.put hresult _ _
  have hread : u.view.readText result = .ok text :=
    View.readText_of_find (hfile.find hresult (Store.isOpen_of_file hfile.2))
  obtain ⟨z, hremove, hz⟩ := perform_removeOrWarn_of_has (ε := SymbolError)
    (h := st.host process) (fun _ => rfl) hfile "Could not delete "
  refine ⟨z, ?_, hz.trans ?_⟩
  · unfold Artifact.execute
    rw [perform_bind_of_ok (perform_read _ _), perform_bind_of_ok (perform_drawSuffix _ _)]
    dsimp only
    rw [show (st.host process).tempDir = st.tempDir from rfl, hpath, perform_bind,
      perform_mapError, hlaunch]
    dsimp only [Except.mapError]
    rw [perform_bind_of_ok (perform_view _ _), hread]
    dsimp only
    rw [perform_bind_of_ok hremove, hparse]
    rfl
  · rw [show u.store = _ from congrArg View.store hview,
      show u.cwd = _ from congrArg View.cwd hview, Store.erase_put hc.2]

/-- The artifact is loaded with the table that the stage gives. -/
theorem perform_load (process : Nat) {w : World} {e : Envelope}
    (h : st.IsSet binary directory b d w.view) (htemp : Path.isAbsolute st.tempDir = true)
    (habsolute : Path.isAbsolute artifact = true) (hn : Path.EndsIn artifact name)
    (ha : w.view.Has artifact a (some (.file artifactBytes true)))
    (hpart : st.partOf Artifact.tableSymbol = ⟨some (View.encode text), exit⟩)
    (hparse : Envelope.parse text = some e) (he : e.error = none) :
    ∃ u, (Artifact.load artifact directory).perform (st.host process) w =
        (.ok ⟨artifact, directory, e.symbols.getD []⟩, u) ∧ u.view = w.view := by
  obtain ⟨u, hu, hview⟩ := perform_execute process h htemp habsolute hn ha hpart hparse
  refine ⟨u, ?_, hview⟩
  rw [Artifact.perform_load, hu]
  unfold Artifact.loaded
  dsimp only
  rw [he]

/-! ## Building and cleaning up -/

theorem perform_addAll {t : Toolchain} (hst : st.Succeeds) (process : Nat) (ds : List Dependency)
    {w : World} (h : st.IsSet t.binary directory b d w.view) :
    ∃ u, (Injection.addAll t.tool directory ds).perform (st.host process) w = (.ok (), u) ∧
      u.view = w.view := by
  induction ds generalizing w with
  | nil => exact ⟨w, rfl, rfl⟩
  | cons x ds ih =>
    obtain ⟨u, hask, hu⟩ := perform_ask hst process (w := Injection.announced x w) h (.get x)
    have hverb : verbOf (t.arguments (.get x)) ≠ buildVerb := show "get" ≠ "build" by decide
    have hview : u.view = w.view := by
      rw [hu, built_of_ne hverb]
      rfl
    obtain ⟨z, hz, hzview⟩ := ih (w := u) (by rw [hview]; exact h)
    refine ⟨z, ?_, hzview.trans hview⟩
    rw [Injection.perform_addAll_cons, hask]
    exact hz

theorem perform_build {t : Toolchain} (hst : st.Succeeds) (process : Nat) (p : Project)
    (ds : List Dependency) {w : World} (h : st.IsSet t.binary p.directory b d w.view)
    (habsolute : Path.isAbsolute artifact = true) (hn : Path.EndsIn artifact name)
    (ha : w.view.Has artifact a none) :
    ∃ u, (Injection.build t.tool p ds artifact).perform (st.host process) w = (.ok (), u) ∧
      u.view = ⟨w.store.put a (.file artifactBytes true), w.cwd⟩ := by
  obtain ⟨u, hadd, hu⟩ := perform_addAll hst process ds h
  have hready : (Injection.ready p u).view = w.view := hu
  obtain ⟨z, hask, hz⟩ := perform_ask hst process (w := Injection.ready p u)
    (by rw [hready]; exact h) (.build artifact)
  refine ⟨z.entered .built, ?_, ?_⟩
  · rw [Injection.perform_build, hadd]
    dsimp only
    rw [hask]
  · have hstore : (Injection.ready p u).store = w.view.store := congrArg View.store hready
    have hcwd : (Injection.ready p u).cwd = w.cwd := congrArg View.cwd hready
    rw [hstore, hcwd, built_of_build hst t habsolute hn ha] at hz
    exact hz

/-- Cleaning up takes the injected file away, and nothing else. -/
theorem perform_cleanUp {t : Toolchain} (hst : st.Succeeds) (process : Nat) (p : Project)
    (tidy : Bool) {file : String} {q : Place} {bytes : List UInt8} {x : Bool} {w : World}
    (h : st.IsSet t.binary p.directory b d ⟨w.store.erase q, w.cwd⟩)
    (hq : w.view.Has file q (some (.file bytes x))) :
    ((Injection.cleanUp t.tool p file tidy).perform (st.host process) w).2.view =
      ⟨w.store.erase q, w.cwd⟩ := by
  obtain ⟨u, hremove, hview⟩ := perform_removeOrWarn_of_has (ε := Failure) (h := st.host process)
    (fun _ => rfl) hq "Could not delete temporary file "
  unfold Injection.cleanUp
  rw [perform_bind_of_ok hremove]
  cases tidy with
  | false => exact hview
  | true =>
    have hverb : verbOf (t.arguments .tidy) ≠ buildVerb := show "mod" ≠ "build" by decide
    obtain ⟨z, hask, hz⟩ := perform_ask hst process (w := u) (by rw [hview]; exact h) .tidy
    rw [built_of_ne hverb] at hz
    simp only [if_true]
    rw [perform_bind, perform_attempt, hask]
    exact hz.trans hview

end Rehearsal.Stage

/-! ## Whole rehearsals -/

open Rehearsal

/-- A run on a stage where no program fails, in a tree that is set for it, that comes to the
writing of its injected file. -/
structure Run.IsRehearsal (r : Run) (st : Stage) (process : Nat) (t : Toolchain) (b d a : Place) :
    Prop where
  host : r.host = st.host process
  tool : r.tool = t.tool
  absolute : Path.isAbsolute st.tempDir = true
  succeeds : st.Succeeds
  set : st.IsSet t.binary r.project.directory b d r.start.view
  vacant : r.start.view.Has r.artifact a none
  written : r.HasWritten

namespace Run

variable {r : Run} {st : Stage} {process : Nat} {t : Toolchain} {b d a : Place}

theorem IsRehearsal.isAbsolute (h : r.IsRehearsal st process t b d a) :
    Path.isAbsolute r.artifact = true := by
  unfold artifact
  rw [h.host]
  exact Injection.isAbsolute_artifactPath h.absolute _

/-- Once the injected file is written, the tree is still set. -/
theorem IsRehearsal.prepared (h : r.IsRehearsal st process t b d a) :
    st.IsSet t.binary r.project.directory b d r.prepared.2.view ∧
      r.prepared.2.view.Has r.artifact a none := by
  obtain ⟨s, hs⟩ := h.written
  obtain ⟨rfl, text, q, -, hq, he, hv⟩ := Injection.prepare_ok _ _ _ _ hs
  have hfile : r.start.view.Has r.file q none := ⟨hq, he⟩
  have hne : a ≠ q := hq.ne r.endsIn_file (h.vacant.1.getLast? r.endsIn_artifact)
    (Injection.fileName_ne_artifactName _ _)
  rw [Run.prepared, hv]
  exact ⟨h.set.put r.endsIn_file (Injection.fileName_ne_resultName _) hfile _ _,
    h.vacant.put_of_ne r.endsIn_artifact hfile.offers.2 hne _ _⟩

/-- Nothing fails up to the loading: the artifact is in its place, and the injected file is
gone. -/
theorem IsRehearsal.cleaned (h : r.IsRehearsal st process t b d a) :
    r.built.1 = .ok () ∧ st.IsSet t.binary r.project.directory b d r.cleaned.view ∧
      r.cleaned.view.Has r.artifact a (some (.file Stage.artifactBytes true)) := by
  obtain ⟨hset, hvacant⟩ := h.prepared
  obtain ⟨text, q, -, -, hfile, -⟩ := Run.written h.written
  have hne : a ≠ q := hfile.1.ne r.endsIn_file (hvacant.1.getLast? r.endsIn_artifact)
    (Injection.fileName_ne_artifactName _ _)
  obtain ⟨u, hbuild, hu⟩ := Stage.perform_build h.succeeds process r.project r.missing hset
    h.isAbsolute r.endsIn_artifact hvacant
  have hbuiltSet : st.IsSet t.binary r.project.directory b d u.view := by
    rw [hu]
    exact hset.put r.endsIn_artifact (Injection.artifactName_ne_resultName _) hvacant _ _
  have hbuiltFile : u.view.Has r.file q (some (.file (View.encode text) false)) := by
    rw [hu]
    exact hfile.put_of_ne r.endsIn_file hvacant.offers.2 hne.symm _ _
  have hartifact : u.view.Has r.artifact a (some (.file Stage.artifactBytes true)) := by
    rw [hu]
    exact hvacant.put r.endsIn_artifact _ _
  have herased := hbuiltSet.erase hbuiltFile.2
  have hclean := Stage.perform_cleanUp h.succeeds process r.project (!r.missing.isEmpty)
    (w := u.entered .cleanup) herased hbuiltFile
  rw [← h.tool, ← h.host] at hbuild hclean
  have hcleaned : r.cleaned.view = ⟨u.view.store.erase q, u.view.cwd⟩ := by
    unfold Run.cleaned Injection.afterCleanUp Injection.afterBuild
    rw [hbuild]
    exact hclean
  rw [hcleaned]
  exact ⟨congrArg Prod.fst hbuild, herased,
    hartifact.erase_of_ne r.endsIn_artifact (Store.isOpen_of_file hbuiltFile.2) hne⟩

/-- The run gives the artifact with the table of the stage, and the tree is set for its
calls. -/
theorem IsRehearsal.result (h : r.IsRehearsal st process t b d a) {text : String} {exit : Nat}
    {e : Envelope} (hpart : st.partOf Artifact.tableSymbol = ⟨some (View.encode text), exit⟩)
    (hparse : Envelope.parse text = some e) (he : e.error = none) :
    r.result = .ok ⟨r.artifact, r.project.directory, e.symbols.getD []⟩ ∧
      st.IsSet t.binary r.project.directory b d r.after.view ∧
      r.after.view.Has r.artifact a (some (.file Stage.artifactBytes true)) := by
  obtain ⟨hbuilt, hset, hartifact⟩ := h.cleaned
  obtain ⟨hresult, halike⟩ := outcome_of_build h.written hbuilt
  obtain ⟨u, hload, hu⟩ := Stage.perform_load process hset h.absolute h.isAbsolute
    r.endsIn_artifact hartifact hpart hparse he
  rw [← h.host] at hload
  rw [hload] at hresult halike
  have hview : r.after.view = r.cleaned.view := halike.view.trans hu
  rw [hview]
  exact ⟨hresult, hset, hartifact⟩

end Run

/-- A symbol in the table with the type that is asked for can be bound. -/
theorem Artifact.bind_of_find? {A : Artifact} {name : String} {signature : Signature}
    (h : A.symbols.find? (fun s => s.1 == name) = some (name, signature.typeText)) :
    A.bind name signature = pure ⟨A, name, signature⟩ := by
  unfold bind mismatch? typeOf
  rw [h]
  simp

/-- A rehearsal comes to its end: a symbol that the table of the stage lists with the type that is
asked for is bound, and each call of it gives what the stage answers and leaves the files as they
are. -/
theorem a_rehearsal_gives_what_the_stage_answers {r : Run} {st : Stage} {process : Nat}
    {t : Toolchain} {b d a : Place} (h : r.IsRehearsal st process t b d a) {table : String}
    {exit : Nat} {e : Envelope}
    (hpart : st.partOf Artifact.tableSymbol = ⟨some (View.encode table), exit⟩)
    (hparse : Envelope.parse table = some e) (he : e.error = none) {name : String}
    {signature : Signature}
    (hname : (e.symbols.getD []).find? (fun s => s.1 == name) = some (name, signature.typeText)) :
    ∃ f u, (Injection.injectSymbol r.tool r.project r.plan name signature).perform r.host r.start =
        (.ok f, u) ∧ f = ⟨⟨r.artifact, r.project.directory, e.symbols.getD []⟩, name, signature⟩ ∧
      u.view = r.after.view ∧
      ∀ w text exit answer, w.view = u.view →
        st.partOf name = ⟨some (View.encode text), exit⟩ → Envelope.parse text = some answer →
          (f.call.perform r.host w).1 = BoundSymbol.resultOf name answer ∧
            (f.call.perform r.host w).2.view = w.view := by
  obtain ⟨hresult, hset, hartifact⟩ := h.result hpart hparse he
  have hinject : (Injection.inject r.tool r.project r.plan).perform r.host r.start =
      (.ok ⟨r.artifact, r.project.directory, e.symbols.getD []⟩, r.after) := Prod.ext hresult rfl
  refine ⟨_, { World.entered .symbolResolved { r.after with
    context := r.after.context.onSymbol name } with context := r.after.context }, ?_, rfl, rfl, ?_⟩
  · unfold Injection.injectSymbol
    rw [perform_bind_of_ok hinject, perform_within, Artifact.bind_of_find? hname]
    rfl
  · intro w text exit answer hw hanswer hread
    have hview : w.view = r.after.view := hw
    rw [← hview] at hset hartifact
    obtain ⟨z, hexecute, hz⟩ := Stage.perform_execute process hset h.absolute h.isAbsolute
      r.endsIn_artifact hartifact hanswer hread
    rw [← h.host] at hexecute
    unfold BoundSymbol.call
    dsimp only
    rw [perform_bind_of_ok hexecute]
    exact ⟨rfl, hz⟩

/-! ## The shop on a stage -/

namespace Sample

/-- A stage on which nothing fails. -/
def stage : Stage := ⟨"/tmp", ["/bin"], [], .artifact, []⟩

def stageTool : Toolchain := ⟨"go", ""⟩

/-- The shop, its manifest and the build tool of the stage. -/
def furnished : World :=
  ⟨⟨[(["shop"], .directory),
      (["shop", "go.mod"], .file (View.encode manifestText) false), (["bin"], .directory),
      (["bin", "go"], .file Stage.toolBytes true), (["tmp"], .directory)]⟩,
    [], none, .empty, 0, []⟩

/-- A plan for the shop that is played on the stage. -/
def playing (plan : Plan) (w : World) : Run := ⟨stageTool.tool, project, plan, stage.host 7, w⟩

theorem has_furnished {dir base name : String} (hdir : dir ∈ ["shop", "bin", "tmp"])
    (hparts : Path.parts base = [dir]) (habsolute : Path.isAbsolute base = true)
    (hn : Path.IsName name) {e : Option Entry} (he : furnished.store.at? [dir, name] = e)
    (ho : furnished.store.IsOpen [dir, name]) :
    furnished.view.Has (Path.join base name) [dir, name] e := by
  have hup : dir ≠ ".." := by
    rintro rfl
    simp at hdir
  have hd : furnished.store.at? [dir] = some .directory := by
    simp only [List.mem_cons, List.not_mem_nil, or_false] at hdir
    rcases hdir with rfl | rfl | rfl <;> simp [Store.at?, furnished]
  have hpath : Path.parts (Path.join base name) = [dir, name] := by
    rw [Path.parts_join_of_isName hn, hparts]
    rfl
  exact ⟨View.leads_of_parts (Path.endsIn_join hn base)
    ((Path.isAbsolute_join (Path.isAbsolute_of_name hn) base).trans habsolute) hpath hup hd ho, he⟩

/-- There is room for every file in the temporary directory. -/
theorem vacant_furnished {name : String} (hn : Path.IsName name) :
    furnished.view.Has (Path.join stage.tempDir name) ["tmp", name] none := by
  have hnone : furnished.store.at? ["tmp", name] = none := by simp [Store.at?, furnished]
  exact has_furnished (by simp) (by decide) (by decide) hn hnone (Store.isOpen_iff.mpr (.inl hnone))

theorem has_file_furnished (s : Suffix) :
    furnished.view.Has (Injection.filePath project s) ["shop", Injection.fileName s] none := by
  have hne : "go.mod" ≠ Injection.fileName s := by
    intro h
    have ht := Injection.take_fileName s
    rw [← h] at ht
    exact absurd ht (by decide)
  have hnone : furnished.store.at? ["shop", Injection.fileName s] = none := by
    simp [Store.at?, furnished, hne]
  exact has_furnished (by simp) (by decide) (by decide) (Injection.isName_fileName s) hnone
    (Store.isOpen_iff.mpr (.inl hnone))

theorem at?_shop_furnished : furnished.store.at? ["shop"] = some .directory := by
  simp [Store.at?, furnished]

theorem isSet_furnished :
    stage.IsSet stageTool.binary project.directory ["bin", "go"] ["shop"] furnished.view := by
  have hgo : Path.IsName "go" := ⟨by decide, by decide, by decide, by decide⟩
  have hat : furnished.store.at? ["bin", "go"] = some (.file Stage.toolBytes true) := by
    simp [Store.at?, furnished]
  refine ⟨hgo, ⟨"/bin", [], rfl, by decide, ?_⟩, place_directory at?_shop_furnished,
    at?_shop_furnished, fun s => ⟨_, vacant_furnished (Artifact.isName_resultName s)⟩⟩
  exact has_furnished (by simp) (by decide) (by decide) hgo hat (Store.isOpen_of_file hat)

/-- A plan that can be filled is played to its end. -/
theorem isRehearsal_playing {plan : Plan}
    (hsource : ∃ text, Injection.source project plan = .ok text) {w : World}
    (hw : w.view = furnished.view) :
    (playing plan w).IsRehearsal stage 7 stageTool ["bin", "go"] ["shop"]
      ["tmp", Injection.artifactName (playing plan w).suffix] := by
  have hfiles : Scan.sourceFiles furnished.view project.directory = .ok [] :=
    sourceFiles_of_namesIn (s := furnished.store) at?_shop_furnished
      (show _ = ["go.mod"] by simp [Store.namesIn, furnished, Store.nameIn?]) (by decide +kernel)
  have hcheck : Injection.checkRoot furnished.view project = .ok () := by
    unfold Injection.checkRoot Scan.packageName
    rw [hfiles]
    rfl
  obtain ⟨text, hsource⟩ := hsource
  refine ⟨rfl, rfl, by decide, ⟨fun _ => rfl, rfl⟩, ?_, ?_, ?_⟩
  · show stage.IsSet _ _ _ _ w.view
    rw [hw]
    exact isSet_furnished
  · show w.view.Has _ _ _
    rw [hw]
    exact vacant_furnished (Injection.isName_artifactName _)
  · have hview : (playing plan w).opened.view = furnished.view := hw
    rw [← hview] at hcheck
    have hfile : (playing plan w).opened.view.Has (playing plan w).file
        ["shop", Injection.fileName (playing plan w).suffix] none := by
      rw [hview]
      exact has_file_furnished (playing plan w).suffix
    exact ⟨_, Injection.prepare_ok_of (stage.host 7) (playing plan w).opened project plan hcheck
      hsource hfile fun _ => rfl⟩

/-- The symbols that the artifact of the stage lists. -/
def tableText : String :=
  "\x7b\"symbols\":\x7b\"Migrate\":\"func() error\",\"Seed\":\"func() error\"," ++
    "\"DBClear\":\"func() error\",\"GenerateOpenAPI\":\"func() ([]uint8, error)\"\x7d\x7d"

def table : Envelope :=
  ⟨none, none, some [("DBClear", "func() error"), ("GenerateOpenAPI", "func() ([]uint8, error)"),
    ("Migrate", "func() error"), ("Seed", "func() error")]⟩

theorem partOf_table : stage.partOf Artifact.tableSymbol = ⟨some (View.encode tableText), 0⟩ := by
  rfl

theorem parse_tableText : Envelope.parse tableText = some table := by decide +kernel

def descriptionText : String := "\x7b\"data\":\"eyJvcGVuYXBpIjoiMy4wLjAifQ==\"\x7d"

theorem partOf_description :
    stage.partOf "GenerateOpenAPI" = ⟨some (View.encode descriptionText), 0⟩ := by
  rfl

theorem parse_descriptionText :
    Envelope.parse descriptionText = some ⟨some "eyJvcGVuYXBpIjoiMy4wLjAifQ==", none, none⟩ := by
  decide +kernel

theorem resultOf_description :
    BoundSymbol.resultOf "GenerateOpenAPI" ⟨some "eyJvcGVuYXBpIjoiMy4wLjAifQ==", none, none⟩ =
      .ok (View.encode "\x7b\"openapi\":\"3.0.0\"\x7d") :=
  eq_ok_of_toOption (by decide +kernel)

end Sample
end Graft
