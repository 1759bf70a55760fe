-- What goes wrong while an injection cleans up is only reported. It does not
-- change what the run comes to: the first failure of the build as it is, or
-- what loading the artifact gives. So two runs that differ only in how their
-- clean-up went have the same result.
import Graft.Proofs.Answers
import Graft.Proofs.Asking
import Graft.Proofs.Lifetime

namespace Graft

open Act Deed Files Injection

/-! ## Two hosts that refuse different removals -/

/-- The host with other refusals to remove files. -/
def Host.refusing (h : Host) (refuses : Nat → String → Option Fault) : Host :=
  { h with refusesRemoval := refuses }

/-- The step came to the same in the same world, or failed in the same way. -/
def ComesToTheSame {ε α : Type} (z z' : Except ε α × World) : Prop :=
  z' = z ∨ ∃ e, z.1 = .error e ∧ z'.1 = .error e

namespace ComesToTheSame

variable {ε α β : Type} {a : Act ε α} {f : α → Act ε β} {h h' : Host} {w : World}

theorem after (ha : a.perform h' w = a.perform h w)
    (hf : ∀ x u, ComesToTheSame ((f x).perform h u) ((f x).perform h' u)) :
    ComesToTheSame ((a >>= f).perform h w) ((a >>= f).perform h' w) := by
  rw [perform_bind, perform_bind, ha]
  rcases a.perform h w with ⟨e | x, u⟩
  · exact .inl rfl
  · exact hf x u

theorem before (ha : ComesToTheSame (a.perform h w) (a.perform h' w))
    (hf : ∀ x u, (f x).perform h' u = (f x).perform h u) :
    ComesToTheSame ((a >>= f).perform h w) ((a >>= f).perform h' w) := by
  rw [perform_bind, perform_bind]
  rcases ha with ha | ⟨e, he, he'⟩
  · rw [ha]
    rcases a.perform h w with ⟨e | x, u⟩
    · exact .inl rfl
    · exact .inl (hf x u)
  · generalize a.perform h w = z at he ⊢
    generalize a.perform h' w = z' at he' ⊢
    rcases z with ⟨r, u⟩
    rcases z' with ⟨r', u'⟩
    cases he
    cases he'
    exact .inr ⟨e, rfl, rfl⟩

end ComesToTheSame

namespace Injection

variable (h : Host) (refuses : Nat → String → Option Fault) (w : World) (p : Project) (plan : Plan)

theorem warnLater_refusing (paths : List String) :
    (warnLater paths).perform (h.refusing refuses) w = (warnLater paths).perform h w := by
  induction paths generalizing w with
  | nil => rfl
  | cons path more ih =>
    unfold warnLater
    rw [perform_bind_of_ok (perform_warn _ _ _), perform_bind_of_ok (perform_warn _ _ _), ih]

/-- A part of the injected file that cannot be removed does not change the failure. -/
theorem writeFile_refusing (path text : String) :
    ComesToTheSame ((writeFile path text).perform h w)
      ((writeFile path text).perform (h.refusing refuses) w) := by
  have hc : (createFile path (View.encode text)).perform (h.refusing refuses) w =
      (createFile path (View.encode text)).perform h w := rfl
  unfold writeFile
  rw [perform_bind, perform_bind, perform_attempt, perform_attempt, hc]
  rcases (createFile path (View.encode text)).perform h w with ⟨fault | _ | fault, u⟩
  · exact .inl rfl
  · exact .inl rfl
  · refine .inr ⟨.temporaryFile path fault, ?_, ?_⟩
    · dsimp only
      rw [perform_bind_of_ok (Prod.ext (perform_removeOrWarn h u _ path).1 rfl)]
      rfl
    · dsimp only
      rw [perform_bind_of_ok
        (Prod.ext (perform_removeOrWarn (h.refusing refuses) u _ path).1 rfl)]
      rfl

theorem prepare_refusing :
    ComesToTheSame ((prepare p plan).perform h w)
      ((prepare p plan).perform (h.refusing refuses) w) := by
  refine .after rfl fun v w => .after rfl fun _ w => .after rfl fun text w => ?_
  refine .after rfl fun _ w => .after rfl fun s w => .after rfl fun u w => ?_
  refine .after rfl fun paths w => ?_
  refine .after (warnLater_refusing h refuses w _) fun _ w => ?_
  exact .before (writeFile_refusing h refuses w _ _) fun _ _ => rfl

variable {h' : Host} {tool tool' : BuildTool} {directory : String}

theorem ask_same {c : ToolCall}
    (ht : ∀ w, (tool'.ask directory c).perform h' w = (tool.ask directory c).perform h w) :
    (ask tool' directory c).perform h' w = (ask tool directory c).perform h w := by
  unfold ask
  rw [perform_bind_of_ok (perform_record _ _ _), perform_bind_of_ok (perform_record _ _ _),
    perform_mapError, perform_mapError, ht]

theorem addAll_same
    (ht : ∀ d w, (tool'.ask directory (.get d)).perform h' w =
      (tool.ask directory (.get d)).perform h w) (ds : List Dependency) :
    (addAll tool' directory ds).perform h' w = (addAll tool directory ds).perform h w := by
  induction ds generalizing w with
  | nil => rfl
  | cons d ds ih =>
    rw [perform_addAll_cons, perform_addAll_cons, ask_same h _ (ht d)]
    rcases (ask tool directory (.get d)).perform h (announced d w) with ⟨e | x, u⟩
    · rfl
    · exact ih u

theorem build_same
    (ht : ∀ c w, c ≠ .tidy → (tool'.ask p.directory c).perform h' w =
      (tool.ask p.directory c).perform h w) (ds : List Dependency) (artifact : String) :
    (build tool' p ds artifact).perform h' w = (build tool p ds artifact).perform h w := by
  rw [perform_build, perform_build,
    addAll_same h w (fun d u => ht (.get d) u (by simp)) ds]
  rcases (addAll tool p.directory ds).perform h w with ⟨e | x, u⟩
  · rfl
  · dsimp only
    rw [ask_same h _ fun z => ht (.build artifact) z (by simp)]

end Injection

/-! ## What the build comes to -/

namespace Injection

variable (h : Host) (w : World) (tool : BuildTool) (p : Project)

/-- All deeds succeeded, or the last one was the first to fail. -/
theorem addAll_cases (directory : String) (ds : List Dependency) :
    (((addAll tool directory ds).perform h w).1 = .ok () ∧
        ∀ d ∈ getDeeds h tool directory ds w, d.succeeded = true) ∨
      ∃ before x u e, getDeeds h tool directory ds w =
          before ++ [asked tool directory (.get x) h u] ∧
        (∀ d ∈ before, d.succeeded = true) ∧
        ((ask tool directory (.get x)).perform h u).1 = .error e ∧
        ((addAll tool directory ds).perform h w).1 = .error e := by
  induction ds generalizing w with
  | nil => exact .inl ⟨rfl, by simp [getDeeds]⟩
  | cons x xs ih =>
    rw [perform_addAll_cons, getDeeds]
    rcases hd : (ask tool directory (.get x)).perform h (announced x w) with ⟨e | y, u⟩
    · right
      refine ⟨[], x, announced x w, e, ?_, by simp, ?_, rfl⟩
      · simp [asked, ofStep, hd, Except.toBool]
      · rw [hd]
    · have hs : (asked tool directory (.get x) h (announced x w)).succeeded = true := by
        simp [asked, ofStep, hd, Except.toBool]
      have hu : (asked tool directory (.get x) h (announced x w)).after = u := by
        simp [asked, ofStep, hd]
      simp only [hs, hu, if_true]
      rcases ih u with ⟨hok, hall⟩ | ⟨before, z, v, e, hds, hall, he, hr⟩
      · refine .inl ⟨hok, ?_⟩
        intro d hd
        rcases List.mem_cons.mp hd with rfl | hd
        · exact hs
        · exact hall d hd
      · right
        refine ⟨asked tool directory (.get x) h (announced x w) :: before, z, v, e, ?_, ?_, he, hr⟩
        · rw [hds, List.cons_append]
        · intro d hd
          rcases List.mem_cons.mp hd with rfl | hd
          · exact hs
          · exact hall d hd

theorem build_cases (ds : List Dependency) (artifact : String) :
    (((build tool p ds artifact).perform h w).1 = .ok () ∧
        ∀ d ∈ buildDeeds h tool p artifact ds w, d.succeeded = true) ∨
      ∃ before c u e, buildDeeds h tool p artifact ds w =
          before ++ [asked tool p.directory c h u] ∧
        (∀ d ∈ before, d.succeeded = true) ∧
        ((ask tool p.directory c).perform h u).1 = .error e ∧
        ((build tool p ds artifact).perform h w).1 = .error e := by
  rw [perform_build]
  unfold buildDeeds
  rcases addAll_cases h w tool p.directory ds with ⟨hok, hall⟩ | ⟨before, x, u, e, hds, hall, he, hr⟩
  · rcases hadd : (addAll tool p.directory ds).perform h w with ⟨r, u⟩
    rw [hadd] at hok
    cases hok
    dsimp only
    rcases hb : (ask tool p.directory (.build artifact)).perform h (ready p u) with ⟨e | y, z⟩
    · refine .inr ⟨_, .build artifact, ready p u, e, rfl, hall, ?_, rfl⟩
      rw [hb]
    · refine .inl ⟨rfl, ?_⟩
      intro d hd
      rcases List.mem_append.mp hd with hd | hd
      · exact hall d hd
      · rw [List.mem_singleton.mp hd]
        simp [asked, ofStep, hb, Except.toBool]
  · right
    rcases hadd : (addAll tool p.directory ds).perform h w with ⟨r, z⟩
    rw [hadd] at hr
    cases hr
    dsimp only
    rw [List.append_nil]
    exact ⟨before, .get x, u, e, hds, hall, he, rfl⟩

end Injection

/-! ## What cleaning up adds -/

namespace Injection

variable {ε ε' : Type} (h : Host) (w : World)

/-- The world after a step of the clean-up. If the step failed, a warning was added, and
nothing else. -/
def warned (text : ε → String) : Except ε Unit × World → World
  | (.ok _, u) => u
  | (.error e, u) => u.record (.said .warning (text e))

/-- A removal as a step of the clean-up. -/
def swept (complaint path : String) (w : World) : World :=
  warned (fun fault => complaint ++ path ++ ": " ++ fault.message) ((removeFile path).perform h w)

theorem perform_removeOrWarn_eq (complaint path : String) :
    (removeOrWarn complaint path : Act ε Unit).perform h w =
      (.ok (), swept h complaint path w) := by
  unfold removeOrWarn swept warned
  rw [perform_bind, perform_attempt]
  rcases (removeFile path).perform h w with ⟨fault | x, u⟩ <;> rfl

theorem perform_cleanUp_eq (tool : BuildTool) (p : Project) (file : String) (tidy : Bool) :
    (cleanUp tool p file tidy).perform h w =
      (.ok (),
       let u := swept h "Could not delete temporary file " file w
       if tidy then
         warned (fun e => "Could not tidy dependencies: " ++ Failure.message e)
           ((ask tool p.directory .tidy).perform h u)
       else u) := by
  unfold cleanUp
  rw [perform_bind_of_ok (perform_removeOrWarn_eq h w _ file)]
  cases tidy with
  | false => rfl
  | true =>
    simp only [if_true]
    rw [perform_bind, perform_attempt]
    dsimp only
    rcases (ask tool p.directory .tidy).perform h _ with ⟨e | x, u⟩ <;> rfl

theorem perform_removeStray_eq (artifact : String) :
    (removeStray artifact).perform h w =
      (.ok (), if w.view.exists? artifact then swept h "Could not delete " artifact w else w) := by
  unfold removeStray
  rw [perform_bind_of_ok (perform_view _ _)]
  split
  · exact perform_removeOrWarn_eq h w _ artifact
  · rfl

end Injection

/-! ## What a removal leaves at another path -/

namespace Files.View

variable {v : View} {path : String} {q : Place}

/-- What stands at the end of a path. A link there is not followed. -/
def stands? (v : View) (path : String) : Option Entry :=
  match v.store.place v.cwd false path with
  | .ok q => v.store.at? q
  | .error _ => none

theorem Leads.stands? (hq : v.Leads path q) : v.stands? path = v.store.at? q := by
  unfold View.stands?
  rw [hq]

theorem stands?_of_not_leads (h : ∀ q, ¬ v.Leads path q) : v.stands? path = none := by
  unfold View.stands?
  split
  · rename_i q hq
    exact absurd hq (h q)
  · rfl

end Files.View

theorem Deed.stands?_removed {path name other name' : String} (hn : Path.EndsIn path name)
    (ho : Path.EndsIn other name') (hne : name ≠ name') {h : Host} {w : World}
    (hl : w.view.HasNoLink other) :
    (removed other h w).after.view.stands? path = w.view.stands? path := by
  unfold removed ofStep
  dsimp only
  rcases Act.perform_removeFile_cases h w other with ⟨fault, -, hv⟩ | ⟨-, p, e, hp, he, hd, hv⟩
  · rw [hv]
  · have hw := Store.sameWays_erase (hl.isOpen hp he hd)
    rw [hv]
    by_cases hq : ∃ q, w.view.Leads path q
    · obtain ⟨q, hq⟩ := hq
      have hqp : q ≠ p := hp.ne ho (hq.getLast? hn) (Ne.symm hne)
      rw [hq.stands?]
      exact (hq.of_sameWays hn hw).stands?.trans (Store.at?_erase_of_ne hqp)
    · have hafter : ∀ q, ¬ View.Leads ⟨w.store.erase p, w.cwd⟩ path q :=
        fun q hl => hq ⟨q, hl.of_sameWays hn hw.symm⟩
      rw [View.stands?_of_not_leads hafter, View.stands?_of_not_leads fun q hl => hq ⟨q, hl⟩]

/-! ## Whole runs -/

namespace Run

/-- The runs inject the same plan into the same project, from the same world and with build
tools that do the same. They may differ in how they clean up: in which files can be removed,
and in what tidying does. -/
structure SameButCleanUp (r r' : Run) : Prop where
  project : r'.project = r.project
  plan : r'.plan = r.plan
  start : r'.start = r.start
  host : ∃ refuses, r'.host = r.host.refusing refuses
  tool : ∀ c w, c ≠ .tidy → (r'.tool.ask r.project.directory c).perform r'.host w =
    (r.tool.ask r.project.directory c).perform r.host w

/-- The clean-up does not touch the artifact: tidying leaves it as it is, and what is removed
as the injected file is no link. -/
structure SparesArtifact (r : Run) : Prop where
  tidy : ∀ d ∈ r.tidies, d.after.view.stands? r.artifact = d.before.view.stands? r.artifact
  unlinked : r.built.2.view.HasNoLink r.file

/-- What the artifact answers when it is to be loaded. -/
def answer (r : Run) : Except Fault (Exit × Option String) :=
  Artifact.answer r.host r.artifact r.project.directory Artifact.tableSymbol r.cleaned

/-- What a run that wrote its injected file comes to, however its clean-up went. -/
structure EndsAsBuilt (r : Run) : Prop where
  /-- The first of the dependencies and the build that failed is the result as it is. If none
  failed, the result is what loading the artifact gives. -/
  result : (∃ before c w e, r.buildDeeds =
        before ++ [asked r.tool r.project.directory c r.host w] ∧
      (∀ d ∈ before, d.succeeded = true) ∧
      ((ask r.tool r.project.directory c).perform r.host w).1 = .error e ∧
      r.result = .error e) ∨
    (∀ d ∈ r.buildDeeds, d.succeeded = true) ∧
      r.result =
        ((Artifact.load r.artifact r.project.directory).perform r.host r.cleaned).1.mapError .symbol
  /-- A removal of the injected file or a tidying that fails adds a warning. -/
  cleaned : r.cleaned =
    let u := swept r.host "Could not delete temporary file " r.file (r.built.2.entered .cleanup)
    if !r.missing.isEmpty then
      warned (fun e => "Could not tidy dependencies: " ++ Failure.message e)
        ((ask r.tool r.project.directory .tidy).perform r.host u)
    else u
  /-- So does a removal of what a failed build left. -/
  stray : ∀ e, r.built.1 = .error e → r.after =
    { (if r.cleaned.view.exists? r.artifact then
        swept r.host "Could not delete " r.artifact r.cleaned
      else r.cleaned) with context := r.start.context }

variable {r r' : Run}

theorem stands?_cleaned (hs : r.SparesArtifact) :
    r.cleaned.view.stands? r.artifact = r.built.2.view.stands? r.artifact := by
  refine (r.chain_cleanUpDeeds.keeps
    (I := fun v => v.stands? r.artifact = r.built.2.view.stands? r.artifact) ?_ rfl).1
  intro d hd hb
  rw [cleanUpDeeds_eq] at hd
  rcases List.mem_cons.mp hd with rfl | hd
  · have hne := fileName_ne_artifactName r.suffix r.suffix
    exact Deed.stands?_removed r.endsIn_artifact r.endsIn_file (Ne.symm hne) hs.unlinked
  · exact (hs.tidy d hd).trans hb

theorem endsAsBuilt (hw : r.HasWritten) : r.EndsAsBuilt where
  result := by
    rcases build_cases r.host r.prepared.2 r.tool r.project r.missing r.artifact with
      ⟨hok, hall⟩ | ⟨before, c, u, e, hds, hall, he, hr⟩
    · exact .inr ⟨hall, (outcome_of_build hw hok).1⟩
    · exact .inl ⟨before, c, u, e, hds, hall, he, (outcome_of_failed_build hw hr).1⟩
  cleaned := by
    unfold cleaned afterCleanUp
    rw [perform_cleanUp_eq]
    rfl
  stray := by
    intro e he
    obtain ⟨s, hs⟩ := hw
    obtain ⟨rfl, -⟩ := prepare_ok _ _ _ _ hs
    have hbody : (r.body.perform r.host r.opened).2 =
        ((removeStray r.artifact).perform r.host r.cleaned).2 := by
      unfold built missing at he
      unfold body
      rw [perform_bind_of_ok (Prod.ext hs rfl)]
      change ((buildAndLoad r.tool r.project r.plan r.file r.artifact).perform r.host
        r.prepared.2).2 = _
      rw [perform_buildAndLoad]
      dsimp only
      rw [he]
      rfl
    rw [after, outcome_eq, hbody, perform_removeStray_eq]

namespace SameButCleanUp

variable (hs : r.SameButCleanUp r')

include hs

theorem suffix : r'.suffix = r.suffix := by
  obtain ⟨refuses, hh⟩ := hs.host
  unfold Run.suffix
  rw [hs.start, hh]
  rfl

theorem artifact : r'.artifact = r.artifact := by
  have hsuffix := hs.suffix
  obtain ⟨refuses, hh⟩ := hs.host
  unfold Run.artifact
  rw [hsuffix, hh]
  rfl

theorem prepared : ComesToTheSame r.prepared r'.prepared := by
  obtain ⟨refuses, hh⟩ := hs.host
  unfold Run.prepared opened
  rw [hs.project, hs.plan, hs.start, hh]
  exact prepare_refusing r.host refuses _ r.project r.plan

/-- Two such runs build in the same way, and the build leaves the same. -/
theorem built (hp : r'.prepared = r.prepared) : r'.built = r.built := by
  have hartifact := hs.artifact
  unfold Run.built missing
  rw [hs.project, hs.plan, hp, hartifact]
  exact build_same r.host _ r.project hs.tool _ _

end SameButCleanUp

/-- The artifact answers the same in both runs, unless cleaning up changed it. -/
def AnswersTheSame (r r' : Run) : Prop :=
  r'.cleaned.view.stands? r.artifact = r.cleaned.view.stands? r.artifact → r'.answer = r.answer

theorem result_of_load (hw : r.HasWritten) {x : Unit} (hb : r.built.1 = .ok x) :
    r.result = ((Artifact.loaded r.artifact
      (Artifact.reading r.host Artifact.tableSymbol r.answer)).map
        fun symbols => Artifact.mk r.artifact r.project.directory symbols).mapError .symbol := by
  rw [(outcome_of_build hw hb).1, Artifact.result_load]
  rfl

theorem SameButCleanUp.result (hs : r.SameButCleanUp r') (hr : r.HasWritten → r.SparesArtifact)
    (hr' : r'.HasWritten → r'.SparesArtifact) (ha : r.AnswersTheSame r') :
    r'.result = r.result := by
  rcases hs.prepared with hp | ⟨e, he, he'⟩
  · have hbuilt := hs.built hp
    cases hprep : r.prepared.1 with
    | error e =>
      rw [(outcome_of_error hprep).1, (outcome_of_error ((congrArg Prod.fst hp).trans hprep)).1]
    | ok s =>
      have hw : r.HasWritten := ⟨s, hprep⟩
      have hw' : r'.HasWritten := ⟨s, (congrArg Prod.fst hp).trans hprep⟩
      cases hb : r.built.1 with
      | error e =>
        rw [(outcome_of_failed_build hw hb).1,
          (outcome_of_failed_build hw' ((congrArg Prod.fst hbuilt).trans hb)).1]
      | ok x =>
        have hleft : r'.cleaned.view.stands? r.artifact = r.cleaned.view.stands? r.artifact := by
          have hleft' := stands?_cleaned (hr' hw')
          rw [hs.artifact, hbuilt] at hleft'
          rw [hleft', stands?_cleaned (hr hw)]
        obtain ⟨refuses, hh⟩ := hs.host
        rw [result_of_load hw hb, result_of_load hw' ((congrArg Prod.fst hbuilt).trans hb),
          hs.artifact, hs.project, ha hleft, hh]
        rfl
  · rw [(outcome_of_error he).1, (outcome_of_error he').1]

end Run

/-- Two runs that differ only in whether the steps of the clean-up succeed have the same
result, if the clean-up does not touch the artifact and an artifact that is not touched
answers the same. A run that wrote its file comes to the first failure of the dependencies
and the build as it is, or else to what loading the artifact gives; a step of the clean-up
that fails adds a warning and nothing else. -/
theorem cleaning_up_never_changes_the_result {r r' : Run} (hs : r.SameButCleanUp r')
    (hr : r.HasWritten → r.SparesArtifact) (hr' : r'.HasWritten → r'.SparesArtifact)
    (ha : r.AnswersTheSame r') :
    r'.result = r.result ∧ (r.HasWritten → r.EndsAsBuilt) ∧ (r'.HasWritten → r'.EndsAsBuilt) :=
  ⟨hs.result hr hr' ha, Run.endsAsBuilt, Run.endsAsBuilt⟩

namespace Sample

/-- The place of the artifact of the shop. -/
def output : Place := ["tmp", "gyv-code-injection-1000-7-0"]

/-- A build tool that makes a file of the artifact. -/
def builder : BuildTool :=
  ⟨fun _ _ => .ofFunction fun _ w =>
    (.ok (),
     if w.store.way output = none then { w with store := w.store.put output (.file [35] true) }
     else w)⟩

theorem keeps_builder {path name : String} (hn : Path.EndsIn path name) (directory : String)
    (c : ToolCall) (h : Host) (w : World) :
    (asked builder directory c h w).KeepsOpen path ∧
      (asked builder directory c h w).PutsNoLink path := by
  have ha : (asked builder directory c h w).after =
      if w.store.way output = none then
        { w.record (.asked c) with store := w.store.put output (.file [35] true) }
      else w.record (.asked c) := by
    unfold asked ofStep ask builder
    dsimp only
    rw [perform_bind_of_ok (perform_record _ _ _), perform_mapError, perform_ofFunction]
    rfl
  by_cases hopen : w.store.way output = none
  · rw [if_pos hopen] at ha
    refine keeps_of_sameWays hn ?_ ?_
    · rw [ha]
      exact Store.sameWays_put _ _ hopen
    · rw [ha]
      rfl
  · rw [if_neg hopen] at ha
    refine keeps_of_sameWays hn ?_ ?_
    · rw [ha]
      exact fun _ => rfl
    · rw [ha]
      rfl

/-- A build tool that makes a file of the artifact, and tidies or fails to. -/
def keeper (tidies : Bool) : BuildTool :=
  ⟨fun directory c =>
    match c with
    | .tidy => .ofExcept (if tidies then .ok () else .error (.notFound "go"))
    | c => builder.ask directory c⟩

/-- Everything can be removed and tidied. -/
def tidyRun : Run := ⟨keeper true, project, plan, host, world⟩

/-- Nothing can be removed, and tidying fails. -/
def stuckRun : Run :=
  ⟨keeper false, project, plan, host.refusing fun _ _ => some .permissionDenied, world⟩

theorem sparesArtifact_keeper {r : Run} {tidies : Bool} (ht : r.tool = keeper tidies)
    (hw : r.HasWritten) : r.SparesArtifact where
  tidy := by
    intro d hd
    rw [Run.exists_asked_of_mem_tidies hd, ht]
    rfl
  unlinked := by
    obtain ⟨text, q, -, -, hprep, -⟩ := Run.written hw
    refine (r.chain_buildDeeds.keeps (I := fun v => v.HasNoLink r.file) ?_ ?_).1
    · intro d hd
      obtain ⟨c, u, rfl⟩ := exists_asked_of_mem_buildDeeds _ _ _ _ hd
      rw [ht]
      cases c with
      | tidy => exact id
      | get x => exact (keeps_builder r.endsIn_file r.project.directory (.get x) _ u).2
      | build output => exact (keeps_builder r.endsIn_file r.project.directory (.build output) _ u).2
    · intro p target hp
      cases hp.unique hprep.1
      rw [hprep.2]
      simp

theorem sameButCleanUp_stuckRun : tidyRun.SameButCleanUp stuckRun where
  project := rfl
  plan := rfl
  start := rfl
  host := ⟨_, rfl⟩
  tool := by
    intro c w hc
    cases c with
    | tidy => exact absurd rfl hc
    | get d => rfl
    | build output => rfl

/-- In the shop, the artifact is built and cannot be run. That is the result whether the
clean-up succeeds or not. -/
theorem the_stuck_run_of_the_shop_has_the_same_result :
    tidyRun.HasWritten ∧ stuckRun.result = tidyRun.result ∧
      (tidyRun.HasWritten → tidyRun.EndsAsBuilt) ∧ (stuckRun.HasWritten → stuckRun.EndsAsBuilt) :=
  ⟨hasWritten_run, cleaning_up_never_changes_the_result sameButCleanUp_stuckRun
    (sparesArtifact_keeper rfl) (sparesArtifact_keeper rfl) fun _ =>
      (Artifact.answer_of_fault fun _ _ _ => rfl).trans
        (Artifact.answer_of_fault fun _ _ _ => rfl).symm⟩

end Sample
end Graft
