-- Runs mind what belongs to others. Each step of a command, and of a use of
-- the injected code as a library, creates, removes and runs only files whose
-- names the run drew itself.
import Graft.Proofs.Belongings

namespace Graft

namespace Cut

variable {ε α β : Type} {output : String → Prop} {base own : List Suffix}

/-! ## Reading -/

section Reading

theorem allowed_minds : Look.Allowed (Move.Minds output own) (MayRead own) where
  here := trivial
  list _ := trivial
  find _ h := h
  probe _ := trivial

theorem minds_look {l : Look α} {Q : α → Prop} {k : α → Routine ε β} (h : l.Reads (MayRead own) Q)
    (hk : ∀ x, (k x).Only (Move.Minds output own)) :
    (l.routine k).Only (Move.Minds output own) :=
  h.only allowed_minds fun x _ => hk x

/-- What is seen is looked at with care, and so is what follows it. -/
theorem minds_seeing {γ : Type} {k : β → Act ε γ} {g : Files.View → Except ε β}
    {l : Look (Except ε β)} {hl : ∀ v, l.seenIn v = g v} {ck : ∀ x, Cut (k x)}
    {Q : Except ε β → Prop} (h : l.Reads (MayRead own) Q)
    (hk : ∀ x, (ck x).routine.Only (Move.Minds output own)) :
    (seeing l hl ck).routine.Only (Move.Minds output own) :=
  minds_look h fun _ => only_bind trivial hk

theorem minds_sight {g : Files.View → Except ε β} {l : Look (Except ε β)}
    {hl : ∀ v, l.seenIn v = g v} {Q : Except ε β → Prop} (h : l.Reads (MayRead own) Q) :
    (sight l hl).routine.Only (Move.Minds output own) :=
  minds_look h fun _ => trivial

theorem mayRead_source (path : String) (h : Look.IsSourcePath path) : MayRead own path := .inl h

theorem mayRead_own {path : String} (h : ∃ s ∈ own, s.Marks path) : MayRead own path :=
  .inr (.inr (.inr h))

theorem mayRead_manifest (directory : String) :
    MayRead own (Path.join directory Manifest.fileName) :=
  .inr (.inl (Path.endsIn_join ⟨by decide, by decide, by decide, by decide⟩ directory))

theorem mayRead_settings (directory : String) :
    MayRead own (Path.join directory Config.fileName) :=
  .inr (.inr (.inl (Path.endsIn_join ⟨by decide, by decide, by decide, by decide⟩ directory)))

end Reading

/-! ## Notes -/

section Notes

theorem minds_record (e : Event) : (record (ε := ε) e).routine.Only (Move.Minds output own) :=
  ⟨trivial, fun _ => trivial⟩

theorem minds_advance (p : Phase) : (advance (ε := ε) p).routine.Only (Move.Minds output own) :=
  ⟨trivial, fun _ => ⟨trivial, fun _ => trivial⟩⟩

theorem minds_within {a : Act ε α} {ca : Cut a} {change : Context → Context}
    (ha : ca.routine.Only (Move.Minds output own)) :
    (within change ca).routine.Only (Move.Minds output own) :=
  ⟨trivial, fun _ => ha.andThen fun _ => ⟨trivial, fun _ => trivial⟩⟩

theorem minds_warnLater (paths : List String) :
    (warnLater paths).routine.Only (Move.Minds output own) := by
  induction paths with
  | nil => trivial
  | cons path more ih => exact only_bind (minds_record _) fun _ => ih

end Notes

/-! ## Settings and projects -/

section Settings

theorem minds_readFile? (directory : String) :
    (readFile? (ε := ε) (Path.join directory Config.fileName)).routine.Only
      (Move.Minds output own) := by
  refine minds_look (Look.reads_text (mayRead_settings directory)) fun r => ?_
  split
  · trivial
  · exact ⟨trivial, fun _ => trivial⟩
  · split
    · trivial
    · exact ⟨trivial, fun _ => ⟨trivial, fun _ => trivial⟩⟩

theorem minds_firstIn (dirs : List String) :
    (firstIn (ε := ε) dirs).routine.Only (Move.Minds output own) := by
  induction dirs with
  | nil => trivial
  | cons dir dirs ih =>
    refine only_bind (minds_readFile? dir) fun r => ?_
    cases r with
    | some c => trivial
    | none => exact ih

theorem minds_openIn (directory : String) :
    (openIn directory).routine.Only (Move.Minds output own) := by
  refine only_bind (only_bind (minds_firstIn _) fun c => ⟨trivial, fun _ => trivial⟩)
    fun config => ?_
  refine minds_within (only_bind (minds_advance _) fun _ => ?_)
  have hhere : MayRead own Manifest.fileName := mayRead_manifest ""
  refine minds_seeing ((Look.reads_manifest mayRead_manifest hhere directory).map _) fun m => ?_
  refine only_bind trivial fun framework => only_bind (minds_advance _) fun _ => ?_
  exact only_ite (only_bind trivial fun _ => only_bind (minds_advance _) fun _ => trivial)
    (only_bind (minds_advance _) fun _ => trivial)

end Settings

/-! ## Planning -/

section Planning

theorem minds_routeRegistrer (directory importPath : String) :
    (routeRegistrer directory importPath).routine.Only (Move.Minds output own) := by
  refine minds_look (Look.reads_startSites mayRead_source directory importPath) fun sites => ?_
  split
  · trivial
  · trivial
  · exact only_bind (minds_record _) fun _ => trivial
  · trivial

theorem minds_plan (p : Project) (t : Task) :
    (plan p t).routine.Only (Move.Minds output own) := by
  cases t with
  | migrate => trivial
  | clear => trivial
  | seed seeders =>
    have hsight : (sight _ fun v => seenIn_seedPlan v p (Seeder.orDefault seeders)).routine.Only
        (Move.Minds output own) :=
      minds_sight (Look.reads_seedPlan mayRead_source p (Seeder.orDefault seeders))
    exact only_ite (only_bind (minds_record _) fun _ => hsight) hsight
  | openapi =>
    exact only_bind (only_mapError (minds_routeRegistrer _ _)) fun _ =>
      only_bind (minds_advance _) fun _ => trivial

end Planning

/-! ## Files and programs -/

section Files

theorem minds_removeOrWarn {path : String} (hs : ∃ s ∈ own, s.Marks path) (complaint : String) :
    (removeOrWarn (ε := ε) complaint path).routine.Only (Move.Minds output own) := by
  refine only_bind (only_attempt ⟨hs, fun _ => trivial⟩) fun r => ?_
  cases r with
  | ok _ => trivial
  | error fault => exact minds_record _

theorem minds_toolchain (t : Toolchain) (directory : String) {c : ToolCall}
    (hc : ∀ path, c = .build path → ∃ s ∈ own, Path.EndsIn path (Injection.artifactName s)) :
    (toolchain t directory c).routine.Only (Move.Minds output own) := by
  refine only_bind ⟨trivial, fun _ => trivial⟩ fun h => ?_
  refine minds_look (Look.reads_program h.searchPath t.binary) fun program => ?_
  cases program with
  | none => trivial
  | some program =>
    exact only_bind (only_mapError ⟨.inr ⟨t, c, rfl, rfl, hc⟩, fun _ => trivial⟩) fun outcome =>
      only_ite trivial trivial

end Files

/-! ## Drawing names -/

/-- More names may have been drawn, and a result fits to those that were. -/
structure Grown (own : List Suffix) (P : List Suffix → α → Prop) (r : Except ε α)
    (own' : List Suffix) : Prop where
  more : own ⊆ own'
  fits : ∀ x, r = .ok x → P own' x

section Drawing

variable {a : Act ε α} {f : α → Act ε β} {ca : Cut a} {cf : ∀ x, Cut (f x)}
  {P : List Suffix → α → Prop} {Q : List Suffix → β → Prop}

/-- Who had drawn less before has drawn more since then. -/
theorem Grown.before {earlier : List Suffix} {r : Except ε α} (h : Grown own P r earlier)
    (hown : base ⊆ own) : Grown base P r earlier :=
  ⟨List.Subset.trans hown h.more, h.fits⟩

theorem grown_of_error {own' : List Suffix} {e : ε} (h : own ⊆ own') :
    Grown own P (.error e : Except ε α) own' :=
  ⟨h, fun _ hx => nomatch hx⟩

/-- A step that only minds what belongs to others draws nothing that is told. -/
theorem grown_of_only {r : Routine ε α} (hr : r.Only (Move.Minds output own)) :
    r.Follows (minding output) own (Grown own fun _ _ => True) :=
  (hr.minds (List.Subset.refl own)).mono fun _ _ hown => ⟨hown, fun _ _ => trivial⟩

/-- What follows a step may use what fits to the names that are drawn by then. -/
theorem grown_bind (ha : ca.routine.Follows (minding output) own (Grown own P))
    (hf : ∀ x own', own ⊆ own' → P own' x →
      (cf x).routine.Follows (minding output) own' (Grown own' Q)) :
    (bind ca cf).routine.Follows (minding output) own (Grown own Q) := by
  refine follows_bind ha ?_ ?_
  · intro x own' hx
    exact (hf x own' hx.more (hx.fits x rfl)).mono fun _ _ hr => hr.before hx.more
  · intro e own' he
    exact grown_of_error he.more

/-- A failure tells nothing about the names. -/
theorem grown_mapError {ε' : Type} {g : ε → ε'}
    (ha : ca.routine.Follows (minding output) own (Grown own P)) :
    (mapError g ca).routine.Follows (minding output) own (Grown own P) := by
  refine follows_mapError ha ?_
  intro r own' hr
  cases r with
  | error e => exact grown_of_error hr.more
  | ok x => exact ⟨hr.more, fun y hy => by cases hy; exact hr.fits x rfl⟩

theorem follows_within {R : Except ε α → List Suffix → Prop} {change : Context → Context}
    (ha : ca.routine.Follows (minding output) own R) :
    (within change ca).routine.Follows (minding output) own R := by
  refine ⟨trivial, fun before own' hown => ?_⟩
  obtain rfl : own' = own := hown.trans (List.append_nil own)
  refine Routine.follows_andThen.mpr (ha.mono ?_)
  intro r own' hr
  refine ⟨trivial, fun _ own'' hown' => ?_⟩
  obtain rfl : own'' = own' := hown'.trans (List.append_nil own')
  exact hr

theorem follows_bind_read {f : Host → Act ε β} {cf : ∀ h, Cut (f h)}
    {R : Except ε β → List Suffix → Prop}
    (h : ∀ host, (cf host).routine.Follows (minding output) own R) :
    (bind read cf).routine.Follows (minding output) own R := by
  refine ⟨trivial, fun host own' hown => ?_⟩
  obtain rfl : own' = own := hown.trans (List.append_nil own)
  exact h host

/-- What is seen may tell how to go on. -/
theorem follows_mindful {l : Look α} {Q : α → Prop} {k : α → Routine ε β}
    {R : Except ε β → List Suffix → Prop} (h : l.Reads (MayRead own) Q)
    (hk : ∀ x, (k x).Follows (minding output) own R) :
    (l.routine k).Follows (minding output) own R := by
  refine h.follows (I := (· = own)) ?_ rfl fun x own' _ hown => hown ▸ hk x
  rintro now rfl
  have hsame : ∀ own', own' = now ++ [] → own' = now := by
    intro own' hown
    rw [hown, List.append_nil]
  exact ⟨⟨trivial, fun _ => hsame⟩, fun _ => ⟨trivial, fun _ => hsame⟩,
    fun _ hpath => ⟨hpath, fun _ => hsame⟩, fun _ => ⟨trivial, fun _ => hsame⟩⟩

/-- The suffix that is drawn is an own one from then on. -/
theorem grown_bind_draw {f : Suffix → Act ε β} {cf : ∀ s, Cut (f s)}
    (h : ∀ s own', own ⊆ own' → s ∈ own' →
      (cf s).routine.Follows (minding output) own' (Grown own' Q)) :
    (bind drawSuffix cf).routine.Follows (minding output) own (Grown own Q) := by
  refine ⟨trivial, fun s own' hown => ?_⟩
  obtain rfl : own' = own ++ [s] := hown
  have hmore : own ⊆ own ++ [s] := List.subset_append_left own [s]
  exact (h s _ hmore (by simp)).mono fun _ _ hr => hr.before hmore

end Drawing

/-! ## The artifact -/

/-- The path ends in the name of an own artifact. -/
def OwnsArtifact (own : List Suffix) (path : String) : Prop :=
  ∃ s ∈ own, Path.EndsIn path (Injection.artifactName s)

section Artifacts

variable {artifact : String}

theorem OwnsArtifact.mono {own' : List Suffix} (ha : OwnsArtifact own artifact)
    (h : own ⊆ own') : OwnsArtifact own' artifact := by
  obtain ⟨s, hs, hpath⟩ := ha
  exact ⟨s, h hs, hpath⟩

theorem OwnsArtifact.marks (ha : OwnsArtifact own artifact) : ∃ s ∈ own, s.Marks artifact := by
  obtain ⟨s, hs, hpath⟩ := ha
  exact ⟨s, hs, _, by simp [Suffix.names], hpath⟩

theorem OwnsArtifact.discard (ha : OwnsArtifact own artifact) :
    (discard (ε := ε) artifact).routine.Only (Move.Minds output own) :=
  minds_removeOrWarn ha.marks _

/-- The answer is given, read and removed under a name that was drawn for it. -/
theorem grown_execute (ha : OwnsArtifact own artifact) (directory symbol : String) :
    (execute artifact directory symbol).routine.Follows (minding output) own
      (Grown own fun _ _ => True) := by
  refine follows_bind_read fun h => ?_
  refine grown_bind_draw fun s own' hown hs => ?_
  obtain ⟨t, ht, hartifact⟩ := ha.mono hown
  have hresult := Artifact.endsIn_resultPath h.tempDir s
  have hmarks : ∃ x ∈ own', x.Marks (Artifact.resultPath h.tempDir s) :=
    ⟨s, hs, _, by simp [Suffix.names], hresult⟩
  have hrun : (Artifact.runFor artifact directory symbol
      (Artifact.resultPath h.tempDir s)).Minds own' :=
    .inl ⟨t, ht, s, hs, artifact, directory, symbol, _, rfl, hartifact, hresult⟩
  refine grown_of_only ?_
  refine only_bind (only_mapError ⟨hrun, fun _ => trivial⟩) fun outcome => ?_
  refine minds_look (Look.reads_text (mayRead_own hmarks)) fun r => ?_
  cases r with
  | error fault => trivial
  | ok text =>
    refine only_bind (minds_removeOrWarn hmarks _) fun _ => ?_
    trivial

/-- What is loaded is the own artifact. -/
theorem grown_load (ha : OwnsArtifact own artifact) (directory : String) :
    (load artifact directory).routine.Follows (minding output) own
      (Grown own fun own' A => OwnsArtifact own' A.path) := by
  refine follows_bind_attempt (grown_execute ha directory _) fun r own' hr => ?_
  have hown := hr.more
  cases Artifact.loaded artifact r with
  | ok symbols => exact ⟨hown, fun A hA => by cases hA; exact ha.mono hown⟩
  | error e =>
    refine Routine.Follows.mono ?_ fun _ _ hr => Grown.before hr hown
    exact grown_bind (grown_of_only (ha.mono hown).discard) fun _ own'' _ _ =>
      grown_of_error (List.Subset.refl own'')

/-- What is bound belongs to the same artifact. -/
theorem grown_bindTo {A : Artifact} (ha : OwnsArtifact own A.path) (name : String)
    (signature : Signature) :
    (bindTo A name signature).routine.Follows (minding output) own
      (Grown own fun own' f => OwnsArtifact own' f.artifact.path) := by
  unfold bindTo Artifact.bind
  cases A.mismatch? name signature with
  | none => exact ⟨List.Subset.refl own, fun f hf => by cases hf; exact ha⟩
  | some e =>
    exact grown_bind (grown_of_only ha.discard) fun _ own' _ _ =>
      grown_of_error (List.Subset.refl own')

end Artifacts

/-! ## Injections -/

section Injecting

variable {s : Suffix} {p : Project}

/-- The build tool that the settings of a project name. -/
abbrev named (p : Project) (directory : String) (c : ToolCall) :
    Cut (p.toolchain.tool.ask directory c) :=
  toolchain p.toolchain directory c

theorem minds_ask (directory : String) {c : ToolCall}
    (hc : ∀ path, c = .build path → OwnsArtifact own path) :
    (ask (named p) directory c).routine.Only (Move.Minds output own) :=
  only_bind (minds_record _) fun _ => only_mapError (minds_toolchain _ directory hc)

theorem minds_addAll (directory : String) (ds : List Dependency) :
    (addAll (named p) directory ds).routine.Only (Move.Minds output own) := by
  induction ds with
  | nil => trivial
  | cons d ds ih =>
    exact only_bind (minds_record _) fun _ => only_bind (minds_ask directory (by simp)) fun _ => ih

theorem minds_build (ds : List Dependency) {artifact : String} (ha : OwnsArtifact own artifact) :
    (build (named p) p ds artifact).routine.Only (Move.Minds output own) := by
  refine only_bind (minds_addAll p.directory ds) fun _ => only_bind (minds_advance _) fun _ => ?_
  refine only_bind (minds_record _) fun _ => only_bind (minds_ask p.directory ?_) fun _ => ?_
  · intro path hpath
    cases hpath
    exact ha
  · exact minds_advance _

theorem minds_cleanUp {file : String} (hfile : ∃ s ∈ own, s.Marks file) (tidy : Bool) :
    (cleanUp (named p) p file tidy).routine.Only (Move.Minds output own) := by
  refine only_bind (minds_removeOrWarn hfile _) fun _ => only_ite ?_ trivial
  refine only_bind (only_attempt (minds_ask p.directory (by simp))) fun r => ?_
  cases r with
  | ok _ => trivial
  | error e => exact minds_record _

theorem minds_removeStray {artifact : String} (ha : OwnsArtifact own artifact) :
    (removeStray artifact).routine.Only (Move.Minds output own) :=
  minds_look (Look.reads_leads (mayRead_own ha.marks)) fun _ =>
    only_ite (minds_removeOrWarn ha.marks _) trivial

theorem minds_writeText {file : String} (hs : s ∈ own)
    (hfile : Path.EndsIn file (Injection.fileName s)) (text : String) :
    (writeText file text).routine.Only (Move.Minds output own) := by
  refine only_bind (only_attempt ⟨⟨s, hs, hfile⟩, fun _ => trivial⟩) fun r => ?_
  rcases r with fault | _ | fault
  · trivial
  · trivial
  · exact only_bind (minds_removeOrWarn ⟨s, hs, _, by simp [Suffix.names], hfile⟩ _)
      fun _ => trivial

/-- The injected file is named with the suffix that was drawn for it. -/
theorem grown_prepare (p : Project) (plan : Plan) :
    (prepare p plan).routine.Follows (minding output) own (Grown own fun own' s => s ∈ own') := by
  refine follows_mindful ((Look.reads_package mayRead_source _).map _) fun root => ?_
  refine grown_bind (grown_of_only (r := (ofExcept root).routine) trivial) fun _ own₁ _ _ => ?_
  refine grown_bind (grown_of_only (r := (ofExcept _).routine) trivial) fun text own₂ _ _ => ?_
  refine grown_bind (grown_of_only (minds_advance _)) fun _ own₃ _ _ => ?_
  refine grown_bind_draw fun s own₄ _ hs => ?_
  refine follows_mindful ((Look.reads_files _).map _) fun listed => ?_
  refine grown_bind (grown_of_only (r := (ofExcept listed).routine) trivial)
    fun paths own₅ h₅ _ => ?_
  refine grown_bind (grown_of_only (minds_warnLater _)) fun _ own₆ h₆ _ => ?_
  have hs₆ : s ∈ own₆ := h₆ (h₅ hs)
  refine grown_bind (grown_of_only (minds_writeText hs₆ (Injection.endsIn_filePath p s) text))
    fun _ own₇ h₇ _ => ?_
  refine grown_bind (grown_of_only (minds_advance _)) fun _ own₈ h₈ _ => ?_
  exact ⟨List.Subset.refl own₈, fun x hx => by cases hx; exact h₈ (h₇ hs₆)⟩

/-- What is loaded of a build is the own artifact. -/
theorem grown_buildAndLoad (hs : s ∈ own) (p : Project) (plan : Plan) (tempDir : String) :
    (buildAndLoad (named p) p plan (Injection.filePath p s)
        (Injection.artifactPath tempDir s)).routine.Follows (minding output) own
      (Grown own fun own' A => OwnsArtifact own' A.path) := by
  have ha : OwnsArtifact own (Injection.artifactPath tempDir s) :=
    ⟨s, hs, Injection.endsIn_artifactPath tempDir s⟩
  have hfile : ∃ x ∈ own, x.Marks (Injection.filePath p s) :=
    ⟨s, hs, _, by simp [Suffix.names], Injection.endsIn_filePath p s⟩
  refine grown_bind (grown_of_only (only_attempt (minds_build _ ha))) fun built own₁ h₁ _ => ?_
  refine grown_bind (grown_of_only (minds_advance _)) fun _ own₂ h₂ _ => ?_
  have hmore := List.Subset.trans h₁ h₂
  have hfile₂ : ∃ x ∈ own₂, x.Marks (Injection.filePath p s) := by
    obtain ⟨x, hx, hpath⟩ := hfile
    exact ⟨x, hmore hx, hpath⟩
  refine grown_bind (grown_of_only (minds_cleanUp hfile₂ _)) fun _ own₃ h₃ _ => ?_
  have ha₃ := ha.mono (List.Subset.trans hmore h₃)
  cases built with
  | error e =>
    exact grown_bind (grown_of_only (minds_removeStray ha₃)) fun _ own₄ _ _ =>
      grown_of_error (List.Subset.refl own₄)
  | ok _ =>
    refine grown_bind (grown_mapError (grown_load ha₃ p.directory)) fun A own₄ _ hA => ?_
    refine grown_bind (grown_of_only (minds_advance _)) fun _ own₅ h₅ _ => ?_
    exact ⟨List.Subset.refl own₅, fun x hx => by cases hx; exact hA.mono h₅⟩

theorem grown_inject (p : Project) (plan : Plan) :
    (inject (named p) p plan).routine.Follows (minding output) own
      (Grown own fun own' A => OwnsArtifact own' A.path) := by
  refine follows_within (follows_bind_read fun h => ?_)
  exact grown_bind (grown_prepare p plan) fun s _ _ hs => grown_buildAndLoad hs p plan h.tempDir

theorem grown_injectSymbol (p : Project) (plan : Plan) (symbol : String) (signature : Signature) :
    (injectSymbol (named p) p plan symbol signature).routine.Follows (minding output) own
      (Grown own fun own' f => OwnsArtifact own' f.artifact.path) := by
  refine grown_bind (grown_inject p plan) fun A own₁ _ hA => follows_within ?_
  refine grown_bind (grown_mapError (grown_bindTo hA symbol signature)) fun f own₂ _ hf => ?_
  refine grown_bind (grown_of_only (minds_advance _)) fun _ own₃ h₃ _ => ?_
  exact ⟨List.Subset.refl own₃, fun x hx => by cases hx; exact hf.mono h₃⟩

end Injecting

/-! ## Tasks and commands -/

section Commands

theorem grown_bindIn (p : Project) (t : Task) :
    (bindIn p t).routine.Follows (minding output) own
      (Grown own fun own' f => OwnsArtifact own' f.artifact.path) :=
  grown_bind (grown_of_only (minds_plan p t)) fun plan _ _ _ => grown_injectSymbol p plan _ _

theorem grown_bindAt (directory : String) (t : Task) :
    (bindAt directory t).routine.Follows (minding output) own
      (Grown own fun own' f => OwnsArtifact own' f.artifact.path) :=
  grown_bind (grown_of_only (minds_openIn directory)) fun p _ _ _ => grown_bindIn p t

theorem grown_invoke {f : BoundSymbol} (hf : OwnsArtifact own f.artifact.path) :
    (invoke f).routine.Follows (minding output) own (Grown own fun _ _ => True) := by
  refine follows_within (grown_bind (grown_of_only (minds_record _)) fun _ own₁ h₁ _ => ?_)
  refine follows_within (grown_mapError ?_)
  refine grown_bind (grown_execute (hf.mono h₁) f.artifact.directory f.name) fun e own₂ _ _ => ?_
  exact grown_of_only (r := (ofExcept (BoundSymbol.resultOf f.name e)).routine) trivial

theorem minds_projectDirectory (project : Option String) :
    (projectDirectory project).routine.Only (Move.Minds output own) := by
  cases project with
  | some directory => trivial
  | none =>
    refine minds_look (Look.reads_nearest mayRead_manifest) fun r => ?_
    cases r <;> trivial

/-- What is done with a bound symbol, and then its artifact is dropped. -/
theorem grown_holding {f : BoundSymbol} (hf : OwnsArtifact own f.artifact.path)
    {a : Act CommandError α} {ca : Cut a}
    (ha : ca.routine.Follows (minding output) own (Grown own fun _ _ => True)) :
    (holding f ca).routine.Follows (minding output) own (Grown own fun _ _ => True) := by
  refine follows_bind_attempt ha fun r own₁ hr => ?_
  refine Routine.Follows.mono ?_ fun _ _ hx => Grown.before hx hr.more
  refine grown_bind (grown_of_only (hf.mono hr.more).discard) fun _ own₂ _ _ => ?_
  exact grown_of_only (r := (ofExcept r).routine) trivial

theorem grown_runTask (project : Option String) (t : Task) (doing done : String) :
    (runTask project t doing done).routine.Follows (minding output) own
      (Grown own fun _ _ => True) := by
  refine grown_bind (grown_of_only (minds_projectDirectory project)) fun directory own₁ _ _ => ?_
  refine grown_bind (grown_mapError (grown_bindAt directory t)) fun f own₂ _ hf => ?_
  refine grown_holding hf (grown_bind (grown_of_only (minds_record _)) fun _ own₃ h₃ _ => ?_)
  refine grown_bind (grown_mapError (grown_invoke (hf.mono h₃))) fun _ own₄ _ _ => ?_
  exact grown_of_only (minds_record _)

theorem grown_describe {project : Option String} {file : String}
    (houtput : ∀ directory, output (Path.join directory file)) :
    (describe project file).routine.Follows (minding output) own
      (Grown own fun _ _ => True) := by
  refine grown_bind (grown_of_only (minds_projectDirectory project)) fun directory own₁ _ _ => ?_
  refine grown_bind (grown_mapError (grown_bindAt directory .openapi)) fun f own₂ _ hf => ?_
  refine grown_holding hf (grown_bind (grown_mapError (grown_invoke hf)) fun bytes own₃ _ _ => ?_)
  refine grown_bind (grown_of_only (minds_record _)) fun _ own₄ _ _ => ?_
  refine grown_bind (grown_of_only (only_mapError ⟨houtput directory, fun _ => trivial⟩))
    fun _ own₅ _ _ => ?_
  exact grown_of_only (minds_record _)

theorem minds_initIn {directory : String} (houtput : output (Path.join directory Config.fileName))
    (force : Bool) : (initIn directory force).routine.Only (Move.Minds output own) := by
  refine minds_look (Look.reads_leads (mayRead_settings directory)) fun found => ?_
  split
  · trivial
  · exact only_bind (only_mapError ⟨houtput, fun _ => trivial⟩) fun _ => minds_record _

end Commands

end Cut

/-- What a command writes besides its own files: the description of the routes where the user
wants it, or new settings. -/
def Command.Writes : Command → String → Prop
  | .openapi _ file, path => ∃ directory, path = Path.join directory file
  | .init _, path => ∃ directory, path = Path.join directory Config.fileName
  | _, _ => False

/-- Each move of a command minds what belongs to others. -/
theorem Cut.grown_command {output : String → Prop} {own : List Suffix} {c : Command}
    (houtput : ∀ path, c.Writes path → output path) :
    (command c).routine.Follows (minding output) own (Grown own fun _ _ => True) := by
  cases c with
  | migrate project => exact grown_runTask project .migrate _ _
  | seed project seeders => exact grown_runTask project (.seed seeders) _ _
  | clear project => exact grown_runTask project .clear _ _
  | openapi project file => exact grown_describe fun directory => houtput _ ⟨directory, rfl⟩
  | init force =>
    exact grown_of_only ⟨trivial, fun p => minds_initIn (houtput _ ⟨p.path, rfl⟩) force⟩

end Graft
