-- What a stage runs. Its build tool, its artifact and scripts that change no
-- file let files come and change, and do nothing else to a tree: directories
-- stay, no link is made, and no file goes.
import Graft.Proofs.QuietScripts
import Graft.Proofs.Searching
import Graft.Rehearsal.Stage

namespace Graft

open Act Deed Files

/-! ## Trees that gain files -/

namespace Files.Store

variable {s t : Store} {p q : Place} {bytes : List UInt8} {x : Bool}

/-- The second tree has the directories and links of the first one, and a file wherever the
first one has a file. -/
structure Gains (s t : Store) : Prop where
  ways : s.SameWays t
  files : ∀ p, (∃ bytes x, s.at? p = some (.file bytes x)) →
    ∃ bytes x, t.at? p = some (.file bytes x)

theorem Gains.refl (s : Store) : s.Gains s := ⟨fun _ => rfl, fun _ h => h⟩

theorem gains_put (h : s.IsOpen p) (bytes : List UInt8) (x : Bool) :
    s.Gains (s.put p (.file bytes x)) := by
  refine ⟨sameWays_put bytes x h, fun q hq => ?_⟩
  by_cases hqp : q = p
  · subst hqp
    have hne : q ≠ [] := by
      rintro rfl
      simp [at?] at hq
    exact ⟨bytes, x, at?_put_self hne⟩
  · rw [at?_put_of_ne hqp]
    exact hq

theorem HasNoLinks.put (h : s.HasNoLinks) : (s.put p (.file bytes x)).HasNoLinks := by
  intro q target
  by_cases hq : q = p
  · subst hq
    by_cases hroot : q = []
    · simp [hroot, at?]
    · simp [at?_put_self hroot]
  · rw [at?_put_of_ne hq]
    exact h q target

theorem HasNoLinks.erase (h : s.HasNoLinks) : (s.erase p).HasNoLinks := by
  intro q target
  by_cases hq : q = p
  · subst hq
    by_cases hroot : q = []
    · simp [hroot, at?]
    · simp [at?_erase_self hroot]
  · rw [at?_erase_of_ne hq]
    exact h q target

theorem HasNoLinks.isOpen (h : s.HasNoLinks) (hp : s.at? p ≠ some .directory) : s.IsOpen p := by
  rw [isOpen_iff]
  cases he : s.at? p with
  | none => exact .inl rfl
  | some e =>
    cases e with
    | file bytes x => exact .inr ⟨bytes, x, rfl⟩
    | directory => exact absurd he hp
    | link target => exact absurd he (h p target)

end Files.Store

namespace Files

/-- What a path from the root leads to does not depend on the directory. -/
theorem Store.place_of_isAbsolute {path : String} (h : Path.isAbsolute path = true) (s : Store)
    (cwd cwd' : Place) (follow : Bool) : s.place cwd follow path = s.place cwd' follow path := by
  unfold Store.place
  rw [h]
  rfl

theorem View.find_of_isAbsolute {path : String} (h : Path.isAbsolute path = true) (s : Store)
    (cwd cwd' : Place) : View.find ⟨s, cwd⟩ path = View.find ⟨s, cwd'⟩ path := by
  unfold find
  rw [Store.place_of_isAbsolute h s cwd cwd']

end Files

theorem Injection.isAbsolute_artifactPath {tempDir : String}
    (h : Path.isAbsolute tempDir = true) (s : Suffix) :
    Path.isAbsolute (artifactPath tempDir s) = true :=
  (Path.isAbsolute_join (Path.isAbsolute_of_name (isName_artifactName s)) tempDir).trans h

theorem Artifact.isAbsolute_resultPath {tempDir : String} (h : Path.isAbsolute tempDir = true)
    (s : Suffix) : Path.isAbsolute (resultPath tempDir s) = true :=
  (Path.isAbsolute_join (Path.isAbsolute_of_name (isName_resultName s)) tempDir).trans h

namespace Rehearsal

/-! ## Tame programs -/

/-- What can be run of the bytes is the build tool, the artifact, or a script of quiet
commands. -/
inductive IsTameFile : List UInt8 → Prop
  | tool : IsTameFile Stage.toolBytes
  | artifact : IsTameFile Stage.artifactBytes
  | script {bytes : List UInt8} (h : allQuiet (commandsOf (Text.decodeLossy bytes)) = true) :
      IsTameFile bytes
  /-- No shell is named. -/
  | data {bytes : List UInt8} (h : Stage.interpreter? (Text.decodeLossy bytes) = none) :
      IsTameFile bytes

/-- There are no links, and whatever can be run is tame. -/
structure IsTameTree (s : Store) : Prop where
  noLinks : s.HasNoLinks
  programs : ∀ p bytes, s.at? p = some (.file bytes true) → IsTameFile bytes

/-- What the stage puts into a tree is tame. -/
structure Stage.IsTame (s : Stage) : Prop where
  product : ∀ bytes, s.productBytes = some bytes → IsTameFile bytes
  answers : ∀ symbol bytes, (s.partOf symbol).result = some bytes → IsTameFile bytes

variable {s : Store} {p : Place} {bytes : List UInt8} {x : Bool}

theorem IsTameTree.put (h : IsTameTree s) (hb : x = true → IsTameFile bytes) :
    IsTameTree (s.put p (.file bytes x)) := by
  refine ⟨h.noLinks.put, fun q bs hq => ?_⟩
  by_cases hqp : q = p
  · subst hqp
    by_cases hroot : q = []
    · simp [hroot, Store.at?] at hq
    · rw [Store.at?_put_self hroot] at hq
      cases hq
      exact hb rfl
  · rw [Store.at?_put_of_ne hqp] at hq
    exact h.programs q bs hq

theorem IsTameTree.erase (h : IsTameTree s) : IsTameTree (s.erase p) := by
  refine ⟨h.noLinks.erase, fun q bs hq => ?_⟩
  by_cases hqp : q = p
  · subst hqp
    by_cases hroot : q = []
    · simp [hroot, Store.at?] at hq
    · rw [Store.at?_erase_self hroot] at hq
      cases hq
  · rw [Store.at?_erase_of_ne hqp] at hq
    exact h.programs q bs hq

/-- What is done to the tree is tame: it only gains files, and stays tame. -/
structure IsTameChange (s t : Store) : Prop where
  gains : s.Gains t
  tame : IsTameTree t

theorem IsTameTree.change_put (h : IsTameTree s) (hp : s.at? p ≠ some .directory)
    (hb : x = true → IsTameFile bytes) : IsTameChange s (s.put p (.file bytes x)) :=
  ⟨Store.gains_put (h.noLinks.isOpen hp) bytes x, h.put hb⟩

theorem IsTameTree.unchanged (h : IsTameTree s) : IsTameChange s s := ⟨.refl s, h⟩

namespace Stage

variable {st : Stage} {v : View}

theorem change_putProgram (h : IsTameTree v.store) (hb : IsTameFile bytes) (path : String) :
    IsTameChange v.store (putProgram v path bytes) := by
  unfold putProgram
  split
  · exact h.unchanged
  · split
    · exact h.unchanged
    · rename_i hp
      exact h.change_put (fun hd => hp hd) fun _ => hb

theorem change_built (hst : st.IsTame) (h : IsTameTree v.store) (arguments : List String) :
    IsTameChange v.store (st.built v arguments) := by
  unfold built
  split
  · split
    · rename_i hproduct _
      exact change_putProgram h (hst.product _ hproduct) _
    · exact h.unchanged
  · exact h.unchanged

theorem change_answered (hst : st.IsTame) (h : IsTameTree v.store)
    (environment : List (String × String)) (symbol : String) :
    IsTameChange v.store (answered v environment (st.partOf symbol)) := by
  unfold answered
  cases hresult : (st.partOf symbol).result with
  | none => exact h.unchanged
  | some bytes =>
    have htame := hst.answers symbol bytes hresult
    dsimp only
    split
    · rename_i store hwrite
      unfold View.write at hwrite
      split at hwrite
      · cases hwrite
      · split at hwrite
        · cases hwrite
        · rename_i hat
          cases hwrite
          exact h.change_put (by simp [hat]) fun _ => htame
        · rename_i hdirectory _
          cases hwrite
          exact h.change_put hdirectory (by simp)
    · exact h.unchanged

theorem exists_at?_of_find {path : String} {e : Entry} (h : v.find path = .ok e) :
    ∃ p, v.store.at? p = some e := by
  unfold View.find at h
  split at h
  · cases h
  · split at h <;> cases h
    exact ⟨_, ‹_›⟩

theorem quiet_of_programAt (h : IsTameTree v.store) {path : String} {text : List Char}
    (hp : programAt v path = .ok (.script text)) : allQuiet (commandsOf text) = true := by
  unfold programAt at hp
  split at hp
  · cases hp
  · rename_i bytes hfind
    obtain ⟨p, hat⟩ := exists_at?_of_find hfind
    split at hp
    · cases hp
    rename_i htool
    split at hp
    · cases hp
    rename_i hartifact
    dsimp only at hp
    split at hp
    · cases hp
    rename_i hname
    split at hp <;> cases hp
    cases h.programs p bytes hat with
    | tool => exact absurd BEq.rfl htool
    | artifact => exact absurd BEq.rfl hartifact
    | script hquiet => exact hquiet
    | data hnone =>
      rw [hnone] at hname
      cases hname
  · cases hp

theorem change_outcome (hst : st.IsTame) (h : IsTameTree v.store) (l : Launch) {path : String}
    {pr : Program} (hp : programAt v path = .ok pr) :
    IsTameChange v.store (st.outcome v l pr).store := by
  cases pr with
  | tool => exact change_built hst h l.arguments
  | artifact => exact change_answered hst h l.environment _
  | script text =>
    have hstore := store_runScript v (l.program :: l.arguments)
      (l.environment ++ [("TMPDIR", st.tempDir), ("PATH", ":".intercalate st.searchPath)])
      (quiet_of_programAt h hp)
    unfold outcome
    dsimp only
    rw [hstore]
    exact h.unchanged

theorem store_viewIn {directory : String} {inside : View} (h : viewIn v directory = .ok inside) :
    inside.store = v.store := by
  unfold viewIn at h
  split at h
  · cases h
  · split at h <;> cases h
    rfl

/-- A launch on a tame stage, in a tame tree, only lets files come and change. -/
theorem change_launch (hst : st.IsTame) (h : IsTameTree v.store) {l : Launch} {o : Outcome}
    (hl : st.launch l v = .ok o) : IsTameChange v.store o.store := by
  unfold launch at hl
  obtain ⟨inside, hinside, hl⟩ := bind_eq_ok_iff.mp hl
  obtain ⟨pr, hpr, hl⟩ := bind_eq_ok_iff.mp hl
  cases hl
  rw [← store_viewIn hinside] at h ⊢
  exact change_outcome hst h l hpr

/-- A program is run only if its file is there, wherever it runs. -/
theorem isFile_of_launch {l : Launch} {o : Outcome} (hl : st.launch l v = .ok o)
    (habsolute : Path.isAbsolute l.program = true) : v.isFile l.program = true := by
  unfold launch at hl
  obtain ⟨inside, hinside, hl⟩ := bind_eq_ok_iff.mp hl
  obtain ⟨pr, hpr, -⟩ := bind_eq_ok_iff.mp hl
  have hfind : inside.find l.program = v.find l.program :=
    (View.find_of_isAbsolute habsolute inside.store inside.cwd v.cwd).trans
      (congrArg (fun s => View.find ⟨s, v.cwd⟩ l.program) (store_viewIn hinside))
  unfold View.isFile
  rw [← hfind]
  unfold programAt at hpr
  split at hpr
  · cases hpr
  · rename_i hfile
    rw [hfile]
  · cases hpr

end Stage
end Rehearsal

/-! ## The deeds of a staged run -/

open Rehearsal

/-- The run takes place on a stage: the stage is its host, and a program of the stage is its
build tool. The stage and the files are tame at the beginning, and temporary files have a
directory that does not depend on where a program runs. -/
structure Run.IsStaged (r : Run) (st : Stage) : Prop where
  host : ∃ process, r.host = st.host process
  tool : ∃ t : Toolchain, r.tool = t.tool
  stage : st.IsTame
  files : IsTameTree r.start.store
  absolute : Path.isAbsolute st.tempDir = true

namespace Deed

/-- The deed is tame, and works in the same directory. -/
def IsTame (d : Deed) : Prop :=
  IsTameChange d.before.store d.after.store ∧ d.after.cwd = d.before.cwd

theorem IsTame.view_after {d : Deed} (h : d.IsTame) :
    d.after.view = ⟨d.after.store, d.before.cwd⟩ := by
  rw [← h.2]
  rfl

theorem isTame_launch {st : Stage} (hst : st.IsTame) (process : Nat) {w : World}
    (h : IsTameTree w.store) (l : Launch) :
    IsTameChange w.store ((launch l).perform (st.host process) w).2.store ∧
      ((launch l).perform (st.host process) w).2.cwd = w.cwd := by
  unfold launch
  rw [perform_ofFunction]
  dsimp only
  split
  · exact ⟨h.unchanged, rfl⟩
  · rename_i o ho
    exact ⟨Stage.change_launch (v := w.view) hst h ho, rfl⟩

theorem isTame_ran {st : Stage} (hst : st.IsTame) (process : Nat)
    (artifact directory symbol : String) (s : Suffix) {w : World} (h : IsTameTree w.store) :
    (ran artifact directory symbol s (st.host process) w).IsTame :=
  isTame_launch hst process h _

theorem isTame_asked {st : Stage} (hst : st.IsTame) (process : Nat) (t : Toolchain)
    (directory : String) (c : ToolCall) {w : World} (h : IsTameTree w.store) :
    (asked t.tool directory c (st.host process) w).IsTame := by
  unfold IsTame asked ofStep Injection.ask Toolchain.tool Toolchain.run
  dsimp only
  rw [perform_bind_of_ok (perform_record _ _ _), perform_mapError,
    perform_bind_of_ok (perform_read _ _), perform_bind_of_ok (perform_view _ _)]
  split
  · exact ⟨h.unchanged, rfl⟩
  · rename_i program _
    have hl := isTame_launch hst process (w := w.record (.asked c)) h
      ⟨program, t.arguments c, directory, []⟩
    rw [perform_bind, perform_mapError]
    generalize (launch ⟨program, t.arguments c, directory, []⟩).perform (st.host process)
      (w.record (.asked c)) = z at hl ⊢
    rcases z with ⟨fault | o, u⟩
    · exact hl
    · dsimp only [Except.mapError]
      split <;> exact hl

theorem isTameTree_removed (path : String) (h : Host) {w : World} (hw : IsTameTree w.store) :
    IsTameTree (removed path h w).after.store := by
  unfold removed ofStep
  dsimp only
  rcases perform_removeFile_cases h w path with ⟨fault, -, hv⟩ | ⟨-, q, e, -, -, -, hv⟩
  · rw [← World.store_view, hv]
    exact hw
  · rw [← World.store_view, hv]
    exact hw.erase

end Deed

namespace Run

variable {r : Run} {st : Stage}

theorem hasWritten_of_mem {d : Deed} (hd : d ∈ r.deeds) : r.HasWritten := by
  unfold deeds at hd
  split at hd
  · cases hd
  · exact ⟨_, ‹_›⟩

/-- Each deed of a staged run keeps the tree tame, and those of the programs are tame. -/
theorem IsStaged.deed (hr : r.IsStaged st) {d : Deed} (hd : d ∈ r.deeds)
    (h : IsTameTree d.before.store) :
    IsTameTree d.after.store ∧ (d.isForeign = true → d.IsTame) := by
  obtain ⟨process, hhost⟩ := hr.host
  obtain ⟨t, htool⟩ := hr.tool
  rcases foreign_or_removed hd with (⟨c, w, rfl⟩ | ⟨symbol, s, w, rfl⟩) | ⟨path, w, rfl⟩
  · rw [hhost, htool] at h ⊢
    have htame := isTame_asked hr.stage process t r.project.directory c h
    exact ⟨htame.1.tame, fun _ => htame⟩
  · rw [hhost] at h ⊢
    have htame := isTame_ran hr.stage process r.artifact r.project.directory symbol s h
    exact ⟨htame.1.tame, fun _ => htame⟩
  · exact ⟨isTameTree_removed path r.host h, fun hf => by cases hf⟩

theorem IsStaged.keeps (hr : r.IsStaged st) (hw : r.HasWritten) :
    IsTameTree r.after.store ∧ ∀ d ∈ r.deeds, IsTameTree d.before.store := by
  obtain ⟨s, hs⟩ := id hw
  obtain ⟨rfl, text, q, -, -, -, hv⟩ := Injection.prepare_ok _ _ _ _ hs
  have hprepared : IsTameTree r.prepared.2.store := by
    rw [← World.store_view, prepared, hv]
    exact hr.files.put (by simp)
  exact (chain_deeds hw).keeps (I := fun v => IsTameTree v.store)
    (fun d hd h => (hr.deed hd h).1) hprepared

/-- Whatever the programs of a tame stage do in a run, they only let files come and change. -/
theorem IsStaged.deeds (hr : r.IsStaged st) {d : Deed} (hd : d ∈ r.deeds) :
    IsTameTree d.after.store ∧ (d.isForeign = true → d.IsTame) :=
  hr.deed hd ((hr.keeps (hasWritten_of_mem hd)).2 d hd)

end Run
end Graft
