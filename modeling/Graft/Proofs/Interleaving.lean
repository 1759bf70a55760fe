-- Runs side by side. Threads of one process and of several take their moves in
-- any order, among whatever else changes the files meanwhile. No two of them
-- draw the same name, so that none takes a file of another for its own.
import Mathlib.Data.List.Nodup
import Graft.Proofs.Listings
import Graft.Proofs.Minding
import Graft.Proofs.Runs

namespace Graft

/-! ## Requests -/

/-- What a thread is asked for: a command, or a use of the injected code as a library. -/
inductive Request
  | command (c : Command)
  /-- Injects a plan, and holds a symbol of it. -/
  | inject (p : Project) (plan : Plan) (symbol : String) (signature : Signature)
  /-- Injects what a task needs, and holds its symbol. -/
  | bind (directory : String) (t : Task)
  /-- Calls the symbol that is held at the index. -/
  | call (index : Nat)
  /-- Drops the symbol that is held at the index. -/
  | drop (index : Nat)

namespace Request

def invoke? : Option BoundSymbol → Act CommandError Unit
  | none => pure ()
  | some f => do
    let _ ← Act.mapError .failure (Task.invoke f)

def drop? : Option BoundSymbol → Act CommandError Unit
  | none => pure ()
  | some f => f.artifact.drop

/-- Takes a request, and gives the symbols that are held afterwards. -/
def take (held : List BoundSymbol) : Request → Act CommandError (List BoundSymbol)
  | command c => do
    c.run
    pure held
  | inject p plan symbol signature => do
    let f ← Act.mapError .failure
      (Injection.injectSymbol p.toolchain.tool p plan symbol signature)
    pure (held ++ [f])
  | bind directory t => do
    let f ← Act.mapError .failure (Task.bind directory t)
    pure (held ++ [f])
  | call index => do
    invoke? held[index]?
    pure held
  | drop index => do
    drop? held[index]?
    pure (held.eraseIdx index)

/-- Takes requests one after the other. One that fails leaves the symbols that were held. -/
def takeAll : List Request → List BoundSymbol → Act CommandError Unit
  | [], _ => pure ()
  | q :: more, held => do
    let r ← Act.attempt (q.take held)
    takeAll more (r.toOption.getD held)

/-- What a request writes besides its own files. -/
def Writes : Request → String → Prop
  | command c, path => c.Writes path
  | _, _ => False

end Request

namespace Cut

variable {output : String → Prop} {own : List Suffix} {held : List BoundSymbol}

def invoke? : ∀ f, Cut (Request.invoke? f)
  | none => pure _
  | some f => bind (mapError _ (invoke f)) fun _ => pure _

def drop? : ∀ f, Cut (Request.drop? f)
  | none => pure _
  | some f => discard f.artifact.path

def request (held : List BoundSymbol) : ∀ q : Request, Cut (q.take held)
  | .command c => bind (command c) fun _ => pure _
  | .inject p plan symbol signature =>
    bind (mapError _ (injectSymbol (named p) p plan symbol signature)) fun _ => pure _
  | .bind directory t => bind (mapError _ (bindAt directory t)) fun _ => pure _
  | .call index => bind (invoke? held[index]?) fun _ => pure _
  | .drop index => bind (drop? held[index]?) fun _ => pure _

def requests : ∀ (qs : List Request) (held : List BoundSymbol), Cut (Request.takeAll qs held)
  | [], _ => pure _
  | q :: more, held => bind (attempt (request held q)) fun _ => requests more _

/-- All artifacts that are held are own ones. -/
def OwnsHeld (own : List Suffix) (held : List BoundSymbol) : Prop :=
  ∀ f ∈ held, OwnsArtifact own f.artifact.path

theorem OwnsHeld.mono {own' : List Suffix} (hheld : OwnsHeld own held) (h : own ⊆ own') :
    OwnsHeld own' held :=
  fun f hf => (hheld f hf).mono h

theorem OwnsHeld.append {f : BoundSymbol} (hheld : OwnsHeld own held)
    (hf : OwnsArtifact own f.artifact.path) : OwnsHeld own (held ++ [f]) := by
  intro g hg
  obtain hg | hg := List.mem_append.mp hg
  · exact hheld g hg
  · obtain rfl := List.mem_singleton.mp hg
    exact hf

theorem grown_pure {α : Type} {x : α} {P : List Suffix → α → Prop} (hx : P own x) :
    (pure (ε := CommandError) x).routine.Follows (minding output) own (Grown own P) :=
  ⟨List.Subset.refl own, fun y hy => by cases hy; exact hx⟩

theorem grown_invoke? {f : Option BoundSymbol}
    (hf : ∀ g : BoundSymbol, f = some g → OwnsArtifact own g.artifact.path) :
    (invoke? f).routine.Follows (minding output) own (Grown own fun _ _ => True) := by
  cases f with
  | none => exact grown_pure trivial
  | some g =>
    exact grown_bind (grown_mapError (grown_invoke (hf g rfl))) fun _ _ _ _ => grown_pure trivial

theorem grown_drop? {f : Option BoundSymbol}
    (hf : ∀ g : BoundSymbol, f = some g → OwnsArtifact own g.artifact.path) :
    (drop? f).routine.Follows (minding output) own (Grown own fun _ _ => True) := by
  cases f with
  | none => exact grown_pure trivial
  | some g => exact grown_of_only (hf g rfl).discard

/-- A request that is taken with own artifacts leaves own artifacts. -/
theorem grown_request (hheld : OwnsHeld own held) {q : Request}
    (houtput : ∀ path, q.Writes path → output path) :
    (request held q).routine.Follows (minding output) own (Grown own OwnsHeld) := by
  have hat : ∀ index (f : BoundSymbol), held[index]? = some f → OwnsArtifact own f.artifact.path :=
    fun index f hf => hheld f (List.mem_of_getElem? hf)
  cases q with
  | command c =>
    exact grown_bind (grown_command houtput) fun _ _ h _ => grown_pure (hheld.mono h)
  | inject p plan symbol signature =>
    exact grown_bind (grown_mapError (grown_injectSymbol p plan symbol signature))
      fun f _ h hf => grown_pure ((hheld.mono h).append hf)
  | bind directory t =>
    exact grown_bind (grown_mapError (grown_bindAt directory t))
      fun f _ h hf => grown_pure ((hheld.mono h).append hf)
  | call index =>
    exact grown_bind (grown_invoke? (hat index)) fun _ _ h _ => grown_pure (hheld.mono h)
  | drop index =>
    refine grown_bind (grown_drop? (hat index)) fun _ _ h _ => grown_pure ?_
    intro f hf
    exact hheld.mono h f (List.mem_of_mem_eraseIdx hf)

/-- Each move of a thread minds what belongs to others, whatever it is asked for. -/
theorem grown_requests {qs : List Request}
    (houtput : ∀ q ∈ qs, ∀ path, q.Writes path → output path) (hheld : OwnsHeld own held) :
    (requests qs held).routine.Follows (minding output) own (Grown own fun _ _ => True) := by
  induction qs generalizing own held with
  | nil => exact grown_pure trivial
  | cons q more ih =>
    have hfirst := grown_request hheld (houtput q List.mem_cons_self)
    refine follows_bind_attempt hfirst fun r own' hr => ?_
    have hleft : OwnsHeld own' (r.toOption.getD held) := by
      cases r with
      | error e => exact hheld.mono hr.more
      | ok held' => exact hr.fits held' rfl
    have hrest := ih (fun q hq => houtput q (List.mem_cons_of_mem _ hq)) hleft
    exact hrest.mono fun _ _ hx => hx.before hr.more

end Cut

/-! ## Threads and processes -/

/-- A thread, and how far it has come. -/
structure Thread where
  asked : List Request
  context : Context
  journal : List Moment
  /-- What it drew for the names of its files, the oldest first. -/
  drawn : List Suffix
  left : Routine CommandError Unit

/-- A process. Its threads count together how many names they draw, and never draw so many that
the count starts anew. -/
structure Process where
  cwd : Files.Place
  goBinary : Option String
  drawn : Nat
  threads : Nat → Option Thread

/-- The processes that are alive, by their numbers, and the files that they share. -/
structure System where
  store : Files.Store
  processes : Nat → Option Process

namespace Thread

def start (asked : List Request) (context : Context) : Thread :=
  ⟨asked, context, [], [], (Cut.requests asked []).routine⟩

/-- What the thread writes besides its own files. -/
def Writes (t : Thread) (path : String) : Prop := ∃ q ∈ t.asked, q.Writes path

/-- The thread once it has made a move. -/
def after (t : Thread) (h : Host) (w : World) (m : Move)
    (rest : m.Answer → Routine CommandError Unit) : Thread where
  asked := t.asked
  context := (m.make h w).2.context
  journal := (m.make h w).2.journal
  drawn := t.drawn ++ m.drawn (m.make h w).1
  left := rest (m.make h w).1

end Thread

namespace Process

/-- The world as a thread of the process finds it. -/
def world (P : Process) (store : Files.Store) (t : Thread) : World :=
  ⟨store, P.cwd, P.goBinary, t.context, P.drawn, t.journal⟩

def set (P : Process) (i : Nat) (t : Thread) : Process :=
  { P with threads := Function.update P.threads i (some t) }

end Process

namespace System

def set (S : System) (n : Nat) (P : Process) : System :=
  { S with processes := Function.update S.processes n (some P) }

/-- The system once a thread of a process has made a move. -/
def moved (S : System) (n : Nat) (P : Process) (i : Nat) (t : Thread) (h : Host) (m : Move)
    (rest : m.Answer → Routine CommandError Unit) : System :=
  let w := P.world S.store t
  let u := (m.make h w).2
  { S.set n ({ P with drawn := u.drawn }.set i (t.after h w m rest)) with store := u.store }

/-- A system goes on: a process begins under a free number or ends, a thread begins or makes its
next move, or something else changes the files. The answers that a thread gets from outside may
differ each time. -/
inductive Step : System → System → Prop
  | begins {S : System} {n : Nat} {P : Process} (hfree : S.processes n = none)
      (hdrawn : P.drawn = 0) (hidle : ∀ i, P.threads i = none) : Step S (S.set n P)
  | ends {S : System} {n : Nat} :
      Step S { S with processes := Function.update S.processes n none }
  | enters {S : System} {n : Nat} {P : Process} {i : Nat} (asked : List Request)
      (context : Context) (hP : S.processes n = some P) (hfree : P.threads i = none) :
      Step S (S.set n (P.set i (.start asked context)))
  | moves {S : System} {n : Nat} {P : Process} {i : Nat} {t : Thread} {h : Host} {m : Move}
      {rest : m.Answer → Routine CommandError Unit} (hP : S.processes n = some P)
      (ht : P.threads i = some t) (hleft : t.left = .next m rest) (hn : h.process = n) :
      Step S (S.moved n P i t h m rest)
  | disturbed {S : System} (store : Files.Store) : Step S { S with store }

/-- The systems that come about from files alone. -/
inductive Reachable : System → Prop
  | start (store : Files.Store) : Reachable ⟨store, fun _ => none⟩
  | step {S S' : System} : Reachable S → Step S S' → Reachable S'

end System

/-! ## Drawing names apart -/

/-- A move that minds what belongs to others changes the files, the context and the journal, and
counts what it draws. -/
theorem Move.exists_make {m : Move} {output : String → Prop} {own : List Suffix}
    (hm : m.Minds output own) (h : Host) (w : World) :
    ∃ store context journal, (m.make h w).2 = { w with
      store, context, journal, drawn := w.drawn + (m.drawn (m.make h w).1).length } := by
  cases m with
  | ask tool directory c => exact hm.elim
  | create path bytes =>
    obtain ⟨store, hw⟩ := exists_make_create h w path bytes
    exact ⟨store, _, _, hw⟩
  | write path bytes =>
    obtain ⟨store, hw⟩ := exists_make_write h w path bytes
    exact ⟨store, _, _, hw⟩
  | remove path =>
    obtain ⟨store, hw⟩ := exists_make_remove h w path
    exact ⟨store, _, _, hw⟩
  | launch l =>
    obtain ⟨store, hw⟩ := exists_make_launch h w l
    exact ⟨store, _, _, hw⟩
  | _ => exact ⟨_, _, _, rfl⟩

/-- What a move draws carries the number of its process and the count from before. -/
theorem Move.drawn_make {m : Move} {output : String → Prop} {own : List Suffix}
    (hm : m.Minds output own) (h : Host) (w : World) :
    (m.drawn (m.make h w).1 = [] ∧ (m.make h w).2.drawn = w.drawn) ∨
      ∃ s : Suffix, m.drawn (m.make h w).1 = [s] ∧ s.process = h.process ∧ s.serial = w.drawn ∧
        (m.make h w).2.drawn = w.drawn + 1 := by
  obtain ⟨store, context, journal, hw⟩ := exists_make hm h w
  cases m with
  | draw => exact .inr ⟨w.nextSuffix h, rfl, rfl, rfl, rfl⟩
  | _ => exact .inl ⟨rfl, by rw [hw]; rfl⟩

/-- A move that minds what belongs to others stays in its directory. -/
theorem Move.cwd_make {m : Move} {output : String → Prop} {own : List Suffix}
    (hm : m.Minds output own) (h : Host) (w : World) :
    (m.make h w).2.cwd = w.cwd ∧ (m.make h w).2.goBinary = w.goBinary := by
  obtain ⟨store, context, journal, hw⟩ := exists_make hm h w
  rw [hw]
  exact ⟨rfl, rfl⟩

/-- Which names the threads of a process have drawn, and that they mind what belongs to
others. -/
structure Process.Sound (n : Nat) (P : Process) : Prop where
  minds : ∀ i t, P.threads i = some t →
    t.left.Follows (minding t.Writes) t.drawn fun _ _ => True
  counts : ∀ i t, P.threads i = some t → ∀ s ∈ t.drawn, s.process = n ∧ s.serial < P.drawn
  once : ∀ i t, P.threads i = some t → t.drawn.Nodup
  apart : ∀ i j t u, P.threads i = some t → P.threads j = some u →
    ∀ s ∈ t.drawn, s ∈ u.drawn → i = j

namespace Process

variable {n i : Nat} {P : Process} {t u : Thread}

theorem threads_set {j : Nat} (h : (P.set i t).threads j = some u) :
    (j = i ∧ u = t) ∨ (j ≠ i ∧ P.threads j = some u) := by
  by_cases hj : j = i
  · subst hj
    have hself : (P.set j t).threads j = some t := Function.update_self ..
    exact .inl ⟨rfl, (Option.some.inj (hself.symm.trans h)).symm⟩
  · have hother : (P.set i t).threads j = P.threads j := Function.update_of_ne hj ..
    exact .inr ⟨hj, hother.symm.trans h⟩

theorem sound_of_idle (h : ∀ i, P.threads i = none) : P.Sound n where
  minds i _ ht := nomatch (h i).symm.trans ht
  counts i _ ht := nomatch (h i).symm.trans ht
  once i _ ht := nomatch (h i).symm.trans ht
  apart i _ _ _ ht := nomatch (h i).symm.trans ht

/-- A process stays sound if one of its threads gets as far as `t`, and what is new in `t` was
not counted before. -/
theorem Sound.set (hP : P.Sound n) {count : Nat} (hcount : P.drawn ≤ count)
    (hminds : t.left.Follows (minding t.Writes) t.drawn fun _ _ => True)
    (hcounts : ∀ s ∈ t.drawn, s.process = n ∧ s.serial < count) (honce : t.drawn.Nodup)
    (hnew : ∀ s ∈ t.drawn, P.drawn ≤ s.serial ∨ ∃ u, P.threads i = some u ∧ s ∈ u.drawn) :
    ({ P with drawn := count }.set i t).Sound n := by
  have hapart : ∀ j u, j ≠ i → P.threads j = some u → ∀ s ∈ t.drawn, s ∉ u.drawn := by
    intro j u hj hu s hs hsu
    obtain hfresh | ⟨v, hv, hsv⟩ := hnew s hs
    · exact absurd (hP.counts j u hu s hsu).2 (Nat.not_lt.mpr hfresh)
    · exact hj (hP.apart j i u v hu hv s hsu hsv)
  refine ⟨?_, ?_, ?_, ?_⟩
  · intro j u hu
    obtain ⟨rfl, rfl⟩ | ⟨hj, hu⟩ := threads_set hu
    · exact hminds
    · exact hP.minds j u hu
  · intro j u hu
    obtain ⟨rfl, rfl⟩ | ⟨hj, hu⟩ := threads_set hu
    · exact hcounts
    · intro s hs
      obtain ⟨hprocess, hserial⟩ := hP.counts j u hu s hs
      exact ⟨hprocess, Nat.lt_of_lt_of_le hserial hcount⟩
  · intro j u hu
    obtain ⟨rfl, rfl⟩ | ⟨hj, hu⟩ := threads_set hu
    · exact honce
    · exact hP.once j u hu
  · intro j k u v hu hv s hsu hsv
    obtain ⟨rfl, rfl⟩ | ⟨hj, hju⟩ := threads_set hu
    · obtain ⟨rfl, rfl⟩ | ⟨hk, hkv⟩ := threads_set hv
      · rfl
      · exact absurd hsv (hapart k v hk hkv s hsu)
    · obtain ⟨rfl, rfl⟩ | ⟨hk, hkv⟩ := threads_set hv
      · exact absurd hsu (hapart j u hj hju s hsv)
      · exact hP.apart j k u v hju hkv s hsu hsv

/-- A thread that begins has drawn nothing. -/
theorem Sound.enters (hP : P.Sound n) (i : Nat) (asked : List Request) (context : Context) :
    (P.set i (.start asked context)).Sound n := by
  refine hP.set (Nat.le_refl _) ?_ ?_ List.nodup_nil ?_
  · have hstart : (Cut.requests asked []).routine.Follows
        (minding (Thread.start asked context).Writes) [] (Cut.Grown [] fun _ _ => True) :=
      Cut.grown_requests (fun q hq path hpath => ⟨q, hq, hpath⟩) (fun f hf => nomatch hf)
    exact hstart.mono fun _ _ _ => trivial
  · exact fun s hs => nomatch hs
  · exact fun s hs => nomatch hs

/-- A move keeps a process sound: what it draws carries a count that none was given before. -/
theorem Sound.moves (hP : P.Sound n) (ht : P.threads i = some t) {m : Move}
    {rest : m.Answer → Routine CommandError Unit} (hleft : t.left = .next m rest) {h : Host}
    (hn : h.process = n) (store : Files.Store) :
    ({ P with drawn := (m.make h (P.world store t)).2.drawn }.set i
      (t.after h (P.world store t) m rest)).Sound n := by
  obtain ⟨hm, hrest⟩ : (Routine.next m rest).Follows (minding t.Writes) t.drawn _ :=
    hleft ▸ hP.minds i t ht
  have hminds := hrest (m.make h (P.world store t)).1 _ rfl
  have hold := hP.counts i t ht
  obtain ⟨hnone, hcount⟩ | ⟨s, hone, hprocess, hserial, hcount⟩ :=
    m.drawn_make hm h (P.world store t)
  · have hdrawn : (t.after h (P.world store t) m rest).drawn = t.drawn := by
      unfold Thread.after
      rw [hnone, List.append_nil]
    refine hP.set (Nat.le_of_eq hcount.symm) hminds ?_ ?_ ?_
    · rw [hdrawn, hcount]
      exact hold
    · rw [hdrawn]
      exact hP.once i t ht
    · rw [hdrawn]
      exact fun s hs => .inr ⟨t, ht, hs⟩
  · have hserial : s.serial = P.drawn := hserial
    have hcount : (m.make h (P.world store t)).2.drawn = P.drawn + 1 := hcount
    have hdrawn : (t.after h (P.world store t) m rest).drawn = t.drawn ++ [s] := by
      unfold Thread.after
      rw [hone]
    have hnew : s ∉ t.drawn := by
      intro hs
      have := (hold s hs).2
      omega
    refine hP.set (by omega) hminds ?_ ?_ ?_
    · rw [hdrawn, hcount]
      intro x hx
      obtain hx | hx := List.mem_append.mp hx
      · have := hold x hx
        exact ⟨this.1, by omega⟩
      · obtain rfl := List.mem_singleton.mp hx
        exact ⟨hprocess.trans hn, by omega⟩
    · rw [hdrawn]
      refine List.nodup_append.mpr ⟨hP.once i t ht, by simp, ?_⟩
      rintro x hx y hy rfl
      obtain rfl := List.mem_singleton.mp hy
      exact hnew hx
    · rw [hdrawn]
      intro x hx
      obtain hx | hx := List.mem_append.mp hx
      · exact .inr ⟨t, ht, hx⟩
      · obtain rfl := List.mem_singleton.mp hx
        exact .inl (Nat.le_of_eq hserial.symm)

end Process

namespace System

/-- All processes are sound. -/
def Sound (S : System) : Prop := ∀ n P, S.processes n = some P → P.Sound n

variable {S S' : System}

/-- All other processes are as they were. -/
theorem Sound.update (hS : S.Sound) {n : Nat} {now : Option Process}
    (hnow : ∀ P, now = some P → P.Sound n) :
    Sound { S with processes := Function.update S.processes n now } := by
  intro k Q hQ
  by_cases hk : k = n
  · subst hk
    have hself : Function.update S.processes k now k = now := Function.update_self ..
    exact hnow Q (hself.symm.trans hQ)
  · have hother : Function.update S.processes n now k = S.processes k :=
      Function.update_of_ne hk ..
    exact hS k Q (hother.symm.trans hQ)

theorem Sound.set {n : Nat} {P : Process} (hS : S.Sound) (hP : P.Sound n) : (S.set n P).Sound :=
  hS.update fun Q hQ => by
    cases hQ
    exact hP

theorem Sound.step (hS : S.Sound) (h : S.Step S') : S'.Sound := by
  cases h with
  | begins hfree hdrawn hidle => exact hS.set (Process.sound_of_idle hidle)
  | ends => exact hS.update fun P hP => nomatch hP
  | enters asked context hP hfree => exact hS.set ((hS _ _ hP).enters _ asked context)
  | moves hP ht hleft hn => exact hS.set ((hS _ _ hP).moves ht hleft hn _)
  | disturbed store => exact hS

theorem Reachable.sound (h : S.Reachable) : S.Sound := by
  induction h with
  | start store => exact fun _ _ hP => nomatch hP
  | step _ hstep ih => exact ih.step hstep

end System

/-! ## What moves read and change -/

/-- No name of a temporary file has another beginning than these. -/
theorem Suffix.take_of_mem_names {s : Suffix} {name : String} (h : name ∈ s.names) :
    name.toList.take 5 ∈ ["zz_gy".toList, "gyv-c".toList, "gyv-i".toList] := by
  simp only [names, List.mem_cons, List.not_mem_nil, or_false] at h
  obtain rfl | rfl | rfl := h
  · rw [Injection.take_fileName]
    decide
  · rw [Injection.take_artifactName]
    decide
  · rw [Artifact.take_resultName]
    decide

/-- A source that bears a name of the suffix is the injected file. -/
theorem Suffix.Marks.endsIn_of_isSourcePath {s : Suffix} {path : String} (h : s.Marks path)
    (hsource : Look.IsSourcePath path) : Path.EndsIn path (Injection.fileName s) := by
  obtain ⟨name, hname, hpath⟩ := h
  unfold Look.IsSourcePath at hsource
  rw [hpath.fileName?, Option.bind_some] at hsource
  simp only [names, List.mem_cons, List.not_mem_nil, or_false] at hname
  obtain rfl | rfl | rfl := hname
  · exact hpath
  · rw [s.extension_artifactName] at hsource
    cases hsource
  · rw [s.extension_resultName] at hsource
    exact absurd (Option.some.inj hsource) (by decide)

theorem Suffix.Marks.not_endsIn {s : Suffix} {path name : String} (h : s.Marks path)
    (hname : name.toList.take 5 ∉ ["zz_gy".toList, "gyv-c".toList, "gyv-i".toList]) :
    ¬ Path.EndsIn path name := by
  intro hpath
  obtain ⟨name', hname', hpath'⟩ := h
  cases hpath.fileName?.symm.trans hpath'.fileName?
  exact hname (take_of_mem_names hname')

/-- The arguments tell what is to be built. -/
theorem Toolchain.eq_build_of_arguments {t t' : Toolchain} {c : ToolCall} {path : String}
    (h : t.arguments (.build path) = t'.arguments c) : c = .build path := by
  cases c with
  | get d => exact absurd (List.cons.inj h).1 (by decide)
  | tidy => exact absurd (List.cons.inj h).1 (by decide)
  | build path' =>
    have hlast := congrArg List.getLast? h
    simp only [arguments, List.getLast?_append, List.getLast?_cons_cons,
      List.getLast?_singleton, Option.some_or, Option.some.injEq] at hlast
    rw [hlast]

namespace Move

/-- The move reads the file at the path, or asks it for an answer. -/
def Reads : Move → String → Prop
  | find path', path => path = path'
  | launch l, path => path = l.program ∧ ∃ result, (Artifact.resultVariable, result) ∈ l.environment
  | _, _ => False

/-- The move creates, writes or removes the file at the path, or has it built or written by a
program. -/
def Changes : Move → String → Prop
  | create path' _, path => path = path'
  | write path' _, path => path = path'
  | remove path', path => path = path'
  | launch l, path =>
    (Artifact.resultVariable, path) ∈ l.environment ∨
      ∃ t : Toolchain, l.arguments = t.arguments (.build path)
  | _, _ => False

variable {output : String → Prop} {own : List Suffix} {m : Move} {s : Suffix} {path : String}

theorem Minds.mem_of_reads (hm : m.Minds output own) (hr : m.Reads path) (hs : s.Marks path) :
    s ∈ own ∨ Path.EndsIn path (Injection.fileName s) := by
  cases m with
  | find path' =>
    cases hr
    obtain hsource | hmanifest | hsettings | ⟨t, ht, hpath⟩ := hm
    · exact .inr (hs.endsIn_of_isSourcePath hsource)
    · exact absurd hmanifest (hs.not_endsIn (by decide))
    · exact absurd hsettings (hs.not_endsIn (by decide))
    · exact .inl (hs.unique hpath ▸ ht)
  | launch l =>
    obtain ⟨rfl, result, hresult⟩ := hr
    obtain ⟨t, ht, _, _, _, _, _, _, rfl, hartifact, _⟩ | ⟨_, _, _, hplain, _⟩ := hm
    · have hpath : t.Marks _ := ⟨_, by simp [Suffix.names], hartifact⟩
      exact .inl (hs.unique hpath ▸ ht)
    · rw [hplain] at hresult
      cases hresult
  | _ => exact hr.elim

theorem Minds.mem_of_changes (hm : m.Minds output own) (hc : m.Changes path) (hs : s.Marks path) :
    s ∈ own ∨ ∃ bytes, m = write path bytes ∧ output path := by
  have hmem : ∀ t ∈ own, t.Marks path → s ∈ own := fun t ht hpath => hs.unique hpath ▸ ht
  cases m with
  | create path' bytes =>
    cases hc
    obtain ⟨t, ht, hpath⟩ := hm
    exact .inl (hmem t ht ⟨_, by simp [Suffix.names], hpath⟩)
  | write path' bytes =>
    cases hc
    exact .inr ⟨bytes, rfl, hm⟩
  | remove path' =>
    cases hc
    obtain ⟨t, ht, hpath⟩ := hm
    exact .inl (hmem t ht hpath)
  | launch l =>
    left
    obtain ⟨_, _, t, ht, _, _, _, _, rfl, _, hpath⟩ | ⟨tool, c, harguments, hplain, hbuild⟩ := hm
    · obtain hresult | ⟨tool, harguments⟩ := hc
      · obtain h | h := List.mem_cons.mp hresult
        · exact absurd (Prod.mk.inj h).1 (by decide)
        · obtain ⟨-, rfl⟩ := Prod.mk.inj (List.mem_singleton.mp h)
          exact hmem t ht ⟨_, by simp [Suffix.names], hpath⟩
      · cases harguments
    · obtain hresult | ⟨tool', harguments'⟩ := hc
      · rw [hplain] at hresult
        cases hresult
      · have hc := Toolchain.eq_build_of_arguments (harguments'.symm.trans harguments)
        obtain ⟨t, ht, hpath⟩ := hbuild path hc
        exact hmem t ht ⟨_, by simp [Suffix.names], hpath⟩
  | _ => exact hc.elim

/-- Creating a file leaves alone all that was there. -/
theorem at?_make_create {h : Host} {w : World} {bytes : List UInt8} {q : Files.Place}
    {e : Files.Entry} (he : w.store.at? q = some e) :
    ((create path bytes).make h w).2.store.at? q = some e := by
  have hput : ∀ {bytes : List UInt8} {store : Files.Store},
      (w.record (.creating path)).view.create path bytes = .ok store → store.at? q = some e := by
    intro bytes store hcreate
    obtain ⟨p, -, hvacant, rfl⟩ := Files.View.create_eq_ok_iff.mp hcreate
    have hne : q ≠ p := by
      rintro rfl
      cases he.symm.trans hvacant
    exact (Files.Store.at?_put_of_ne hne).trans he
  show ((Act.createFile path bytes).perform h w).2.store.at? q = some e
  unfold Act.createFile
  rw [Act.perform_ofFunction]
  dsimp only
  split
  · exact he
  · rename_i store hcreate
    split
    · exact hput hcreate
    · split
      · exact he
      · rename_i part hpart
        exact hput hpart

end Move

/-! ## Runs side by side -/

namespace System

/-- The thread `i` of the process `n` is as far as `t`. -/
def Has (S : System) (n i : Nat) (t : Thread) : Prop :=
  ∃ P, S.processes n = some P ∧ P.threads i = some t

end System

/-- However threads of any processes take turns, they draw different names, and a thread takes
for its own only files with names that it drew. Of the files of another it reads at most the
sources, and changes none unless it was asked to write there. Creating the source replaces
nothing. -/
theorem threads_draw_and_use_names_of_their_own {S : System} (hS : S.Reachable) :
    (∀ n i t, S.Has n i t → (t.drawn.flatMap Suffix.names).Nodup) ∧
      (∀ n i t n' i' t', S.Has n i t → S.Has n' i' t' → (n, i) ≠ (n', i') →
        ∀ s ∈ t.drawn, ∀ s' ∈ t'.drawn, ∀ path, s.Marks path → ¬ s'.Marks path) ∧
      (∀ n i t m rest, S.Has n i t → t.left = .next m rest → m.Minds t.Writes t.drawn ∧
        ∀ n' i' t', S.Has n' i' t' → (n, i) ≠ (n', i') → ∀ s ∈ t'.drawn, ∀ path, s.Marks path →
          (m.Reads path → Path.EndsIn path (Injection.fileName s)) ∧
          (m.Changes path → ∃ bytes, m = .write path bytes ∧ t.Writes path)) ∧
      ∀ n P i t h path bytes rest q e, S.store.at? q = some e →
        (S.moved n P i t h (.create path bytes) rest).store.at? q = some e := by
  have hdisjoint : ∀ n i t n' i' t', S.Has n i t → S.Has n' i' t' → (n, i) ≠ (n', i') →
      ∀ s ∈ t.drawn, s ∉ t'.drawn := by
    rintro n i t n' i' t' ⟨P, hP, ht⟩ ⟨P', hP', ht'⟩ hne s hs hs'
    have hn := ((hS.sound n P hP).counts i t ht s hs).1
    have hn' := ((hS.sound n' P' hP').counts i' t' ht' s hs').1
    obtain rfl : n = n' := hn.symm.trans hn'
    cases hP.symm.trans hP'
    cases (hS.sound n P hP).apart i i' t t' ht ht' s hs hs'
    exact hne rfl
  refine ⟨?_, ?_, ?_, ?_⟩
  · rintro n i t ⟨P, hP, ht⟩
    refine List.nodup_flatMap.mpr ⟨fun s _ => s.names_nodup, ?_⟩
    refine ((hS.sound n P hP).once i t ht).imp fun hst => ?_
    exact List.disjoint_left.mpr fun name hs ht => hst (Suffix.eq_of_mem_names hs ht)
  · intro n i t n' i' t' ht ht' hne s hs s' hs' path hpath hpath'
    cases hpath.unique hpath'
    exact hdisjoint n i t n' i' t' ht ht' hne s hs hs'
  · intro n i t m rest ht hleft
    obtain ⟨P, hP, hPt⟩ := ht
    have hfollows := (hS.sound n P hP).minds i t hPt
    rw [hleft] at hfollows
    have hm : m.Minds t.Writes t.drawn := hfollows.1
    refine ⟨hm, fun n' i' t' ht' hne s hs path hpath => ⟨fun hr => ?_, fun hc => ?_⟩⟩
    · exact (hm.mem_of_reads hr hpath).resolve_left fun hown =>
        hdisjoint n i t n' i' t' ⟨P, hP, hPt⟩ ht' hne s hown hs
    · exact (hm.mem_of_changes hc hpath).resolve_left fun hown =>
        hdisjoint n i t n' i' t' ⟨P, hP, hPt⟩ ht' hne s hown hs
  · intro n P i t h path bytes rest q e he
    exact Move.at?_make_create he

/-! ### A source that is read by another -/

namespace System

variable {S : System} {n i : Nat} {t : Thread} {w : World}

/-- The thread is as far as `t`, and finds this world. -/
def Finds (S : System) (n i : Nat) (t : Thread) (w : World) : Prop :=
  ∃ P, S.processes n = some P ∧ P.threads i = some t ∧ P.world S.store t = w

theorem Finds.has (h : S.Finds n i t w) : S.Has n i t := by
  obtain ⟨P, hP, ht, -⟩ := h
  exact ⟨P, hP, ht⟩

/-- A thread can make its next move. -/
theorem Reachable.move (hS : S.Reachable) (ht : S.Finds n i t w) {m : Move}
    {rest : m.Answer → Routine CommandError Unit} (hleft : t.left = .next m rest) (h : Host)
    (hn : h.process = n) :
    ∃ S' : System, S'.Reachable ∧ S'.Finds n i (t.after h w m rest) (m.make h w).2 ∧
      ∀ k, k ≠ n → S'.processes k = S.processes k := by
  obtain ⟨P, hP, hPt, rfl⟩ := ht
  have hm : m.Minds t.Writes t.drawn := by
    have hfollows := (hS.sound n P hP).minds i t hPt
    rw [hleft] at hfollows
    exact hfollows.1
  refine ⟨S.moved n P i t h m rest, hS.step (.moves hP hPt hleft hn),
    ⟨_, Function.update_self .., Function.update_self .., ?_⟩,
    fun k hk => Function.update_of_ne hk ..⟩
  obtain ⟨hcwd, hbinary⟩ := m.cwd_make hm h (P.world S.store t)
  show World.mk _ P.cwd P.goBinary _ _ _ = _
  rw [show P.cwd = _ from hcwd.symm, show P.goBinary = _ from hbinary.symm]
  rfl

/-- A thread can make all moves of a routine that comes first, while the others wait. -/
theorem Reachable.run {ε α : Type} {r : Routine ε α}
    {f : Except ε α → Routine CommandError Unit} {output : String → Prop}
    {Q : Except ε α → List Suffix → Prop} (hS : S.Reachable) (ht : S.Finds n i t w)
    (hleft : t.left = r.andThen f) (hr : r.Follows (minding output) t.drawn Q) (h : Host)
    (hn : h.process = n) :
    ∃ (S' : System) (t' : Thread), S'.Reachable ∧ S'.Finds n i t' (r.run h w).2 ∧
      t'.left = f (r.run h w).1 ∧ Q (r.run h w).1 t'.drawn ∧
        ∀ k, k ≠ n → S'.processes k = S.processes k := by
  induction r generalizing S t w with
  | done x => exact ⟨S, t, hS, ht, hleft, hr, fun _ _ => rfl⟩
  | next m rest ih =>
    obtain ⟨S₁, hS₁, ht₁, hkeep₁⟩ := hS.move ht hleft h hn
    have hrest := hr.2 (m.make h w).1 _ rfl
    obtain ⟨S₂, t₂, hS₂, ht₂, hleft₂, hQ, hkeep₂⟩ := ih _ hS₁ ht₁ rfl hrest
    exact ⟨S₂, t₂, hS₂, ht₂, hleft₂, hQ, fun k hk => (hkeep₂ k hk).trans (hkeep₁ k hk)⟩

/-- A process can begin with one thread. -/
theorem Reachable.begin (hS : S.Reachable) (hfree : S.processes n = none) (asked : List Request)
    (hfresh : w = ⟨S.store, w.cwd, w.goBinary, w.context, 0, []⟩) :
    ∃ S' : System, S'.Reachable ∧ S'.Finds n 0 (.start asked w.context) w ∧
      ∀ k, k ≠ n → S'.processes k = S.processes k := by
  let P : Process := ⟨w.cwd, w.goBinary, 0, fun _ => none⟩
  let S₁ := S.set n P
  have hP : S₁.processes n = some P := Function.update_self ..
  have hS₁ : S₁.Reachable := hS.step (.begins hfree rfl fun _ => rfl)
  refine ⟨S₁.set n (P.set 0 (.start asked w.context)),
    hS₁.step (.enters asked w.context hP rfl), ⟨_, Function.update_self .., rfl, hfresh.symm⟩, ?_⟩
  intro k hk
  exact (Function.update_of_ne hk ..).trans (Function.update_of_ne hk ..)

end System

namespace Sample

/-- Injects into the shop, and holds what describes the routes. -/
def request : Request := .inject project plan "GenerateOpenAPI" .bytes

/-- The routine changes the context to the shop, asks for the host, and then prepares an
injection. -/
def Prepares {ε α : Type} (r : Routine ε α) : Prop :=
  ∃ k : Context → Host → Except Failure Suffix → Routine ε α,
    r = .next (.turn (Context.onProject project.directory)) fun before =>
      .next .host fun h => (Cut.prepare project plan).routine.andThen (k before h)

theorem Prepares.andThen {ε ε' α β : Type} {r : Routine ε α} (hr : Prepares r)
    (f : Except ε α → Routine ε' β) : Prepares (r.andThen f) := by
  obtain ⟨k, rfl⟩ := hr
  refine ⟨fun before h x => (k before h x).andThen f, ?_⟩
  simp only [Routine.andThen, Routine.andThen_assoc]

theorem prepares_inject : Prepares (Cut.inject (Cut.named project) project plan).routine := by
  refine ⟨fun before h x => (Cut.following (fun s => Cut.buildAndLoad (Cut.named project) project
    plan (Injection.filePath project s) (Injection.artifactPath h.tempDir s)) x).andThen fun r =>
      .next (.turn fun _ => before) fun _ => .done r, ?_⟩
  simp only [← Routine.andThen_assoc]
  rfl

theorem prepares_request : Prepares (Cut.requests [request] []).routine :=
  ((((prepares_inject.andThen _).andThen _).andThen _).andThen _).andThen _

/-- A preparation lists the project, and then reads the first source that is no test. -/
theorem exists_prepare_eq_next (p : Project) (plan : Plan) :
    ∃ rest, (Cut.prepare p plan).routine = .next (.list p.directory) rest ∧
      ∀ r path more, Look.sourcesOf p.directory r = .ok (path :: more) →
        Scan.isTest path = false → ∃ rest', rest r = .next (.find path) rest' := by
  refine ⟨_, rfl, fun r path more hr ht => ?_⟩
  dsimp only
  rw [hr]
  show ∃ rest', Look.routine (((Look.firstPackage (path :: more)) >>= _) ) _ = _
  unfold Look.firstPackage
  rw [if_neg (by rw [ht]; decide)]
  exact ⟨_, rfl⟩

/-- The place of the source that the first run writes. -/
def source : Files.Place := ["shop", "zz_gyv_codeinject-1000-7-0.go"]

theorem namesIn_written (bytes : List UInt8) :
    (world.store.put source (.file bytes false)).namesIn ["shop"] =
      ["go.sum", "zz_gyv_codeinject-1000-7-0.go"] := by
  have hfound : (world.store.put source (.file bytes false)).entries.filterMap
      (fun e => Files.Store.nameIn? ["shop"] e.1) = ["zz_gyv_codeinject-1000-7-0.go", "go.sum"] :=
    rfl
  have hlater : Files.Store.nameLe "zz_gyv_codeinject-1000-7-0.go" "go.sum" = false := by
    decide +kernel
  unfold Files.Store.namesIn
  rw [hfound]
  simp [List.mergeSort, hlater]

/-- The only source of the shop is then the one that the first run writes. -/
theorem sourceFiles_written (bytes : List UInt8) :
    Scan.sourceFiles ⟨world.store.put source (.file bytes false), []⟩ project.directory =
      .ok ["/shop/zz_gyv_codeinject-1000-7-0.go"] := by
  have hsum : Scan.namesSource (world.store.put source (.file bytes false)) project.directory
      ["shop"] "go.sum" = false := by
    refine Bool.eq_false_iff.mpr fun h => ?_
    exact absurd ((Scan.namesSource_iff ⟨by decide, by decide, by decide, by decide⟩).mp h).1
      (by decide +kernel)
  have hsource : Scan.namesSource (world.store.put source (.file bytes false)) project.directory
      ["shop"] "zz_gyv_codeinject-1000-7-0.go" = true :=
    (Scan.namesSource_iff ⟨by decide, by decide, by decide, by decide⟩).mpr
      ⟨by decide +kernel, bytes, false, rfl⟩
  have hjoin : Path.join project.directory "zz_gyv_codeinject-1000-7-0.go" =
      "/shop/zz_gyv_codeinject-1000-7-0.go" := by decide +kernel
  rw [Scan.sourceFiles_of_directory (place_directory rfl) rfl]
  dsimp only
  rw [namesIn_written]
  simp [hsum, hsource, hjoin]

/-- The first of two runs on the shop can come to where its source is just written, before the
second begins. -/
theorem exists_first_run :
    ∃ (S : System) (t : Thread) (bytes : List UInt8), S.Reachable ∧ S.Has 7 0 t ∧
      run.suffix ∈ t.drawn ∧ S.store = world.store.put source (.file bytes false) ∧
      S.processes 8 = none := by
  obtain ⟨k, hk⟩ := prepares_request
  obtain ⟨S₁, hS₁, ht₁, hkeep₁⟩ := (System.Reachable.start world.store).begin (n := 7) (w := world)
    rfl [request] rfl
  obtain ⟨S₂, hS₂, ht₂, hkeep₂⟩ := hS₁.move ht₁ hk host rfl
  obtain ⟨S₃, hS₃, ht₃, hkeep₃⟩ := hS₂.move ht₂ rfl host rfl
  obtain ⟨S₄, t₄, hS₄, ht₄, -, hdrawn, hkeep₄⟩ := hS₃.run ht₃ rfl
    (@Cut.grown_prepare (fun _ => False) _ project plan) host rfl
  have hrun : (Cut.prepare project plan).routine.run host run.opened = run.prepared :=
    (Cut.prepare project plan).run_eq _ _
  obtain ⟨s, hs⟩ := hasWritten_run
  obtain ⟨hsuffix, text, q, -, hq, -, hview⟩ :=
    Injection.prepare_ok host run.opened project plan hs
  have hplace : q = source := by
    rw [hsuffix] at hq
    exact hq.unique has_file_run.1
  obtain ⟨P, hP, hPt, hworld⟩ := ht₄
  have hstore : S₄.store = run.prepared.2.store := by
    rw [← hrun]
    exact congrArg World.store hworld
  refine ⟨S₄, t₄, Files.View.encode text, hS₄, ⟨P, hP, hPt⟩, ?_, ?_, ?_⟩
  · have hmem := hdrawn.fits s ((congrArg Prod.fst hrun).trans hs)
    rw [hsuffix] at hmem
    exact hmem
  · rw [hstore]
    exact (congrArg Files.View.store hview).trans (by rw [hplace]; rfl)
  · rw [hkeep₄ 8 (by decide), hkeep₃ 8 (by decide), hkeep₂ 8 (by decide), hkeep₁ 8 (by decide)]

/-- Another run on the shop can come to where it next reads the source that the first one
wrote. -/
theorem exists_second_run :
    ∃ (S : System) (t t' : Thread) (m : Move) (rest : m.Answer → Routine CommandError Unit)
      (bytes : List UInt8),
      S.Reachable ∧ S.Has 7 0 t ∧ run.suffix ∈ t.drawn ∧ S.Has 8 0 t' ∧ t'.left = .next m rest ∧
        m.Reads run.file ∧ Path.EndsIn run.file (Injection.fileName run.suffix) ∧
        S.store.at? source = some (.file bytes false) := by
  obtain ⟨S, t, bytes, hS, ht, hdrawn, hstore, hfree⟩ := exists_first_run
  obtain ⟨k, hk⟩ := prepares_request
  let other : Host := { host with process := 8 }
  obtain ⟨S₁, hS₁, ht₁, hkeep₁⟩ := hS.begin (w := ⟨S.store, [], none, .empty, 0, []⟩) hfree
    [request] rfl
  obtain ⟨S₂, hS₂, ht₂, hkeep₂⟩ := hS₁.move ht₁ hk other rfl
  obtain ⟨S₃, hS₃, ht₃, hkeep₃⟩ := hS₂.move ht₂ rfl other rfl
  obtain ⟨rest, hlist, hfind⟩ := exists_prepare_eq_next project plan
  let found := (⟨S.store, []⟩ : Files.View).list project.directory
  have hfound : Look.sourcesOf project.directory found = .ok [run.file] := by
    refine (Look.seenIn_files project.directory ⟨S.store, []⟩).trans ?_
    rw [hstore, sourceFiles_written bytes]
    decide +kernel
  obtain ⟨rest', hrest'⟩ := hfind found run.file [] hfound (by decide +kernel)
  have hleft₃ := congrArg (Routine.andThen · (k .empty other)) hlist
  obtain ⟨S₄, hS₄, ht₄, hkeep₄⟩ := hS₃.move ht₃ hleft₃ other rfl
  have hleft := congrArg (Routine.andThen · (k .empty other)) hrest'
  obtain ⟨P, hP, hPt⟩ := ht
  have hkept : S₄.processes 7 = some P := by
    rw [hkeep₄ 7 (by decide), hkeep₃ 7 (by decide), hkeep₂ 7 (by decide), hkeep₁ 7 (by decide), hP]
  obtain ⟨P', hP', hPt', hworld⟩ := ht₄
  have hsame : S₄.store = S.store := congrArg World.store hworld
  refine ⟨S₄, t, _, .find run.file, _, bytes, hS₄, ⟨P, hkept, hPt⟩, hdrawn, ⟨P', hP', hPt'⟩, hleft,
    rfl, run.endsIn_file, ?_⟩
  rw [hsame, hstore]
  rfl

/-- The second run only reads what the first one wrote: it has drawn no name of the first, and
changes no file that bears one. -/
theorem two_runs_on_the_shop_use_names_of_their_own :
    ∃ (S : System) (t t' : Thread) (m : Move) (rest : m.Answer → Routine CommandError Unit),
      S.Reachable ∧ S.Has 7 0 t ∧ run.suffix ∈ t.drawn ∧ S.Has 8 0 t' ∧ t'.left = .next m rest ∧
        m.Reads run.file ∧ Path.EndsIn run.file (Injection.fileName run.suffix) ∧
        ∀ path, run.suffix.Marks path → m.Changes path → t'.Writes path := by
  obtain ⟨S, t, t', m, rest, bytes, hS, ht, hs, ht', hleft, hreads, hfile, -⟩ := exists_second_run
  have hmark : run.suffix.Marks run.file := ⟨_, by simp [Suffix.names], hfile⟩
  have hnext := (threads_draw_and_use_names_of_their_own hS).2.2.1 8 0 t' m rest ht' hleft
  have hapart := hnext.2 7 0 t ht (by decide) run.suffix hs
  refine ⟨S, t, t', m, rest, hS, ht, hs, ht', hleft, hreads, (hapart _ hmark).1 hreads, ?_⟩
  intro path hpath hchanges
  obtain ⟨_, _, hwrites⟩ := (hapart path hpath).2 hchanges
  exact hwrites

/-- It is not so that no thread reads a file of another. -/
theorem a_thread_may_read_the_source_of_another :
    ¬ ∀ S : System, S.Reachable → ∀ n i t n' i' t' m rest, S.Has n i t → S.Has n' i' t' →
      (n, i) ≠ (n', i') → t.left = .next m rest → ∀ s ∈ t'.drawn, ∀ path, s.Marks path →
        ¬ m.Reads path := by
  intro h
  obtain ⟨S, t, t', m, rest, bytes, hS, ht, hs, ht', hleft, hreads, hfile, -⟩ := exists_second_run
  exact h S hS 8 0 t' 7 0 t m rest ht' ht (by decide) hleft run.suffix hs run.file
    ⟨_, by simp [Suffix.names], hfile⟩ hreads

end Sample
end Graft
