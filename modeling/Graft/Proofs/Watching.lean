-- Watching the moves of a routine. A watch says which moves are allowed in
-- its state, and how its state goes on with each answer. What holds of all
-- moves of a routine is put together from what holds of its parts.
import Graft.Proofs.Routines

namespace Graft

/-- A watch over moves: which are allowed, and the states that can follow an answer. -/
structure Watch (σ : Type) where
  allows : σ → Move → Prop
  after : σ → (m : Move) → m.Answer → σ → Prop

/-- A move that looks, or notes something. -/
def Move.IsQuiet : Move → Prop
  | .host | .here | .list _ | .find _ | .probe _ | .note _ => True
  | _ => False

/-! ## Routines -/

namespace Routine

variable {ε ε' α β σ : Type} {W : Watch σ} {s : σ} {M N : Move → Prop}

/-- Whatever the answers, all moves are allowed, and the result fits to the state at the end. -/
def Follows (W : Watch σ) : Routine ε α → σ → (Except ε α → σ → Prop) → Prop
  | done r, s, Q => Q r s
  | next m rest, s, Q => W.allows s m ∧ ∀ x s', W.after s m x s' → (rest x).Follows W s' Q

theorem Follows.mono {r : Routine ε α} {P Q : Except ε α → σ → Prop} (h : r.Follows W s P)
    (hpq : ∀ x s', P x s' → Q x s') : r.Follows W s Q := by
  induction r generalizing s with
  | done r => exact hpq _ _ h
  | next m rest ih => exact ⟨h.1, fun x s' hs => ih x (h.2 x s' hs)⟩

/-- The second routine goes on in the state that the first one leaves. -/
theorem follows_andThen {r : Routine ε α} {f : Except ε α → Routine ε' β}
    {Q : Except ε' β → σ → Prop} :
    (r.andThen f).Follows W s Q ↔ r.Follows W s fun x s' => (f x).Follows W s' Q := by
  induction r generalizing s with
  | done r => exact Iff.rfl
  | next m rest ih =>
    exact and_congr Iff.rfl (forall_congr' fun x => forall_congr' fun s' =>
      forall_congr' fun _ => ih x)

/-- Whatever the answers, all moves are of one kind. -/
def Only (M : Move → Prop) : Routine ε α → Prop
  | done _ => True
  | next m rest => M m ∧ ∀ x, (rest x).Only M

theorem Only.mono {r : Routine ε α} (h : r.Only M) (hmn : ∀ m, M m → N m) : r.Only N := by
  induction r with
  | done r => trivial
  | next m rest ih => exact ⟨hmn m h.1, fun x => ih x (h.2 x)⟩

theorem Only.andThen {r : Routine ε α} {f : Except ε α → Routine ε' β} (h : r.Only M)
    (hf : ∀ x, (f x).Only M) : (r.andThen f).Only M := by
  induction r with
  | done r => exact hf r
  | next m rest ih => exact ⟨h.1, fun x => ih x (h.2 x)⟩

theorem only_any (r : Routine ε α) : r.Only fun _ => True := by
  induction r with
  | done r => trivial
  | next m rest ih => exact ⟨trivial, ih⟩

/-- Moves that are allowed as long as something holds, and that keep it. -/
theorem Only.follows {r : Routine ε α} {I : σ → Prop} (h : r.Only M)
    (hkeeps : ∀ s m, I s → M m → W.allows s m ∧ ∀ x s', W.after s m x s' → I s') (hs : I s) :
    r.Follows W s fun _ s' => I s' := by
  induction r generalizing s with
  | done r => exact hs
  | next m rest ih =>
    obtain ⟨hm, hafter⟩ := hkeeps s m hs h.1
    exact ⟨hm, fun x s' hx => ih x (h.2 x) (hafter x s' hx)⟩

end Routine

/-! ## Runs -/

/-- How far a run has come: the moves so far, each with its world, and the world now. -/
structure Past where
  before : List (Move × World)
  world : World

namespace Past

def start (w : World) : Past := ⟨[], w⟩

@[simp] theorem before_start (w : World) : (start w).before = [] := rfl

@[simp] theorem world_start (w : World) : (start w).world = w := rfl

/-- One move later. -/
def after (h : Host) (m : Move) (s : Past) : Past :=
  ⟨s.before ++ [(m, s.world)], (m.make h s.world).2⟩

@[simp] theorem before_after (h : Host) (m : Move) (s : Past) :
    (s.after h m).before = s.before ++ [(m, s.world)] := rfl

@[simp] theorem world_after (h : Host) (m : Move) (s : Past) :
    (s.after h m).world = (m.make h s.world).2 := rfl

/-- The watch over the runs with a host. -/
def watch (h : Host) (allows : Past → Move → Prop) : Watch Past where
  allows := allows
  after s m x s' := x = (m.make h s.world).1 ∧ s' = s.after h m

/-- What is allowed to all moves of a routine holds at each point of a run of it. -/
theorem allows_of_points {ε α : Type} {h : Host} {P : Past → Move → Prop} {r : Routine ε α}
    {s : Past} {Q : Except ε α → Past → Prop} (hr : r.Follows (watch h P) s Q)
    {before after : List (Move × World)} {m : Move} {u : World}
    (hpoints : r.points h s.world = before ++ (m, u) :: after) :
    P ⟨s.before ++ before, u⟩ m := by
  induction r generalizing s before with
  | done r => cases before <;> cases hpoints
  | next first rest ih =>
    cases before with
    | nil =>
      cases hpoints
      rw [List.append_nil]
      exact hr.1
    | cons q before =>
      obtain ⟨rfl, hrest⟩ := List.cons.inj hpoints
      have hlater := ih (first.make h s.world).1 (hr.2 _ _ ⟨rfl, rfl⟩) hrest
      rwa [before_after, List.append_assoc] at hlater

/-- What is said of the end of a routine holds at the end of a run of it. -/
theorem holds_of_run {ε α : Type} {h : Host} {P : Past → Move → Prop} {r : Routine ε α}
    {s : Past} {Q : Except ε α → Past → Prop} (hr : r.Follows (watch h P) s Q) :
    Q (r.run h s.world).1 ⟨s.before ++ r.points h s.world, (r.run h s.world).2⟩ := by
  induction r generalizing s with
  | done r =>
    rw [Routine.points, List.append_nil]
    exact hr
  | next m rest ih =>
    have hlater := ih (m.make h s.world).1 (hr.2 _ _ ⟨rfl, rfl⟩)
    rwa [before_after, List.append_assoc] at hlater

end Past

/-! ## Looks -/

namespace Look

variable {ε α β : Type} {P : String → Prop} {Q : α → Prop} {R : β → Prop} {M : Move → Prop}

/-- All paths that are read fit, and so does what is seen. -/
def Reads (P : String → Prop) (Q : α → Prop) : Look α → Prop
  | seen x => Q x
  | here rest => ∀ p, (rest p).Reads P Q
  | list _ rest => ∀ r, (rest r).Reads P Q
  | find path rest => P path ∧ ∀ r, (rest r).Reads P Q
  | probe _ rest => ∀ b, (rest b).Reads P Q

theorem Reads.bind {l : Look α} {f : α → Look β} (h : l.Reads P Q)
    (hf : ∀ x, Q x → (f x).Reads P R) : (l >>= f).Reads P R := by
  induction l with
  | seen x => exact hf x h
  | here rest ih => exact fun p => ih p (h p)
  | list directory rest ih => exact fun r => ih r (h r)
  | find path rest ih => exact ⟨h.1, fun r => ih r (h.2 r)⟩
  | probe path rest ih => exact fun b => ih b (h b)

theorem Reads.map {l : Look α} (h : l.Reads P Q) (k : α → β) :
    (l >>= fun x => pure (k x)).Reads P fun _ => True :=
  h.bind fun _ _ => trivial

/-- The moves of a kind that a look can make: it reads only paths that fit. -/
structure Allowed (M : Move → Prop) (P : String → Prop) : Prop where
  here : M .here
  list : ∀ directory, M (.list directory)
  find : ∀ path, P path → M (.find path)
  probe : ∀ path, M (.probe path)

theorem allowed_of_quiet (hM : ∀ m : Move, m.IsQuiet → M m) : Allowed M P where
  here := hM _ trivial
  list _ := hM _ trivial
  find _ _ := hM _ trivial
  probe _ := hM _ trivial

/-- Something is read, and something is seen. -/
theorem reads_any (l : Look α) : l.Reads (fun _ => True) fun _ => True := by
  induction l with
  | seen x => trivial
  | here rest ih => exact ih
  | list directory rest ih => exact ih
  | find path rest ih => exact ⟨trivial, ih⟩
  | probe path rest ih => exact ih

theorem Reads.only {l : Look α} {k : α → Routine ε β} (h : l.Reads P Q) (hM : Allowed M P)
    (hk : ∀ x, Q x → (k x).Only M) : (l.routine k).Only M := by
  induction l with
  | seen x => exact hk x h
  | here rest ih => exact ⟨hM.here, fun p => ih p (h p)⟩
  | list directory rest ih => exact ⟨hM.list directory, fun r => ih r (h r)⟩
  | find path rest ih => exact ⟨hM.find path h.1, fun r => ih r (h.2 r)⟩
  | probe path rest ih => exact ⟨hM.probe path, fun b => ih b (h b)⟩

/-- A watch goes on behind a look, if what holds of its state is kept by looking. -/
theorem Reads.follows {σ : Type} {W : Watch σ} {I : σ → Prop} {s : σ} {l : Look α}
    {k : α → Routine ε β} {Q' : Except ε β → σ → Prop} (h : l.Reads P Q)
    (hM : ∀ s, I s →
      Allowed (fun m => W.allows s m ∧ ∀ x s', W.after s m x s' → I s') P)
    (hs : I s) (hk : ∀ x s', Q x → I s' → (k x).Follows W s' Q') :
    (l.routine k).Follows W s Q' := by
  induction l generalizing s with
  | seen x => exact hk x s h hs
  | here rest ih =>
    have hnow := (hM s hs).here
    exact ⟨hnow.1, fun p s' hs' => ih p (h p) (hnow.2 p s' hs')⟩
  | list directory rest ih =>
    have hnow := (hM s hs).list directory
    exact ⟨hnow.1, fun r s' hs' => ih r (h r) (hnow.2 r s' hs')⟩
  | find path rest ih =>
    have hnow := (hM s hs).find path h.1
    exact ⟨hnow.1, fun r s' hs' => ih r (h.2 r) (hnow.2 r s' hs')⟩
  | probe path rest ih =>
    have hnow := (hM s hs).probe path
    exact ⟨hnow.1, fun b s' hs' => ih b (h b) (hnow.2 b s' hs')⟩

/-! ### What is read -/

/-- The path leads to a source file, or may. -/
def IsSourcePath (path : String) : Prop := (Path.fileName? path).bind Path.extension? = some "go"

theorem reads_text {path : String} (h : P path) : (text path).Reads P fun _ => True :=
  ⟨h, fun _ => trivial⟩

theorem reads_leads {path : String} (h : P path) : (leads path).Reads P fun _ => True :=
  ⟨h, fun _ => trivial⟩

/-- What a scan lists are source files. -/
theorem reads_files (directory : String) :
    (files directory).Reads P fun r =>
      ∀ found, r = .ok found → ∀ path ∈ found, IsSourcePath path := by
  intro r found hr path hpath
  cases r with
  | error fault => cases hr
  | ok entries =>
    cases hr
    obtain ⟨e, he, rfl⟩ := List.mem_map.mp hpath
    have hsource := (List.mem_filter.mp he).2
    unfold Scan.isSource at hsource
    split at hsource
    · exact eq_of_beq hsource
    · cases hsource

section Scans

variable (hP : ∀ path, IsSourcePath path → P path) (f : Go.Source → List α) (directory : String)

include hP

theorem reads_source {path : String} (h : IsSourcePath path) :
    (source path).Reads P fun _ => True := by
  refine (reads_text (hP path h)).bind fun r _ => ?_
  cases r with
  | error fault => trivial
  | ok text =>
    dsimp only
    cases Go.Source.parse path text <;> trivial

theorem reads_resultsOf {found : List String} (h : ∀ path ∈ found, IsSourcePath path) :
    (resultsOf f found).Reads P fun _ => True := by
  induction found with
  | nil => trivial
  | cons path more ih =>
    refine (reads_source hP (h path List.mem_cons_self)).bind fun r _ => ?_
    cases r with
    | error e => trivial
    | ok s => exact (ih fun p hp => h p (List.mem_cons_of_mem _ hp)).bind fun _ _ => trivial

theorem reads_advance {found : List String} (h : ∀ path ∈ found, IsSourcePath path) :
    (advance f directory found).Reads P fun r =>
      ∀ more, r.2.files = some more → ∀ path ∈ more, IsSourcePath path := by
  induction found with
  | nil =>
    rintro more ⟨⟩ path hpath
    cases hpath
  | cons path more ih =>
    have hmore : ∀ p ∈ more, IsSourcePath p := fun p hp => h p (List.mem_cons_of_mem _ hp)
    refine (reads_source hP (h path List.mem_cons_self)).bind fun r _ => ?_
    cases r with
    | error e =>
      rintro _ ⟨⟩
      exact hmore
    | ok s =>
      dsimp only
      cases f s with
      | nil => exact ih hmore
      | cons x xs =>
        rintro _ ⟨⟩
        exact hmore

theorem reads_nextOf {s : Scan.Stream α}
    (h : ∀ more, s.files = some more → ∀ path ∈ more, IsSourcePath path) :
    (nextOf f s).Reads P fun r =>
      ∀ more, r.2.files = some more → ∀ path ∈ more, IsSourcePath path := by
  unfold nextOf
  cases s.pending with
  | cons x xs => exact h
  | nil =>
    dsimp only
    split
    · exact h
    · cases hfiles : s.files with
      | some found => exact reads_advance hP f _ (h found hfiles)
      | none =>
        refine (reads_files s.directory).bind fun r hr => ?_
        cases r with
        | error e => rintro _ ⟨⟩
        | ok found => exact reads_advance hP f _ (hr found rfl)

theorem reads_firstPackage {found : List String} (h : ∀ path ∈ found, IsSourcePath path) :
    (firstPackage found).Reads P fun _ => True := by
  induction found with
  | nil => trivial
  | cons path more ih =>
    have hmore := ih fun p hp => h p (List.mem_cons_of_mem _ hp)
    unfold firstPackage
    split
    · exact hmore
    · refine (reads_source hP (h path List.mem_cons_self)).bind fun r _ => ?_
      cases r with
      | error e => trivial
      | ok s =>
        dsimp only
        cases s.packageName with
        | some name => trivial
        | none => exact hmore

theorem reads_package : (package directory).Reads P fun _ => True := by
  refine (reads_files directory).bind fun r hr => ?_
  cases r with
  | error e => trivial
  | ok found => exact reads_firstPackage hP (hr found rfl)

theorem reads_seeders : (seeders directory).Reads P fun _ => True := by
  refine (reads_files directory).bind fun r hr => ?_
  cases r with
  | error e => trivial
  | ok found =>
    refine (reads_resultsOf hP _ (hr found rfl)).bind fun names _ => ?_
    cases Scan.collect names <;> trivial

theorem reads_startSites (importPath : String) :
    (Cut.startSites directory importPath).Reads P fun _ => True := by
  have hstart : ∀ more, (Scan.Stream.start directory : Scan.Stream Scan.Site).files = some more →
      ∀ path ∈ more, IsSourcePath path := by
    rintro _ ⟨⟩
  refine (reads_nextOf hP _ hstart).bind fun r hr => ?_
  rcases r with ⟨_ | e | site, rest⟩
  · trivial
  · trivial
  · exact (reads_nextOf hP _ hr).bind fun _ _ => trivial

theorem reads_seedPlan (p : Project) (seeders : List String) :
    (Cut.seedPlan p seeders).Reads P fun _ => True := by
  refine (reads_seeders hP _).bind fun r _ => ?_
  cases r with
  | error e => trivial
  | ok available =>
    dsimp only
    cases Seeder.validate seeders available with
    | error u => trivial
    | ok u =>
      dsimp only
      cases p.modulePath with
      | error e => trivial
      | ok module =>
        refine (reads_package hP _).bind fun r _ => ?_
        cases r <;> trivial

end Scans

section Manifests

variable (hP : ∀ directory, P (Path.join directory Manifest.fileName))

include hP

theorem reads_manifest (hhere : P Manifest.fileName) (directory : String) :
    (manifest directory).Reads P fun _ => True := by
  unfold manifest
  refine (reads_text ?_).bind fun r _ => ?_
  · split
    · exact hhere
    · exact hP directory
  · cases r <;> trivial

theorem reads_nearest : nearest.Reads P fun _ => True := by
  intro p
  dsimp only
  generalize Path.ancestors _ _ = directories
  induction directories with
  | nil => trivial
  | cons directory more ih =>
    refine Reads.bind (Q := fun _ => True) ⟨hP directory, fun _ => trivial⟩ fun found _ => ?_
    cases found with
    | true => trivial
    | false => exact ih

end Manifests

theorem reads_program (searchPath : List String) (name : String) :
    (program searchPath name).Reads P fun _ => True := by
  unfold program
  split
  · trivial
  · split
    · exact fun _ _ => trivial
    · generalize searchPath.map _ = paths
      induction paths with
      | nil => trivial
      | cons path more ih =>
        intro found
        cases found with
        | true => trivial
        | false => exact ih

end Look

/-! ## Steps -/

namespace Cut

variable {ε ε' α β σ : Type} {a : Act ε α} {f : α → Act ε β} {ca : Cut a} {cf : ∀ x, Cut (f x)}

section Only

variable {M : Move → Prop}

theorem only_bind (ha : ca.routine.Only M) (hf : ∀ x, (cf x).routine.Only M) :
    (bind ca cf).routine.Only M :=
  ha.andThen fun r => match r with
    | .ok x => hf x
    | .error _ => trivial

theorem only_attempt (ha : ca.routine.Only M) :
    (attempt ca : Cut (Act.attempt a : Act ε' (Except ε α))).routine.Only M :=
  ha.andThen fun _ => trivial

theorem only_mapError {g : ε → ε'} (ha : ca.routine.Only M) : (mapError g ca).routine.Only M :=
  ha.andThen fun _ => trivial

theorem only_ite {b : Act ε α} {cb : Cut b} {p : Prop} [Decidable p] (ha : ca.routine.Only M)
    (hb : cb.routine.Only M) : (ite p ca cb).routine.Only M := by
  unfold ite
  split
  · exact ha
  · exact hb

end Only

section Follows

variable {W : Watch σ} {s : σ} {P : Except ε α → σ → Prop}

theorem follows_ofExcept {r : Except ε α} (h : P r s) : (ofExcept r).routine.Follows W s P := h

/-- What follows a step goes on where the step ends; a failure ends both. -/
theorem follows_bind {Q : Except ε β → σ → Prop} (ha : ca.routine.Follows W s P)
    (hok : ∀ x s', P (.ok x) s' → (cf x).routine.Follows W s' Q)
    (hfailed : ∀ e s', P (.error e) s' → Q (.error e) s') :
    (bind ca cf).routine.Follows W s Q :=
  Routine.follows_andThen.mpr <| ha.mono fun r s' hr => match r with
    | .ok x => hok x s' hr
    | .error e => hfailed e s' hr

/-- What follows an attempt goes on where it ends, failed or not. -/
theorem follows_bind_attempt {f : Except ε α → Act ε' β} {cf : ∀ r, Cut (f r)}
    {Q : Except ε' β → σ → Prop} (ha : ca.routine.Follows W s P)
    (hnext : ∀ r s', P r s' → (cf r).routine.Follows W s' Q) :
    (bind (attempt ca) cf).routine.Follows W s Q :=
  Routine.follows_andThen.mpr (Routine.follows_andThen.mpr (ha.mono hnext))

theorem follows_mapError {g : ε → ε'} {Q : Except ε' α → σ → Prop}
    (ha : ca.routine.Follows W s P) (h : ∀ r s', P r s' → Q (r.mapError g) s') :
    (mapError g ca).routine.Follows W s Q :=
  Routine.follows_andThen.mpr (ha.mono h)

end Follows
end Cut
end Graft
