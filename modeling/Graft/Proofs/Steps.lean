-- What each step comes to when it is taken in a world: its result, and the
-- world after it. A step that only notes something leaves the files as they
-- are, and a removal that is refused is only reported.
import Graft.World

namespace Graft

/-! ## Results -/

theorem eq_ok_of_toOption {ε α : Type} {r : Except ε α} {x : α} (h : r.toOption = some x) :
    r = .ok x := by
  cases r with
  | error e => cases h
  | ok y => exact congrArg Except.ok (Option.some.inj h)

theorem exists_ok_of_toOption_map {ε α β : Type} {r : Except ε α} {f : α → β} {y : β}
    (h : r.toOption.map f = some y) : ∃ x, r = .ok x ∧ f x = y := by
  obtain ⟨x, hx, hy⟩ := Option.map_eq_some_iff.mp h
  exact ⟨x, eq_ok_of_toOption hx, hy⟩

section

variable {ε ε' α β : Type} {r : Except ε α} {f : α → Except ε β}

theorem bind_eq_ok_iff {y : β} : (r >>= f) = .ok y ↔ ∃ x, r = .ok x ∧ f x = .ok y := by
  cases r <;> simp [Bind.bind, Except.bind]

theorem bind_eq_error_iff {e : ε} :
    (r >>= f) = .error e ↔ r = .error e ∨ ∃ x, r = .ok x ∧ f x = .error e := by
  cases r <;> simp [Bind.bind, Except.bind]

theorem mapError_eq_ok_iff {g : ε → ε'} {x : α} : r.mapError g = .ok x ↔ r = .ok x := by
  cases r with
  | error e =>
    constructor
    · intro h
      cases h
    · intro h
      cases h
  | ok y =>
    constructor
    · rintro ⟨⟩
      rfl
    · rintro ⟨⟩
      rfl

theorem mapError_eq_error_iff {g : ε → ε'} {e : ε'} :
    r.mapError g = .error e ↔ ∃ e', r = .error e' ∧ g e' = e := by
  cases r with
  | error e' =>
    constructor
    · rintro ⟨⟩
      exact ⟨e', rfl, rfl⟩
    · rintro ⟨_, ⟨⟩, rfl⟩
      rfl
  | ok x =>
    constructor
    · intro h
      cases h
    · rintro ⟨_, h, -⟩
      cases h

end

/-! ## Worlds -/

namespace World

/-- The world once a phase is entered. -/
def entered (p : Phase) (w : World) : World :=
  World.record (.entered p) { w with context := w.context.inPhase p }

/-- The name that a temporary file would get next. -/
def nextSuffix (h : Host) (w : World) : Suffix := ⟨h.second w.drawn, h.process, w.drawn⟩

/-- The build tool was asked for something. -/
def isAsked : Event → Bool
  | .asked _ => true
  | _ => false

/-- The moments in which the build tool was asked for something. -/
def asks (w : World) : List Moment := w.journal.filter fun m => isAsked m.event

/-- The worlds have the same files, and the build tool was asked for the same. -/
structure Alike (w u : World) : Prop where
  view : u.view = w.view
  asks : u.asks = w.asks

theorem Alike.refl (w : World) : Alike w w := ⟨rfl, rfl⟩

theorem Alike.trans {w u z : World} (hu : Alike w u) (hz : Alike u z) : Alike w z :=
  ⟨hz.view.trans hu.view, hz.asks.trans hu.asks⟩

@[simp] theorem asks_record (w : World) (e : Event) :
    (w.record e).asks = if isAsked e then w.asks ++ [⟨e, w.context, w.store⟩] else w.asks := by
  unfold asks record
  rw [List.filter_append]
  cases he : isAsked e <;> simp [he]

@[simp] theorem store_record (w : World) (e : Event) : (w.record e).store = w.store := rfl

@[simp] theorem nextSuffix_entered (h : Host) (w : World) (p : Phase) :
    (w.entered p).nextSuffix h = w.nextSuffix h := rfl

theorem alike_record (w : World) {e : Event} (he : isAsked e = false) : Alike w (w.record e) :=
  ⟨rfl, by simp [he]⟩

theorem alike_entered (w : World) (p : Phase) : Alike w (w.entered p) := by
  refine ⟨rfl, ?_⟩
  unfold entered
  rw [asks_record]
  rfl

@[simp] theorem store_view (w : World) : w.view.store = w.store := rfl

end World

namespace Act

variable {ε ε' α β : Type} (h : Host) (w : World)

/-! ## One step after the other -/

/-- The second step is taken in the world that the first one leaves, unless that failed. -/
theorem perform_bind (a : Act ε α) (f : α → Act ε β) :
    (a >>= f).perform h w =
      match a.perform h w with
      | (.ok x, u) => (f x).perform h u
      | (.error e, u) => (.error e, u) := by
  have hbind : (a >>= f).perform h w =
      ExceptT.bindCont (fun x => f x h) (a.perform h w).1 (a.perform h w).2 := rfl
  rw [hbind]
  rcases a.perform h w with ⟨_ | x, u⟩
  · rfl
  · rfl

theorem perform_bind_of_ok {a : Act ε α} {f : α → Act ε β} {h : Host} {w u : World} {x : α}
    (ha : a.perform h w = (.ok x, u)) : (a >>= f).perform h w = (f x).perform h u := by
  rw [perform_bind, ha]

theorem perform_bind_of_error {a : Act ε α} {f : α → Act ε β} {h : Host} {w u : World} {e : ε}
    (ha : a.perform h w = (.error e, u)) : (a >>= f).perform h w = (.error e, u) := by
  rw [perform_bind, ha]

/-- How each of two steps relates the world before it to the world after it, both together do,
if this carries on from one world to the next. -/
theorem relates_bind {R : World → World → Prop} (htrans : ∀ {w u z}, R w u → R u z → R w z)
    {a : Act ε α} {f : α → Act ε β} (ha : ∀ h w, R w (a.perform h w).2)
    (hf : ∀ x h w, R w ((f x).perform h w).2) : R w ((a >>= f).perform h w).2 := by
  have hw := ha h w
  rw [perform_bind]
  generalize a.perform h w = z at hw ⊢
  rcases z with ⟨e | x, u⟩
  · exact hw
  · exact htrans hw (hf x h u)

/-- A failure of two steps is one of the first or of the second. -/
theorem failure_bind {P : ε → Prop} {a : Act ε α} {f : α → Act ε β}
    (ha : ∀ h w e, (a.perform h w).1 = .error e → P e)
    (hf : ∀ x h w e, ((f x).perform h w).1 = .error e → P e) {e : ε}
    (he : ((a >>= f).perform h w).1 = .error e) : P e := by
  have hw := ha h w
  rw [perform_bind] at he
  generalize a.perform h w = z at hw he
  rcases z with ⟨e' | x, u⟩
  · cases he
    exact hw e rfl
  · exact hf x h u e he

@[simp] theorem perform_ofFunction (f : Host → World → Except ε α × World) :
    (ofFunction f).perform h w = f h w := rfl

@[simp] theorem perform_read : (read : Act ε Host).perform h w = (.ok h, w) := rfl

/-! ## Steps that leave the files alone -/

@[simp] theorem perform_view : (view : Act ε Files.View).perform h w = (.ok w.view, w) := rfl

@[simp] theorem perform_record (e : Event) :
    (record e : Act ε Unit).perform h w = (.ok (), w.record e) := rfl

@[simp] theorem perform_info (text : String) :
    (info text : Act ε Unit).perform h w = (.ok (), w.record (.said .info text)) := rfl

@[simp] theorem perform_warn (text : String) :
    (warn text : Act ε Unit).perform h w = (.ok (), w.record (.said .warning text)) := rfl

@[simp] theorem perform_advance (p : Phase) :
    (advance p : Act ε Unit).perform h w = (.ok (), w.entered p) := rfl

@[simp] theorem perform_ofExcept (r : Except ε α) :
    (ofExcept r : Act ε α).perform h w = (r, w) := rfl

@[simp] theorem perform_drawSuffix :
    (drawSuffix : Act ε Suffix).perform h w =
      (.ok (w.nextSuffix h), { w with drawn := w.drawn + 1 }) := rfl

/-! ## Steps around steps -/

@[simp] theorem perform_within (change : Context → Context) (a : Act ε α) :
    (within change a).perform h w =
      ((a.perform h { w with context := change w.context }).1,
       { (a.perform h { w with context := change w.context }).2 with context := w.context }) :=
  rfl

@[simp] theorem perform_attempt (a : Act ε α) :
    (attempt a : Act ε' (Except ε α)).perform h w =
      (.ok (a.perform h w).1, (a.perform h w).2) := rfl

@[simp] theorem perform_mapError (f : ε → ε') (a : Act ε α) :
    (mapError f a).perform h w = ((a.perform h w).1.mapError f, (a.perform h w).2) := rfl

/-! ## Removing a file -/

/-- A removal that is only reported never fails, and leaves the files as the removal
itself does. -/
theorem perform_removeOrWarn (complaint path : String) :
    ((removeOrWarn complaint path : Act ε Unit).perform h w).1 = .ok () ∧
      World.Alike ((removeFile path).perform h w).2
        ((removeOrWarn complaint path : Act ε Unit).perform h w).2 := by
  unfold removeOrWarn
  rw [perform_bind, perform_attempt]
  rcases (removeFile path).perform h w with ⟨r, u⟩
  cases r with
  | ok _ => exact ⟨rfl, .refl u⟩
  | error fault => exact ⟨rfl, u.alike_record rfl⟩

end Act
end Graft
