-- The order of versions is total, and two versions that it does not tell apart are the same. It is
-- put together from comparisons of numbers, characters and identifiers, each of which is an order
-- of its own.
import Mathlib
import Graft.Version

namespace Graft.Version

open Std

/-! ## Characters and lists -/

theorem compareChars_eq : compareChars = List.compareLex (compareOn Char.toNat) := by
  funext a b
  induction a generalizing b with
  | nil => cases b <;> rfl
  | cons c cs ih =>
    cases b with
    | nil => rfl
    | cons d ds =>
      rw [compareChars, List.compareLex_cons_cons, ih]
      rfl

theorem compareIds_eq (cmp : List Char → List Char → Ordering) :
    compareIds cmp = List.compareLex cmp := by
  funext a b
  induction a generalizing b with
  | nil => cases b <;> rfl
  | cons id ids ih =>
    cases b with
    | nil => rfl
    | cons jd jds => rw [compareIds, List.compareLex_cons_cons, ih]

instance {cmp : List Char → List Char → Ordering} [TransCmp cmp] : TransCmp (compareIds cmp) :=
  compareIds_eq cmp ▸ inferInstance

instance {cmp : List Char → List Char → Ordering} [LawfulEqCmp cmp] :
    LawfulEqCmp (compareIds cmp) := compareIds_eq cmp ▸ inferInstance

instance : LawfulEqCmp (compareOn Char.toNat) where
  compare_self := ReflCmp.compare_self
  eq_of_compare h := Char.toNat_inj.mp (Nat.compare_eq_eq.mp h)

instance : TransCmp compareChars := compareChars_eq ▸ inferInstance

instance : LawfulEqCmp compareChars := compareChars_eq ▸ inferInstance

section

variable {α β : Type} {cmp : α → α → Ordering}

/-- Things by what they are turned into. -/
theorem transCmp_on [TransCmp cmp] (f : β → α) : TransCmp fun a b => cmp (f a) (f b) where
  eq_swap := OrientedCmp.eq_swap
  isLE_trans := TransCmp.isLE_trans

/-- What the second comparison tells apart, both together tell apart. -/
instance {first : α → α → Ordering} [ReflCmp first] [LawfulEqCmp cmp] :
    LawfulEqCmp (compareLex first cmp) where
  compare_self := ReflCmp.compare_self
  eq_of_compare {a b} h := by
    have hsecond : cmp a b = .eq := (Ordering.then_eq_eq.mp h).2
    exact LawfulEqCmp.eq_of_compare hsecond

end

/-! ## Identifiers -/

/-- Numbers by a comparison of their own, and in front of the words. -/
def byKind (num : List Char → List Char → Ordering) (a b : List Char) : Ordering :=
  match isNumeric a, isNumeric b with
  | true, true => num a b
  | true, false => .lt
  | false, true => .gt
  | false, false => compareChars a b

/-- Numbers by what is behind their leading zeros, and then by how many zeros there are. -/
def comparePadded (a b : List Char) : Ordering :=
  (compareDigits (a.dropWhile (· == '0')) (b.dropWhile (· == '0'))).then
    (compare a.length b.length)

section

variable {num : List Char → List Char → Ordering}

instance [TransCmp num] : TransCmp (byKind num) where
  eq_swap {a b} := by
    have hnumbers : num a b = (num b a).swap := OrientedCmp.eq_swap
    have hwords : compareChars a b = (compareChars b a).swap := OrientedCmp.eq_swap
    unfold byKind
    cases isNumeric a <;> cases isNumeric b
    case false.false => exact hwords
    case true.true => exact hnumbers
    all_goals rfl
  isLE_trans {a b c} hab hbc := by
    unfold byKind at hab hbc ⊢
    cases ha : isNumeric a <;> cases hb : isNumeric b <;> cases hc : isNumeric c <;>
      simp only [ha, hb, hc] at hab hbc ⊢
    case false.false.false => exact TransCmp.isLE_trans hab hbc
    case true.true.true => exact TransCmp.isLE_trans hab hbc
    all_goals first | rfl | exact absurd hab (by decide) | exact absurd hbc (by decide)

instance [LawfulEqCmp num] : LawfulEqCmp (byKind num) where
  compare_self {a} := by
    unfold byKind
    cases isNumeric a
    case false => exact ReflCmp.compare_self
    case true => exact ReflCmp.compare_self
  eq_of_compare {a b} h := by
    unfold byKind at h
    cases ha : isNumeric a <;> cases hb : isNumeric b <;> simp only [ha, hb] at h
    case false.false => exact LawfulEqCmp.eq_of_compare h
    case true.true => exact LawfulEqCmp.eq_of_compare h
    all_goals cases h

end

instance : TransCmp compareDigits :=
  inferInstanceAs (TransCmp (compareLex (compareOn List.length) compareChars))

instance : LawfulEqCmp compareDigits :=
  inferInstanceAs (LawfulEqCmp (compareLex (compareOn List.length) compareChars))

theorem comparePadded_eq : comparePadded = compareLex
    (fun a b => compareDigits (a.dropWhile (· == '0')) (b.dropWhile (· == '0')))
    (compareOn List.length) := rfl

/-- A number is its leading zeros and what is behind them. -/
theorem eq_replicate_append (id : List Char) :
    id = List.replicate (id.length - (id.dropWhile (· == '0')).length) '0' ++
      id.dropWhile (· == '0') := by
  have hzeros : ∀ c ∈ id.takeWhile (· == '0'), c = '0' := fun c hc =>
    eq_of_beq (List.all_eq_true.mp List.all_takeWhile c hc)
  have hsplit := List.takeWhile_append_dropWhile (p := (· == '0')) (l := id)
  have hlength := congrArg List.length hsplit
  rw [List.length_append] at hlength
  rw [← Nat.eq_sub_of_add_eq hlength, ← List.eq_replicate_of_mem hzeros, hsplit]

instance : TransCmp comparePadded := by
  have hstripped : TransCmp fun a b : List Char =>
    compareDigits (a.dropWhile (· == '0')) (b.dropWhile (· == '0')) := transCmp_on _
  rw [comparePadded_eq]
  infer_instance

instance : LawfulEqCmp comparePadded where
  compare_self := ReflCmp.compare_self
  eq_of_compare {a b} h := by
    obtain ⟨hdigits, hlength⟩ := Ordering.then_eq_eq.mp h
    rw [eq_replicate_append a, eq_replicate_append b, LawfulEqCmp.eq_of_compare hdigits,
      Nat.compare_eq_eq.mp hlength]

instance : TransCmp comparePreId := inferInstanceAs (TransCmp (byKind compareDigits))

instance : LawfulEqCmp comparePreId := inferInstanceAs (LawfulEqCmp (byKind compareDigits))

instance : TransCmp compareBuildId := inferInstanceAs (TransCmp (byKind comparePadded))

instance : LawfulEqCmp compareBuildId := inferInstanceAs (LawfulEqCmp (byKind comparePadded))

theorem comparePre_eq :
    comparePre = compareLex (compareOn List.isEmpty) (compareIds comparePreId) := by
  funext a b
  cases a <;> cases b <;> rfl

instance : TransCmp comparePre := comparePre_eq ▸ inferInstance

instance : LawfulEqCmp comparePre := comparePre_eq ▸ inferInstance

/-! ## Numbers by their values -/

/-- The number that an identifier of digits says. -/
def value (id : List Char) : Nat := Nat.ofDigitChars 10 id 0

theorem value_cons (c : Char) (cs : List Char) :
    value (c :: cs) = 10 ^ cs.length * (c.toNat - '0'.toNat) + value cs := by
  rw [value, Nat.ofDigitChars_cons, Nat.ofDigitChars_eq_ofDigitChars_zero, Nat.mul_zero,
    Nat.zero_add, value]

theorem isNumeric_cons {c : Char} {cs : List Char} :
    isNumeric (c :: cs) = true ↔ c.isDigit = true ∧ isNumeric cs = true := by
  rw [isNumeric, List.all_cons, Bool.and_eq_true, isNumeric]

theorem digit_bounds {c : Char} (h : c.isDigit = true) : 48 ≤ c.toNat ∧ c.toNat ≤ 57 := by
  simpa [Char.isDigit, UInt32.le_iff_toNat_le] using h

theorem value_lt {id : List Char} (h : isNumeric id = true) : value id < 10 ^ id.length := by
  induction id with
  | nil => decide
  | cons c cs ih =>
    obtain ⟨hc, hcs⟩ := isNumeric_cons.mp h
    have hdigit : c.toNat - '0'.toNat ≤ 9 := Nat.sub_le_sub_right (digit_bounds hc).2 48
    have hfirst := Nat.mul_le_mul_left (10 ^ cs.length) hdigit
    have hrest := ih hcs
    rw [value_cons, List.length_cons, Nat.pow_succ]
    omega

theorem pow_le_value {c : Char} {cs : List Char} (h : isNumeric (c :: cs) = true) (hc : c ≠ '0') :
    10 ^ cs.length ≤ value (c :: cs) := by
  have hpos : 1 ≤ c.toNat - '0'.toNat := by
    have hbounds := digit_bounds (isNumeric_cons.mp h).1
    have hne : c.toNat ≠ 48 := fun hzero => hc (Char.toNat_inj.mp hzero)
    exact Nat.sub_pos_of_lt (by change 48 < c.toNat; omega)
  have hfirst := Nat.mul_le_mul_left (10 ^ cs.length) hpos
  rw [value_cons]
  omega

theorem compare_mul_add {p x y u v : Nat} (hu : u < p) (hv : v < p) :
    compare (p * x + u) (p * y + v) = (compare x y).then (compare u v) := by
  rcases Nat.lt_trichotomy x y with h | rfl | h
  · have hmul : p * (x + 1) ≤ p * y := Nat.mul_le_mul_left p h
    rw [Nat.mul_add] at hmul
    rw [Nat.compare_eq_lt.mpr h, Nat.compare_eq_lt.mpr (by omega)]
    rfl
  · rw [Nat.compare_eq_eq.mpr rfl, Nat.compare_eq_ite_lt, Nat.compare_eq_ite_lt u v]
    simp only [Nat.add_lt_add_iff_left]
    rfl
  · have hmul : p * (y + 1) ≤ p * x := Nat.mul_le_mul_left p h
    rw [Nat.mul_add] at hmul
    rw [Nat.compare_eq_gt.mpr h, Nat.compare_eq_gt.mpr (by omega)]
    rfl

theorem compare_sub {x y : Nat} (hx : 48 ≤ x) (hy : 48 ≤ y) :
    compare (x - '0'.toNat) (y - '0'.toNat) = compare x y := by
  have hzero : '0'.toNat = 48 := rfl
  rw [hzero, Nat.compare_eq_ite_lt, Nat.compare_eq_ite_lt x]
  simp only [show x - 48 < y - 48 ↔ x < y by omega, show y - 48 < x - 48 ↔ y < x by omega]

theorem compareChars_eq_compare_value {a b : List Char} (ha : isNumeric a = true)
    (hb : isNumeric b = true) (hlength : a.length = b.length) :
    compareChars a b = compare (value a) (value b) := by
  induction a generalizing b with
  | nil =>
    obtain rfl := List.length_eq_zero_iff.mp hlength.symm
    rfl
  | cons c cs ih =>
    match b with
    | d :: ds =>
      obtain ⟨hc, hcs⟩ := isNumeric_cons.mp ha
      obtain ⟨hd, hds⟩ := isNumeric_cons.mp hb
      have hlen : cs.length = ds.length := Nat.succ.inj hlength
      have hds' : value ds < 10 ^ cs.length := hlen ▸ value_lt hds
      rw [value_cons, value_cons, ← hlen, compare_mul_add (value_lt hcs) hds',
        compare_sub (digit_bounds hc).1 (digit_bounds hd).1, compareChars, ih hcs hds hlen]

/-- The shorter number is less, if the longer one has no zero in front. -/
theorem value_lt_value {a b : List Char} (ha : isNumeric a = true) (hb : isNumeric b = true)
    (hlength : a.length < b.length) (hhead : b.head? ≠ some '0') : value a < value b := by
  match b with
  | d :: ds =>
    have hd : d ≠ '0' := fun h => hhead (congrArg some h)
    calc value a < 10 ^ a.length := value_lt ha
      _ ≤ 10 ^ ds.length := Nat.pow_le_pow_right (by decide) (Nat.le_of_lt_succ hlength)
      _ ≤ value (d :: ds) := pow_le_value hb hd

/-- Numbers without zeros in front are compared by their values. -/
theorem compareDigits_eq_compare_value {a b : List Char} (ha : isNumeric a = true)
    (hb : isNumeric b = true) (hahead : b.length < a.length → a.head? ≠ some '0')
    (hbhead : a.length < b.length → b.head? ≠ some '0') :
    compareDigits a b = compare (value a) (value b) := by
  rw [compareDigits]
  rcases Nat.lt_trichotomy a.length b.length with h | h | h
  · rw [Nat.compare_eq_lt.mpr h, Nat.compare_eq_lt.mpr (value_lt_value ha hb h (hbhead h))]
    rfl
  · rw [Nat.compare_eq_eq.mpr h, compareChars_eq_compare_value ha hb h]
    rfl
  · rw [Nat.compare_eq_gt.mpr h, Nat.compare_eq_gt.mpr (value_lt_value hb ha h (hahead h))]
    rfl

theorem value_dropWhile (id : List Char) : value (id.dropWhile (· == '0')) = value id := by
  have hsplit := congrArg value (eq_replicate_append id)
  rw [value, value, Nat.ofDigitChars_append, Nat.ofDigitChars_replicate_zero, Nat.mul_zero] at hsplit
  exact hsplit.symm

theorem head?_dropWhile_ne (id : List Char) : (id.dropWhile (· == '0')).head? ≠ some '0' := by
  intro h
  have hhead := List.head?_dropWhile_not (· == '0') id
  rw [h] at hhead
  exact absurd hhead (by decide)

/-- In a pre-release no number but zero itself has a zero in front. -/
theorem comparePreId_of_isNumeric {a b : List Char} (ha : isNumeric a = true)
    (hb : isNumeric b = true) (hane : a ≠ []) (hbne : b ≠ [])
    (hazero : 1 < a.length → a.head? ≠ some '0') (hbzero : 1 < b.length → b.head? ≠ some '0') :
    comparePreId a b = compare (value a) (value b) := by
  have hapos := List.length_pos_iff.mpr hane
  have hbpos := List.length_pos_iff.mpr hbne
  rw [comparePreId, ha, hb]
  exact compareDigits_eq_compare_value ha hb (fun h => hazero (by omega)) fun h => hbzero (by omega)

/-- In a build numbers may have zeros in front, and these decide where the values do not. -/
theorem compareBuildId_of_isNumeric {a b : List Char} (ha : isNumeric a = true)
    (hb : isNumeric b = true) :
    compareBuildId a b = (compare (value a) (value b)).then (compare a.length b.length) := by
  have hdrop : ∀ {id}, isNumeric id = true → isNumeric (id.dropWhile (· == '0')) = true :=
    fun h => List.all_eq_true.mpr fun c hc =>
      List.all_eq_true.mp h c ((List.dropWhile_sublist _).mem hc)
  rw [compareBuildId, ha, hb]
  dsimp only
  rw [compareDigits_eq_compare_value (hdrop ha) (hdrop hb)
    (fun _ => head?_dropWhile_ne a) (fun _ => head?_dropWhile_ne b), value_dropWhile,
    value_dropWhile]

/-! ## Versions -/

theorem cmp_eq : cmp = compareLex (compareOn major) (compareLex (compareOn minor)
    (compareLex (compareOn patch) (compareLex (fun a b => comparePre a.pre b.pre)
      fun a b => compareIds compareBuildId a.build b.build))) := rfl

instance : TransCmp cmp := by
  have hpre : TransCmp fun a b : Version => comparePre a.pre b.pre := transCmp_on pre
  have hbuild : TransCmp fun a b : Version => compareIds compareBuildId a.build b.build :=
    transCmp_on build
  rw [cmp_eq]
  infer_instance

instance : LawfulEqCmp cmp where
  compare_self := ReflCmp.compare_self
  eq_of_compare {a b} h := by
    obtain ⟨hmajor, h⟩ := Ordering.then_eq_eq.mp h
    obtain ⟨hminor, h⟩ := Ordering.then_eq_eq.mp h
    obtain ⟨hpatch, h⟩ := Ordering.then_eq_eq.mp h
    obtain ⟨hpre, hbuild⟩ := Ordering.then_eq_eq.mp h
    cases a
    cases b
    congr
    · exact Nat.compare_eq_eq.mp hmajor
    · exact Nat.compare_eq_eq.mp hminor
    · exact Nat.compare_eq_eq.mp hpatch
    · exact LawfulEqCmp.eq_of_compare hpre
    · exact LawfulEqCmp.eq_of_compare hbuild

theorem before_iff {a b : Version} : a.before b = true ↔ cmp a b = .lt := beq_iff_eq

/-- Versions by what comes before what. -/
instance : LinearOrder Version where
  le a b := (cmp a b).isLE
  lt a b := a.before b
  le_refl a := ReflCmp.isLE_rfl
  le_trans a b c := TransCmp.isLE_trans
  lt_iff_le_not_ge a b := by
    rw [before_iff]
    exact ⟨fun h => ⟨Ordering.isLE_of_eq_lt h, OrientedCmp.not_isLE_of_lt h⟩,
      fun h => OrientedCmp.lt_of_not_isLE h.2⟩
  le_antisymm a b hab hba := LawfulEqCmp.eq_of_compare (OrientedCmp.isLE_antisymm hab hba)
  le_total a b := by
    by_cases hab : (cmp a b).isLE
    · exact .inl hab
    · exact .inr (Ordering.isLE_of_eq_lt (OrientedCmp.lt_of_not_isLE hab))
  toDecidableLE a b := inferInstanceAs (Decidable ((cmp a b).isLE = true))
  toDecidableLT a b := inferInstanceAs (Decidable (a.before b = true))
  toDecidableEq := inferInstance

theorem before_iff_lt {a b : Version} : a.before b = true ↔ a < b := Iff.rfl

theorem lt_iff {a b : Version} : a < b ↔ cmp a b = .lt := before_iff

/-- A pre-release comes before its release, whatever their builds are. -/
theorem lt_of_pre {a b : Version} (hmajor : a.major = b.major) (hminor : a.minor = b.minor)
    (hpatch : a.patch = b.patch) (ha : a.pre ≠ []) (hb : b.pre = []) : a < b := by
  obtain ⟨id, ids, hpre⟩ := List.exists_cons_of_ne_nil ha
  have hlt : comparePre a.pre b.pre = .lt := by rw [hpre, hb]; rfl
  rw [lt_iff, cmp, hmajor, hminor, hpatch, hlt]
  simp only [ReflCmp.compare_self, Ordering.eq_then, Ordering.then_eq_lt, true_or]

end Graft.Version
