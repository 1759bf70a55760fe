-- Versions and their texts. Each reader is described by what it takes off the
-- front of a text and by what stands behind it, and so a text is read as a
-- version exactly if the version is valid and the text is its own.
import Graft.Proofs.Steps
import Graft.Version.Parser

namespace Graft.Version

/-! ## Valid versions -/

/-- The identifier may stand in this part of a version. In a pre-release, a number has no zero in
front. -/
structure IsIdentifier (part : Part) (id : List Char) : Prop where
  nonempty : id ≠ []
  chars : ∀ c ∈ id, isIdChar c = true
  plain : part = .pre → (∀ c ∈ id, c.isDigit = true) → id.head? = some '0' → id = ['0']

/-- The version is one of those that have a text: its numbers are small enough, and its
identifiers are well-formed. -/
structure IsValid (v : Version) : Prop where
  major : v.major < numberBound
  minor : v.minor < numberBound
  patch : v.patch < numberBound
  pre : ∀ id ∈ v.pre, IsIdentifier .pre id
  build : ∀ id ∈ v.build, IsIdentifier .build id

/-- What stands in front goes on no further. -/
def Stops (p : Char → Bool) (rest : List Char) : Prop := ∀ c ∈ rest.head?, p c = false

variable {part : Part} {cs rest : List Char} {n : Nat}

theorem stops_nil (p : Char → Bool) : Stops p [] := fun _ h => by cases h

theorem stops_cons {p : Char → Bool} {c : Char} : Stops p (c :: rest) ↔ p c = false := by
  simp [Stops]

theorem takeWhile_append_of_stops {p : Char → Bool} (h : ∀ c ∈ cs, p c = true)
    (hrest : Stops p rest) : (cs ++ rest).takeWhile p = cs := by
  rw [List.takeWhile_append_of_pos h]
  cases rest with
  | nil => simp
  | cons c rest => simp [stops_cons.mp hrest]

theorem dropWhile_append_of_stops {p : Char → Bool} (h : ∀ c ∈ cs, p c = true)
    (hrest : Stops p rest) : (cs ++ rest).dropWhile p = rest := by
  rw [List.dropWhile_append_of_pos h]
  cases rest with
  | nil => rfl
  | cons c rest => simp [stops_cons.mp hrest]

/-! ## Numbers -/

theorem digits_concat {d : Nat} (hn : 0 < n) (hd : d < 10) :
    digits n ++ [Nat.digitChar d] = digits (n * 10 + d) := by
  have happend := Nat.toDigits_append_toDigits (b := 10) (by decide) hn hd
  rw [Nat.toDigits_of_lt_base hd, Nat.mul_comm] at happend
  exact happend

theorem isDigit_of_mem_digits {c : Char} (h : c ∈ digits n) : c.isDigit = true :=
  Nat.isDigit_of_mem_toDigits (by decide) (by decide) h

theorem digitChar_of_isDigit {c : Char} (h : c.isDigit = true) :
    c.toNat - '0'.toNat < 10 ∧ Nat.digitChar (c.toNat - '0'.toNat) = c := by
  have hc := Char.isDigit_iff_toNat.mp h
  have hzero : '0'.toNat = 48 := rfl
  have hnine : '9'.toNat = 57 := rfl
  have hlt : c.toNat - '0'.toNat < 10 := by omega
  refine ⟨hlt, Char.toNat_inj.mp ?_⟩
  rw [Nat.toNat_digitChar_of_lt_ten hlt]
  omega

theorem readDigits_digitChar {value d : Nat} {seen : Bool} (hd : d < 10)
    (hzero : value = 0 → seen = false) (hbound : value * 10 + d < numberBound) :
    readDigits part value seen (Nat.digitChar d :: cs) =
      readDigits part (value * 10 + d) true cs := by
  have hdigit : (Nat.digitChar d).isDigit = true := by
    rw [Nat.isDigit_digitChar, decide_eq_true_iff]
    exact hd
  have hvalue : (Nat.digitChar d).toNat - '0'.toNat = d := by
    rw [Nat.toNat_digitChar_of_lt_ten hd]
    exact Nat.add_sub_cancel_left 48 d
  have hplain : ¬ (value == 0 && seen) = true := by
    rw [Bool.and_eq_true, beq_iff_eq]
    rintro ⟨hvalue, hseen⟩
    rw [hzero hvalue] at hseen
    cases hseen
  rw [readDigits, if_pos hdigit, if_neg hplain, hvalue]
  exact if_pos hbound

/-- The digits of a number are read as the number. The induction is on the number without its last
digit, which is read after the others. -/
theorem readDigits_digits {n : Nat} (h : n < numberBound) (rest : List Char) :
    readDigits part 0 false (digits n ++ rest) = readDigits part n true rest := by
  by_cases hn : n < 10
  · have hdigits : digits n = [Nat.digitChar n] := Nat.toDigits_of_lt_base hn
    rw [hdigits, List.singleton_append,
      readDigits_digitChar hn (fun _ => rfl) (by rwa [Nat.zero_mul, Nat.zero_add]),
      Nat.zero_mul, Nat.zero_add]
  · have hdigits : digits n = digits (n / 10) ++ [Nat.digitChar (n % 10)] :=
      Nat.toDigits_of_base_le (by decide) (by omega)
    have hsplit : n / 10 * 10 + n % 10 = n := by omega
    rw [hdigits, List.append_assoc, readDigits_digits (by omega), List.singleton_append,
      readDigits_digitChar (by omega) (by omega) (by omega), hsplit]
termination_by n

theorem readDigits_of_stops (h : Stops Char.isDigit rest) :
    readDigits part n true rest = .ok (n, rest) := by
  cases rest with
  | nil => rfl
  | cons c rest =>
    rw [readDigits, if_neg (by simp [stops_cons.mp h])]
    rfl

/-- The digits that are read go on those read before. -/
theorem digits_of_readDigits {value : Nat} (hvalue : value < numberBound)
    (h : readDigits part value true cs = .ok (n, rest)) :
    n < numberBound ∧ Stops Char.isDigit rest ∧
      ∃ ds, cs = ds ++ rest ∧ digits n = digits value ++ ds := by
  induction cs generalizing value with
  | nil =>
    cases h
    exact ⟨hvalue, stops_nil _, [], rfl, by rw [List.append_nil]⟩
  | cons c cs ih =>
    unfold readDigits at h
    split at h
    · rename_i hc
      split at h
      · cases h
      rename_i hzero
      dsimp only at h
      split at h
      · rename_i hbound
        obtain ⟨hn, hstops, ds, rfl, hds⟩ := ih hbound h
        obtain ⟨hd, hchar⟩ := digitChar_of_isDigit hc
        have hpos : 0 < value := by
          refine Nat.pos_of_ne_zero fun hvalue => hzero ?_
          rw [hvalue]
          rfl
        refine ⟨hn, hstops, c :: ds, rfl, ?_⟩
        rw [hds, ← digits_concat hpos hd, hchar, List.append_assoc, List.singleton_append]
      · cases h
    · rename_i hc
      cases h
      exact ⟨hvalue, stops_cons.mpr (by simpa using hc), [], rfl, by rw [List.append_nil]⟩

theorem readNumber_eq_ok_iff :
    readNumber part cs = .ok (n, rest) ↔
      n < numberBound ∧ cs = digits n ++ rest ∧ Stops Char.isDigit rest := by
  constructor
  · intro h
    unfold readNumber at h
    cases cs with
    | nil => cases h
    | cons c cs =>
      unfold readDigits at h
      split at h
      · rename_i hc
        obtain ⟨hd, hchar⟩ := digitChar_of_isDigit hc
        rw [if_neg (by simp)] at h
        dsimp only at h
        rw [Nat.zero_mul, Nat.zero_add] at h
        split at h
        · rename_i hbound
          obtain ⟨hn, hstops, ds, rfl, hds⟩ := digits_of_readDigits hbound h
          have hfirst : digits (c.toNat - '0'.toNat) = [c] := by
            rw [digits, Nat.toDigits_of_lt_base hd, hchar]
          refine ⟨hn, ?_, hstops⟩
          rw [hds, hfirst]
          rfl
        · cases h
      · rw [if_neg Bool.false_ne_true] at h
        cases h
  · rintro ⟨hn, rfl, hstops⟩
    rw [readNumber, readDigits_digits hn, readDigits_of_stops hstops]

theorem readDot_eq_ok_iff : readDot part cs = .ok rest ↔ cs = '.' :: rest := by
  unfold readDot
  split
  · simp
  · simp
  · rename_i hdot
    constructor
    · intro h
      cases h
    · rintro ⟨⟩
      exact absurd rfl hdot

/-! ## Identifiers -/

variable {id : List Char} {ids : List (List Char)}

theorem isIdentifier_iff : IsIdentifier part id ↔
    id ≠ [] ∧ (∀ c ∈ id, isIdChar c = true) ∧ badZero part id = false := by
  have hzero : badZero part id = false ↔ (part = .pre → (∀ c ∈ id, c.isDigit = true) →
      id.head? = some '0' → id.length ≤ 1) := by
    simp only [badZero, isNumeric, Bool.and_eq_false_imp, Bool.and_eq_true, beq_iff_eq,
      List.all_eq_true, decide_eq_true_iff, beq_eq_false_iff_ne, and_imp]
    exact ⟨fun h hp hd hh => Nat.le_of_not_lt fun hl => h hp hd hl hh,
      fun h hp hd hl hh => absurd (h hp hd hh) (Nat.not_le_of_lt hl)⟩
  rw [hzero]
  constructor
  · rintro ⟨hne, hchars, hplain⟩
    refine ⟨hne, hchars, fun hp hd hh => ?_⟩
    rw [hplain hp hd hh]
    exact Nat.le_refl 1
  · rintro ⟨hne, hchars, hlength⟩
    refine ⟨hne, hchars, fun hp hd hh => ?_⟩
    obtain ⟨tail, rfl⟩ := List.head?_eq_some_iff.mp hh
    have htail := hlength hp hd hh
    rw [List.length_cons] at htail
    rw [List.length_eq_zero_iff.mp (Nat.le_zero.mp (Nat.le_of_succ_le_succ htail))]

instance (part : Part) (id : List Char) : Decidable (IsIdentifier part id) :=
  decidable_of_iff (id ≠ [] ∧ id.all isIdChar = true ∧ badZero part id = false)
    (by rw [List.all_eq_true, isIdentifier_iff])

instance (v : Version) : Decidable v.IsValid :=
  decidable_of_iff (v.major < numberBound ∧ v.minor < numberBound ∧ v.patch < numberBound ∧
    (∀ id ∈ v.pre, IsIdentifier .pre id) ∧ ∀ id ∈ v.build, IsIdentifier .build id)
    ⟨fun ⟨hmajor, hminor, hpatch, hpre, hbuild⟩ => ⟨hmajor, hminor, hpatch, hpre, hbuild⟩,
      fun ⟨hmajor, hminor, hpatch, hpre, hbuild⟩ => ⟨hmajor, hminor, hpatch, hpre, hbuild⟩⟩

/-- Behind the last identifier stands neither a dot nor a character that goes on. -/
def EndsIds (rest : List Char) : Prop := Stops (fun c => isIdChar c || c == '.') rest

theorem EndsIds.stops (h : EndsIds rest) : Stops isIdChar rest := fun c hc => by
  have hboth := h c hc
  rw [Bool.or_eq_false_iff] at hboth
  exact hboth.1

theorem EndsIds.ne_dot {more : List Char} (h : EndsIds rest) : rest ≠ '.' :: more := by
  rintro rfl
  exact absurd (h '.' rfl) (by decide)

theorem readIds_last (hid : IsIdentifier part id) (hrest : EndsIds rest) :
    readIds part (id ++ rest) = .ok ([id], rest) := by
  obtain ⟨hne, hchars, hzero⟩ := isIdentifier_iff.mp hid
  unfold readIds
  rw [takeWhile_append_of_stops hchars hrest.stops, if_neg (by simpa using hne),
    if_neg (by simp [hzero])]
  split
  · rename_i more hmore
    rw [dropWhile_append_of_stops hchars hrest.stops] at hmore
    exact absurd hmore hrest.ne_dot
  · rw [dropWhile_append_of_stops hchars hrest.stops]

theorem readIds_dot (hid : IsIdentifier part id) (more : List Char) :
    readIds part (id ++ '.' :: more) = (readIds part more).map fun r => (id :: r.1, r.2) := by
  obtain ⟨hne, hchars, hzero⟩ := isIdentifier_iff.mp hid
  have hstops : Stops isIdChar ('.' :: more) := stops_cons.mpr rfl
  rw [readIds, takeWhile_append_of_stops hchars hstops, if_neg (by simpa using hne),
    if_neg (by simp [hzero])]
  split
  · rename_i more' hmore
    rw [dropWhile_append_of_stops hchars hstops] at hmore
    cases hmore
    rfl
  · rename_i hother
    exact absurd (dropWhile_append_of_stops hchars hstops) (hother more)

theorem dotted_cons (hne : ids ≠ []) : dotted (id :: ids) = id ++ '.' :: dotted ids := by
  cases ids with
  | nil => exact absurd rfl hne
  | cons id' ids => simp [dotted, Text.joinWith]

theorem isIdentifier_takeWhile (hne : ¬ (cs.takeWhile isIdChar).isEmpty = true)
    (hzero : ¬ badZero part (cs.takeWhile isIdChar) = true) :
    IsIdentifier part (cs.takeWhile isIdChar) :=
  isIdentifier_iff.mpr ⟨by simpa using hne, fun _ hc => List.all_eq_true.mp List.all_takeWhile _ hc,
    Bool.not_eq_true _ ▸ hzero⟩

/-- What is read are identifiers with dots between them. The induction takes off the first one and
the dot behind it. -/
theorem ids_of_readIds (h : readIds part cs = .ok (ids, rest)) :
    ids ≠ [] ∧ (∀ id ∈ ids, IsIdentifier part id) ∧ cs = dotted ids ++ rest ∧ EndsIds rest := by
  fun_induction readIds part cs generalizing ids with
  | case1 => cases h
  | case2 => cases h
  | case3 cs id hempty hzero more hmore =>
    rename_i ih
    cases hread : readIds part more with
    | error e =>
      rw [hread] at h
      cases h
    | ok r =>
      rw [hread] at h
      cases h
      obtain ⟨hne, hids, hrest, hends⟩ := ih hread
      refine ⟨List.cons_ne_nil _ _,
        List.forall_mem_cons.mpr ⟨isIdentifier_takeWhile hempty hzero, hids⟩, ?_, hends⟩
      rw [dotted_cons hne, List.append_assoc, List.cons_append, ← hrest, ← hmore,
        List.takeWhile_append_dropWhile]
  | case4 cs id hempty hzero =>
    rename_i hother
    cases h
    refine ⟨List.cons_ne_nil _ _,
      List.forall_mem_cons.mpr ⟨isIdentifier_takeWhile hempty hzero, nofun⟩,
      List.takeWhile_append_dropWhile.symm, fun c hc => ?_⟩
    obtain ⟨more, hmore⟩ := List.head?_eq_some_iff.mp hc
    have hdot : c ≠ '.' := fun heq => hother more (heq ▸ hmore)
    have hchar := List.head?_dropWhile_not isIdChar cs
    rw [hc] at hchar
    simp only at hchar
    simp [hchar, hdot]

/-- Identifiers with dots between them are read, and nothing else. -/
theorem readIds_eq_ok_iff : readIds part cs = .ok (ids, rest) ↔
    ids ≠ [] ∧ (∀ id ∈ ids, IsIdentifier part id) ∧ cs = dotted ids ++ rest ∧ EndsIds rest := by
  refine ⟨ids_of_readIds, ?_⟩
  rintro ⟨hne, hids, rfl, hrest⟩
  induction ids with
  | nil => exact absurd rfl hne
  | cons id ids ih =>
    obtain ⟨hid, hids⟩ := List.forall_mem_cons.mp hids
    by_cases hlast : ids = []
    · subst hlast
      exact readIds_last hid hrest
    · rw [dotted_cons hlast, List.append_assoc, List.cons_append, readIds_dot hid, ih hlast hids]
      rfl

theorem suffix_of_ne_nil {mark : Char} (hne : ids ≠ []) :
    suffix mark ids = mark :: dotted ids := by
  rw [suffix, if_neg (by simpa using hne)]

/-- What reads up to a mark does not read the mark. -/
theorem stops_suffix {p : Char → Bool} {mark : Char} (hmark : p mark = false)
    (hrest : Stops p rest) : Stops p (suffix mark ids ++ rest) := by
  by_cases hne : ids = []
  · subst hne
    exact hrest
  · rw [suffix_of_ne_nil hne]
    exact stops_cons.mpr hmark

theorem readMarked_eq_ok_iff {mark : Char} : readMarked mark part cs = .ok (ids, rest) ↔
    (∀ id ∈ ids, IsIdentifier part id) ∧ cs = suffix mark ids ++ rest ∧
      (ids = [] → rest.head? ≠ some mark) ∧ (ids ≠ [] → EndsIds rest) := by
  unfold readMarked
  split
  · constructor
    · intro h
      cases h
      exact ⟨List.forall_mem_nil _, rfl, (fun _ h => by cases h), fun hne => absurd rfl hne⟩
    · rintro ⟨-, hcs, -⟩
      by_cases hne : ids = []
      · subst hne
        cases hcs
        rfl
      · rw [suffix_of_ne_nil hne] at hcs
        cases hcs
  · rename_i c cs
    split
    · rename_i hmark
      rw [beq_iff_eq] at hmark
      subst hmark
      rw [readIds_eq_ok_iff]
      constructor
      · rintro ⟨hne, hids, rfl, hends⟩
        rw [suffix_of_ne_nil hne]
        exact ⟨hids, rfl, fun h => absurd h hne, fun _ => hends⟩
      · rintro ⟨hids, hcs, hhead, hends⟩
        by_cases hne : ids = []
        · subst hne
          cases hcs
          exact absurd rfl (hhead rfl)
        · rw [suffix_of_ne_nil hne] at hcs
          cases hcs
          exact ⟨hne, hids, rfl, hends hne⟩
    · rename_i hmark
      rw [beq_iff_eq] at hmark
      constructor
      · intro h
        cases h
        exact ⟨List.forall_mem_nil _, rfl, fun _ hhead => hmark (Option.some.inj hhead),
          fun hne => absurd rfl hne⟩
      · rintro ⟨-, hcs, -⟩
        by_cases hne : ids = []
        · subst hne
          cases hcs
          rfl
        · rw [suffix_of_ne_nil hne] at hcs
          cases hcs
          exact absurd rfl hmark

/-! ## Versions -/

theorem digits_ne_nil (n : Nat) : digits n ≠ [] := by
  have hlength := Nat.length_toDigits_pos (b := 10) (n := n)
  exact List.ne_nil_of_length_pos hlength

theorem chars_eq (v : Version) : v.chars = digits v.major ++ '.' :: (digits v.minor ++ '.' ::
    (digits v.patch ++ (suffix '-' v.pre ++ (suffix '+' v.build ++ [])))) := by
  simp [chars]

/-- A text is read as a version exactly if the version is valid and the text is its own. -/
theorem parseChars_eq_ok_iff {v : Version} :
    parseChars cs = .ok v ↔ v.IsValid ∧ cs = v.chars := by
  by_cases hempty : cs.isEmpty = true
  · obtain rfl := List.isEmpty_iff.mp hempty
    constructor
    · intro h
      cases h
    · rintro ⟨-, hcs⟩
      rw [chars_eq] at hcs
      exact absurd (List.append_eq_nil_iff.mp hcs.symm).1 (digits_ne_nil _)
  unfold parseChars
  simp only [hempty, Bool.false_eq_true, if_false, bind_eq_ok_iff, Prod.exists,
    readNumber_eq_ok_iff, readDot_eq_ok_iff, readMarked_eq_ok_iff]
  constructor
  · rintro ⟨major, _, ⟨hmajor, rfl, -⟩, _, rfl, minor, _, ⟨hminor, rfl, -⟩, _, rfl, patch, _,
      ⟨hpatch, rfl, -⟩, pre, _, ⟨hpre, rfl, -⟩, build, last, ⟨hbuild, rfl, -⟩, hv⟩
    cases last with
    | nil =>
      cases hv
      exact ⟨⟨hmajor, hminor, hpatch, hpre, hbuild⟩,
        (chars_eq ⟨major, minor, patch, pre, build⟩).symm⟩
    | cons c last => cases hv
  · rintro ⟨hv, rfl⟩
    have hdot : ∀ cs, Stops Char.isDigit ('.' :: cs) := fun _ => stops_cons.mpr rfl
    have hends : EndsIds (suffix '+' v.build ++ []) := stops_suffix rfl (stops_nil _)
    refine ⟨v.major, _, ⟨hv.major, chars_eq v, hdot _⟩, _, rfl, v.minor, _,
      ⟨hv.minor, rfl, hdot _⟩, _, rfl, v.patch, _,
      ⟨hv.patch, rfl, stops_suffix rfl (stops_suffix rfl (stops_nil _))⟩, v.pre, _,
      ⟨hv.pre, rfl, fun _ => ?_, fun _ => hends⟩, v.build, [],
      ⟨hv.build, rfl, (fun _ h => by cases h), fun _ => stops_nil _⟩, rfl⟩
    exact fun hhead => absurd (hends '-' hhead) (by decide)

end Graft.Version
