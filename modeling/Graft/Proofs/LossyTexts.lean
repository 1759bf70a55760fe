-- Reading bytes that may be ill-formed. What is well-formed is read as it was
-- encoded. Of what is not, the longest start of a character that the next byte
-- does not go on becomes one replacement character. This settles how every
-- byte stream is read, and no character is read across a line feed.
import Graft.Text.Lossy

namespace Graft.Text

/-! ## The encodings of characters -/

/-- The bytes that encode one character, by the number of bytes. -/
inductive IsSequence : List UInt8 → Prop
  | one {a : UInt8} (ha : a.toNat < 0x80) : IsSequence [a]
  | two {a b : UInt8} (ha : 0xC2 ≤ a.toNat ∧ a.toNat ≤ 0xDF) (hb : isTrail b = true) :
    IsSequence [a, b]
  | three {a b c : UInt8} (ha : 0xE0 ≤ a.toNat ∧ a.toNat ≤ 0xEF)
    (hb : isSecond a.toNat b = true) (hc : isTrail c = true) : IsSequence [a, b, c]
  | four {a b c d : UInt8} (ha : 0xF0 ≤ a.toNat ∧ a.toNat ≤ 0xF4)
    (hb : isSecond a.toNat b = true) (hc : isTrail c = true) (hd : isTrail d = true) :
    IsSequence [a, b, c, d]

theorem isTrail_iff {b : UInt8} : isTrail b = true ↔ 0x80 ≤ b.toNat ∧ b.toNat < 0xC0 := by
  simp [isTrail]

/-- What stands second is a trailing byte, between limits that some first bytes set. -/
theorem isSecond_iff {lead : Nat} {b : UInt8} :
    isSecond lead b = true ↔ 0x80 ≤ b.toNat ∧ b.toNat < 0xC0 ∧
      (lead = 0xE0 → 0xA0 ≤ b.toNat) ∧ (lead = 0xF0 → 0x90 ≤ b.toNat) ∧
      (lead = 0xED → b.toNat ≤ 0x9F) ∧ (lead = 0xF4 → b.toNat ≤ 0x8F) := by
  simp only [isSecond, beq_iff_eq, Bool.and_eq_true, decide_eq_true_iff]
  split <;> split <;> (try split) <;> (try split) <;> omega

theorem toNat_val_ofNat {n : Nat} (h : n < 0xD800 ∨ 0xDFFF < n ∧ n < 0x110000) :
    (Char.ofNat n).val.toNat = n := by
  have hvalid : n.isValidChar := h
  rw [Char.ofNat, dif_pos hvalid]
  rfl

theorem encodeChar_one {a : UInt8} (ha : a.toNat < 0x80) :
    String.utf8EncodeChar (Char.ofNat a.toNat) = [a] := by
  unfold String.utf8EncodeChar
  rw [toNat_val_ofNat (.inl (by omega))]
  dsimp only
  rw [if_pos (by omega), UInt8.ofNat_toNat]

theorem encodeChar_two {a b : UInt8} (ha : 0xC2 ≤ a.toNat ∧ a.toNat ≤ 0xDF)
    (hb : isTrail b = true) :
    String.utf8EncodeChar (Char.ofNat (a.toNat % 32 * 64 + trailBits b)) = [a, b] := by
  rw [isTrail_iff] at hb
  unfold String.utf8EncodeChar trailBits
  rw [toNat_val_ofNat (.inl (by omega))]
  dsimp only
  rw [if_neg (by omega), if_pos (by omega)]
  simp only [List.cons.injEq, and_true, ← UInt8.toNat_inj, UInt8.toNat_ofNat']
  omega

theorem encodeChar_three {a b c : UInt8} (ha : 0xE0 ≤ a.toNat ∧ a.toNat ≤ 0xEF)
    (hb : isSecond a.toNat b = true) (hc : isTrail c = true) :
    String.utf8EncodeChar
      (Char.ofNat ((a.toNat % 16 * 64 + trailBits b) * 64 + trailBits c)) = [a, b, c] := by
  rw [isTrail_iff] at hc
  rw [isSecond_iff] at hb
  have ha' : a.toNat % 16 = a.toNat - 0xE0 := by omega
  have hb' : trailBits b = b.toNat - 0x80 := by unfold trailBits; omega
  have hc' : trailBits c = c.toNat - 0x80 := by unfold trailBits; omega
  have htwice : ∀ k, k / 4096 = k / 64 / 64 := by omega
  unfold String.utf8EncodeChar
  rw [ha', hb', hc', toNat_val_ofNat (by omega)]
  dsimp only
  rw [if_neg (by omega), if_neg (by omega), if_pos (by omega)]
  simp only [List.cons.injEq, and_true, ← UInt8.toNat_inj, UInt8.toNat_ofNat', htwice]
  omega

theorem encodeChar_four {a b c d : UInt8} (ha : 0xF0 ≤ a.toNat ∧ a.toNat ≤ 0xF4)
    (hb : isSecond a.toNat b = true) (hc : isTrail c = true) (hd : isTrail d = true) :
    String.utf8EncodeChar
      (Char.ofNat
        (((a.toNat % 8 * 64 + trailBits b) * 64 + trailBits c) * 64 + trailBits d)) =
      [a, b, c, d] := by
  rw [isTrail_iff] at hc hd
  rw [isSecond_iff] at hb
  have ha' : a.toNat % 8 = a.toNat - 0xF0 := by omega
  have hb' : trailBits b = b.toNat - 0x80 := by unfold trailBits; omega
  have hc' : trailBits c = c.toNat - 0x80 := by unfold trailBits; omega
  have hd' : trailBits d = d.toNat - 0x80 := by unfold trailBits; omega
  have htwice : ∀ k, k / 4096 = k / 64 / 64 := by omega
  have hthrice : ∀ k, k / 262144 = k / 64 / 64 / 64 := by omega
  unfold String.utf8EncodeChar
  rw [ha', hb', hc', hd', toNat_val_ofNat (by omega)]
  dsimp only
  rw [if_neg (by omega), if_neg (by omega), if_neg (by omega)]
  simp only [List.cons.injEq, and_true, ← UInt8.toNat_inj, UInt8.toNat_ofNat', htwice, hthrice]
  omega

theorem isSequence_encodeChar (c : Char) : IsSequence (String.utf8EncodeChar c) := by
  have hvalid : c.val.toNat < 0xD800 ∨ 0xDFFF < c.val.toNat ∧ c.val.toNat < 0x110000 := c.valid
  unfold String.utf8EncodeChar
  dsimp only
  generalize c.val.toNat = n at hvalid ⊢
  have htwice : ∀ k, k / 4096 = k / 64 / 64 := by omega
  have hthrice : ∀ k, k / 262144 = k / 64 / 64 / 64 := by omega
  split
  · refine .one ?_
    rw [UInt8.toNat_ofNat']
    omega
  split
  · refine .two ?_ (isTrail_iff.mpr ?_) <;> simp only [UInt8.toNat_ofNat'] <;> omega
  split
  · refine .three ?_ (isSecond_iff.mpr ?_) (isTrail_iff.mpr ?_) <;>
      simp only [UInt8.toNat_ofNat', htwice] <;> omega
  · refine .four ?_ (isSecond_iff.mpr ?_) (isTrail_iff.mpr ?_) (isTrail_iff.mpr ?_) <;>
      simp only [UInt8.toNat_ofNat', htwice, hthrice] <;> omega

theorem exists_encodeChar {bs : List UInt8} (h : IsSequence bs) :
    ∃ c, String.utf8EncodeChar c = bs := by
  cases h with
  | one ha => exact ⟨_, encodeChar_one ha⟩
  | two ha hb => exact ⟨_, encodeChar_two ha hb⟩
  | three ha hb hc => exact ⟨_, encodeChar_three ha hb hc⟩
  | four ha hb hc hd => exact ⟨_, encodeChar_four ha hb hc hd⟩

/-- No encoding goes on behind another one. -/
theorem eq_of_encodeChar_prefix {x y : Char}
    (h : String.utf8EncodeChar x <+: String.utf8EncodeChar y) : x = y := by
  obtain ⟨more, hmore⟩ := h
  have hx := ByteArray.utf8DecodeChar?_utf8EncodeChar_append (b := more.toByteArray) (c := x)
  have hy := ByteArray.utf8DecodeChar?_utf8EncodeChar_append (b := ByteArray.empty) (c := y)
  rw [← List.toByteArray_append, hmore] at hx
  rw [ByteArray.append_empty, hx] at hy
  exact Option.some.inj hy

/-! ## Starts of characters -/

/-- The bytes stand at the start of the encoding of a character, or are all of it. -/
def OpensChar (bs : List UInt8) : Prop := ∃ c, bs <+: String.utf8EncodeChar c

variable {lead b c d : UInt8} {part rest : List UInt8}

theorem OpensChar.of_front {bs bs' : List UInt8} (h : OpensChar bs') (hp : bs <+: bs') :
    OpensChar bs := by
  obtain ⟨x, hx⟩ := h
  exact ⟨x, hp.trans hx⟩

theorem opensChar_of_isSequence (rest : List UInt8) (h : IsSequence (lead :: part ++ rest)) :
    OpensChar (lead :: part) := by
  obtain ⟨x, hx⟩ := exists_encodeChar h
  exact ⟨x, rest, hx.symm⟩

theorem OpensChar.second (h : OpensChar [lead, b]) :
    0xC2 ≤ lead.toNat ∧ lead.toNat ≤ 0xDF ∧ isTrail b = true ∨
      0xE0 ≤ lead.toNat ∧ lead.toNat ≤ 0xF4 ∧ isSecond lead.toNat b = true := by
  obtain ⟨x, more, hx⟩ := h
  have hs := isSequence_encodeChar x
  rw [← hx] at hs
  cases hs with
  | two ha hb => exact .inl ⟨ha.1, ha.2, hb⟩
  | three ha hb _ => exact .inr ⟨ha.1, by omega, hb⟩
  | four ha hb _ _ => exact .inr ⟨by omega, ha.2, hb⟩

theorem OpensChar.third (h : OpensChar [lead, b, c]) : isTrail c = true := by
  obtain ⟨x, more, hx⟩ := h
  have hs := isSequence_encodeChar x
  rw [← hx] at hs
  cases hs with
  | three _ _ hc => exact hc
  | four _ _ hc _ => exact hc

theorem OpensChar.fourth (h : OpensChar [lead, b, c, d]) : isTrail d = true := by
  obtain ⟨x, more, hx⟩ := h
  have hs := isSequence_encodeChar x
  rw [← hx] at hs
  cases hs with
  | four _ _ _ hd => exact hd

/-- Only the first byte of an encoding can be one of a character of its own. -/
theorem OpensChar.le_of_mem (h : OpensChar (lead :: part)) (hb : b ∈ part) :
    0x80 ≤ b.toNat := by
  obtain ⟨x, more, hx⟩ := h
  have hs := isSequence_encodeChar x
  rw [← hx, List.cons_append] at hs
  have hmem : b ∈ part ++ more := List.mem_append_left more hb
  generalize part ++ more = tail at hs hmem
  cases hs with
  | one => cases hmem
  | two _ hb =>
    rw [isTrail_iff] at hb
    obtain rfl := List.mem_singleton.mp hmem
    exact hb.1
  | three _ hb hc =>
    rw [isSecond_iff] at hb
    rw [isTrail_iff] at hc
    simp only [List.mem_cons, List.not_mem_nil, or_false] at hmem
    rcases hmem with rfl | rfl <;> omega
  | four _ hb hc hd =>
    rw [isSecond_iff] at hb
    rw [isTrail_iff] at hc hd
    simp only [List.mem_cons, List.not_mem_nil, or_false] at hmem
    rcases hmem with rfl | rfl | rfl <;> omega

/-! ## How bytes are read -/

/-- The first byte and the part behind it belong to no character: they are the longest start of
one, which the rest does not go on, or the byte starts none. -/
structure IsBroken (lead : UInt8) (part rest : List UInt8) : Prop where
  opens : part ≠ [] → OpensChar (lead :: part)
  unfinished : ∀ x, String.utf8EncodeChar x ≠ lead :: part
  longest : ∀ b more, rest = b :: more → ¬ OpensChar (lead :: (part ++ [b]))

/-- The first byte and the part behind it are read as a character: they encode it, or they belong
to none and are replaced. -/
inductive ReadAs (lead : UInt8) (part rest : List UInt8) : Char → Prop
  | encoded {x : Char} (h : String.utf8EncodeChar x = lead :: part) : ReadAs lead part rest x
  | replaced (h : IsBroken lead part rest) : ReadAs lead part rest replacement

/-- The bytes are read as the characters, one after the other. -/
inductive Decodes : List UInt8 → List Char → Prop
  | nil : Decodes [] []
  | cons {lead : UInt8} {part rest : List UInt8} {x : Char} {cs : List Char}
    (hx : ReadAs lead part rest x) (h : Decodes rest cs) :
    Decodes (lead :: (part ++ rest)) (x :: cs)

/-! ### One character -/

theorem isBroken_lead (hlead : 0x80 ≤ lead.toNat)
    (h : ∀ b more, rest = b :: more → ¬ OpensChar [lead, b]) : IsBroken lead [] rest where
  opens h := absurd rfl h
  unfinished x hx := by
    have hs := isSequence_encodeChar x
    rw [hx] at hs
    cases hs
    omega
  longest := h

/-- The first byte promises two or three more, and the second one does not go on. -/
theorem isBroken_lead_of_second (hlead : 0xE0 ≤ lead.toNat)
    (h : ∀ b more, rest = b :: more → isSecond lead.toNat b ≠ true) : IsBroken lead [] rest := by
  refine isBroken_lead (by omega) fun b more hrest hopens => ?_
  rcases hopens.second with hsecond | hsecond
  · omega
  · exact h b more hrest hsecond.2.2

theorem isBroken_second (hlead : 0xE0 ≤ lead.toNat ∧ lead.toNat ≤ 0xF4)
    (hb : isSecond lead.toNat b = true) (h : ∀ c more, rest = c :: more → isTrail c ≠ true) :
    IsBroken lead [b] rest where
  opens _ := by
    by_cases hshort : lead.toNat ≤ 0xEF
    · exact opensChar_of_isSequence [0x80] (.three ⟨hlead.1, hshort⟩ hb rfl)
    · exact opensChar_of_isSequence [0x80, 0x80] (.four ⟨by omega, hlead.2⟩ hb rfl rfl)
  unfinished x hx := by
    have hs := isSequence_encodeChar x
    rw [hx] at hs
    cases hs
    omega
  longest c more hrest hopens := h c more hrest hopens.third

theorem isBroken_third (hlead : 0xF0 ≤ lead.toNat ∧ lead.toNat ≤ 0xF4)
    (hb : isSecond lead.toNat b = true) (hc : isTrail c = true)
    (h : ∀ d more, rest = d :: more → isTrail d ≠ true) : IsBroken lead [b, c] rest where
  opens _ := opensChar_of_isSequence [0x80] (.four hlead hb hc rfl)
  unfinished x hx := by
    have hs := isSequence_encodeChar x
    rw [hx] at hs
    cases hs
    omega
  longest d more hrest hopens := h d more hrest hopens.fourth

/-- The result of reading says how many bytes behind the first belong to the character. -/
def ReadsFirst (lead : UInt8) (bytes : List UInt8) (r : Char × Nat) : Prop :=
  ∃ part rest, bytes = part ++ rest ∧ r.2 = part.length ∧ ReadAs lead part rest r.1

theorem readsFirst_of_encodeChar (part : List UInt8) {x : Char}
    (h : String.utf8EncodeChar x = lead :: part) :
    ReadsFirst lead (part ++ rest) (x, part.length) :=
  ⟨part, rest, rfl, rfl, .encoded h⟩

theorem readsFirst_of_isBroken (part : List UInt8) (h : IsBroken lead part rest) :
    ReadsFirst lead (part ++ rest) (replacement, part.length) :=
  ⟨part, rest, rfl, rfl, .replaced h⟩

theorem readsFirst_two {bytes : List UInt8} (ha : 0xC2 ≤ lead.toNat ∧ lead.toNat ≤ 0xDF) :
    ReadsFirst lead bytes (readChar lead bytes) := by
  unfold readChar
  dsimp only
  rw [if_neg (by omega), if_pos ha]
  split
  · rename_i b more
    split
    · rename_i hb
      exact readsFirst_of_encodeChar [b] (encodeChar_two ha hb)
    · rename_i hb
      refine readsFirst_of_isBroken [] (isBroken_lead (by omega) ?_)
      rintro _ _ ⟨⟩ hopens
      rcases hopens.second with hsecond | hsecond
      · exact hb hsecond.2.2
      · omega
  · exact readsFirst_of_isBroken [] (isBroken_lead (by omega) nofun)

/-- Where the second byte does not go on, the first one stands alone. -/
theorem readsFirst_of_second (hlead : 0xE0 ≤ lead.toNat) (hb : isSecond lead.toNat b ≠ true) :
    ReadsFirst lead (b :: rest) (replacement, 0) := by
  refine readsFirst_of_isBroken [] (isBroken_lead_of_second hlead ?_)
  rintro _ _ ⟨⟩
  exact hb

theorem readsFirst_of_third (hlead : 0xE0 ≤ lead.toNat ∧ lead.toNat ≤ 0xF4)
    (hb : isSecond lead.toNat b = true) (hc : isTrail c ≠ true) :
    ReadsFirst lead (b :: c :: rest) (replacement, 1) := by
  refine readsFirst_of_isBroken [b] (isBroken_second hlead hb ?_)
  rintro _ _ ⟨⟩
  exact hc

theorem readsFirst_of_fourth (hlead : 0xF0 ≤ lead.toNat ∧ lead.toNat ≤ 0xF4)
    (hb : isSecond lead.toNat b = true) (hc : isTrail c = true) (hd : isTrail d ≠ true) :
    ReadsFirst lead (b :: c :: d :: rest) (replacement, 2) := by
  refine readsFirst_of_isBroken [b, c] (isBroken_third hlead hb hc ?_)
  rintro _ _ ⟨⟩
  exact hd

/-- One byte is left behind the first. -/
theorem readsFirst_of_last (hlead : 0xE0 ≤ lead.toNat ∧ lead.toNat ≤ 0xF4) :
    ReadsFirst lead [b] (replacement, if isSecond lead.toNat b then 1 else 0) := by
  split
  · rename_i hb
    exact readsFirst_of_isBroken [b] (isBroken_second hlead hb nofun)
  · rename_i hb
    exact readsFirst_of_second hlead.1 hb

theorem readsFirst_three {bytes : List UInt8} (ha : 0xE0 ≤ lead.toNat ∧ lead.toNat ≤ 0xEF) :
    ReadsFirst lead bytes (readChar lead bytes) := by
  have hlead : 0xE0 ≤ lead.toNat ∧ lead.toNat ≤ 0xF4 := by omega
  unfold readChar
  dsimp only
  rw [if_neg (by omega), if_neg (by omega), if_pos ha]
  split
  · rename_i b c more
    by_cases hb : isSecond lead.toNat b = true
    · by_cases hc : isTrail c = true
      · simp only [hb, hc, Bool.not_true, Bool.false_eq_true, if_false]
        exact readsFirst_of_encodeChar [b, c] (encodeChar_three ha hb hc)
      · simp only [hb, hc, Bool.not_true, Bool.not_false, Bool.false_eq_true, if_false, if_true]
        exact readsFirst_of_third hlead hb hc
    · simp only [hb, Bool.not_false, if_true]
      exact readsFirst_of_second ha.1 hb
  · exact readsFirst_of_last hlead
  · exact readsFirst_of_isBroken [] (isBroken_lead (by omega) nofun)

theorem readsFirst_four {bytes : List UInt8} (ha : 0xF0 ≤ lead.toNat ∧ lead.toNat ≤ 0xF4) :
    ReadsFirst lead bytes (readChar lead bytes) := by
  have hlead : 0xE0 ≤ lead.toNat ∧ lead.toNat ≤ 0xF4 := by omega
  unfold readChar
  dsimp only
  rw [if_neg (by omega), if_neg (by omega), if_neg (by omega), if_pos ha]
  split
  · rename_i b c d more
    by_cases hb : isSecond lead.toNat b = true
    · by_cases hc : isTrail c = true
      · by_cases hd : isTrail d = true
        · simp only [hb, hc, hd, Bool.not_true, Bool.false_eq_true, if_false]
          exact readsFirst_of_encodeChar [b, c, d] (encodeChar_four ha hb hc hd)
        · simp only [hb, hc, hd, Bool.not_true, Bool.not_false, Bool.false_eq_true, if_false,
            if_true]
          exact readsFirst_of_fourth ha hb hc hd
      · simp only [hb, hc, Bool.not_true, Bool.not_false, Bool.false_eq_true, if_false, if_true]
        exact readsFirst_of_third hlead hb hc
    · simp only [hb, Bool.not_false, if_true]
      exact readsFirst_of_second hlead.1 hb
  · rename_i b c
    by_cases hb : isSecond lead.toNat b = true
    · by_cases hc : isTrail c = true
      · simp only [hb, hc, Bool.not_true, Bool.false_eq_true, if_false]
        exact readsFirst_of_isBroken [b, c] (isBroken_third ha hb hc nofun)
      · simp only [hb, hc, Bool.not_true, Bool.not_false, Bool.false_eq_true, if_false, if_true]
        exact readsFirst_of_third hlead hb hc
    · simp only [hb, Bool.not_false, if_true]
      exact readsFirst_of_second hlead.1 hb
  · exact readsFirst_of_last hlead
  · exact readsFirst_of_isBroken [] (isBroken_lead (by omega) nofun)

/-- What is read first is a character with all of its bytes, or stands for bytes that belong to
none. -/
theorem readsFirst_readChar (lead : UInt8) (bytes : List UInt8) :
    ReadsFirst lead bytes (readChar lead bytes) := by
  by_cases hone : lead.toNat < 0x80
  · unfold readChar
    dsimp only
    rw [if_pos hone]
    exact readsFirst_of_encodeChar [] (encodeChar_one hone)
  by_cases htwo : 0xC2 ≤ lead.toNat ∧ lead.toNat ≤ 0xDF
  · exact readsFirst_two htwo
  by_cases hthree : 0xE0 ≤ lead.toNat ∧ lead.toNat ≤ 0xEF
  · exact readsFirst_three hthree
  by_cases hfour : 0xF0 ≤ lead.toNat ∧ lead.toNat ≤ 0xF4
  · exact readsFirst_four hfour
  · unfold readChar
    dsimp only
    rw [if_neg hone, if_neg htwo, if_neg hthree, if_neg hfour]
    refine readsFirst_of_isBroken [] (isBroken_lead (by omega) ?_)
    rintro b more rfl hopens
    rcases hopens.second with hsecond | hsecond <;> omega

/-! ### Whole streams -/

theorem decodes_decodeLossy (bytes : List UInt8) : Decodes bytes (decodeLossy bytes) := by
  induction bytes using decodeLossy.induct with
  | case1 =>
    unfold decodeLossy
    exact .nil
  | case2 lead bytes r ih =>
    obtain ⟨part, rest, rfl, hlength, hread⟩ := readsFirst_readChar lead bytes
    have hdrop : (part ++ rest).drop (readChar lead (part ++ rest)).2 = rest := by
      rw [hlength, List.drop_left]
    unfold decodeLossy
    dsimp only
    change Decodes ((part ++ rest).drop (readChar lead (part ++ rest)).2) _ at ih
    rw [hdrop] at ih ⊢
    exact .cons hread ih

/-- What is read as one character cannot be read with more bytes. -/
theorem ReadAs.not_opensChar {x : Char} {more : List UInt8} (h : ReadAs lead part (b :: more) x) :
    ¬ OpensChar (lead :: (part ++ [b])) := by
  cases h with
  | encoded hx =>
    rintro ⟨y, hy⟩
    have hpart : lead :: part <+: String.utf8EncodeChar y := .trans ⟨[b], rfl⟩ hy
    obtain rfl := eq_of_encodeChar_prefix (hx ▸ hpart)
    have hlength := hy.length_le
    rw [hx, List.length_cons, List.length_cons, List.length_append, List.length_singleton]
      at hlength
    omega
  | replaced hbroken => exact hbroken.longest b more rfl

theorem ReadAs.opensChar {x : Char} (h : ReadAs lead part rest x) (hpart : part ≠ []) :
    OpensChar (lead :: part) := by
  cases h with
  | encoded hx => exact ⟨x, hx ▸ List.prefix_rfl⟩
  | replaced hbroken => exact hbroken.opens hpart

theorem ReadAs.char_unique {x y : Char} (hx : ReadAs lead part rest x)
    (hy : ReadAs lead part rest y) : x = y := by
  cases hx with
  | encoded hx =>
    cases hy with
    | encoded hy => exact eq_of_encodeChar_prefix (hx ▸ hy ▸ List.prefix_rfl)
    | replaced hbroken => exact absurd hx (hbroken.unfinished x)
  | replaced hbroken =>
    cases hy with
    | encoded hy => exact absurd hy (hbroken.unfinished y)
    | replaced => rfl

/-- The bytes of a character end where no more of them are read. -/
theorem ReadAs.length_le {part' rest' : List UInt8} {x y : Char} (hx : ReadAs lead part rest x)
    (hy : ReadAs lead part' rest' y) (h : part ++ rest = part' ++ rest') :
    part'.length ≤ part.length := by
  -- A longer part would go on the character that the shorter one is read as.
  refine Nat.le_of_not_lt fun hlonger => ?_
  rcases List.append_eq_append_iff.mp h with ⟨between, rfl, rfl⟩ | ⟨between, rfl, rfl⟩
  · cases between with
    | nil => simp at hlonger
    | cons b more =>
      refine hx.not_opensChar ((hy.opensChar (by simp)).of_front ?_)
      exact ⟨more, by simp⟩
  · rw [List.length_append] at hlonger
    omega

/-- Each byte stream is read in one way. -/
theorem Decodes.unique {bytes : List UInt8} {cs ds : List Char} (h : Decodes bytes cs)
    (h' : Decodes bytes ds) : cs = ds := by
  induction h generalizing ds with
  | nil =>
    cases h'
    rfl
  | @cons lead part rest x cs hx h ih =>
    generalize hbytes : lead :: (part ++ rest) = bytes at h'
    cases h' with
    | nil => cases hbytes
    | @cons lead' part' rest' y ds hy h' =>
      obtain ⟨rfl, hbehind⟩ := List.cons.inj hbytes
      have hlength : part.length = part'.length :=
        Nat.le_antisymm (hy.length_le hx hbehind.symm) (hx.length_le hy hbehind)
      obtain ⟨rfl, rfl⟩ := List.append_inj hbehind hlength
      rw [hx.char_unique hy, ih h']

/-- What encodes characters is read as these characters. -/
theorem decodes_encoded (cs : List Char) : Decodes (cs.flatMap String.utf8EncodeChar) cs := by
  induction cs with
  | nil => exact .nil
  | cons c cs ih =>
    rw [List.flatMap_cons]
    cases hc : String.utf8EncodeChar c with
    | nil => exact absurd hc String.utf8EncodeChar_ne_nil
    | cons lead part => exact .cons (.encoded hc) ih

/-! ## Line feeds -/

/-- A line feed neither goes on a character nor is part of one that is broken off. -/
theorem ReadAs.append_lineFeed {x : Char} (h : ReadAs lead part rest x) (more : List UInt8) :
    ReadAs lead part (rest ++ 10 :: more) x := by
  cases h with
  | encoded hx => exact .encoded hx
  | replaced hbroken =>
    refine .replaced ⟨hbroken.opens, hbroken.unfinished, fun b tail hrest hopens => ?_⟩
    cases rest with
    | nil =>
      cases hrest
      have htrail := hopens.le_of_mem (b := 10) (by simp)
      exact absurd htrail (by decide)
    | cons a rest =>
      cases hrest
      exact hbroken.longest _ rest rfl hopens

/-- The characters in front of a line feed and those behind it are read on their own. -/
theorem Decodes.append_lineFeed {bytes more : List UInt8} {cs ds : List Char}
    (h : Decodes bytes cs) (hmore : Decodes more ds) :
    Decodes (bytes ++ 10 :: more) (cs ++ '\n' :: ds) := by
  induction h with
  | nil =>
    have hfeed : ReadAs 10 [] more '\n' := .encoded rfl
    exact .cons hfeed hmore
  | cons hx h ih =>
    rw [List.cons_append, List.append_assoc]
    exact .cons (hx.append_lineFeed more) ih

theorem decodeLossy_append_lineFeed (bytes more : List UInt8) :
    decodeLossy (bytes ++ 10 :: more) = decodeLossy bytes ++ '\n' :: decodeLossy more :=
  (decodes_decodeLossy _).unique ((decodes_decodeLossy bytes).append_lineFeed
    (decodes_decodeLossy more))

/-- A line feed is read only where there is one. -/
theorem Decodes.mem_of_lineFeed {bytes : List UInt8} {cs : List Char} (h : Decodes bytes cs)
    (hmem : '\n' ∈ cs) : (10 : UInt8) ∈ bytes := by
  induction h with
  | nil => cases hmem
  | @cons lead part rest x cs hx h ih =>
    rcases List.mem_cons.mp hmem with rfl | hmem
    · cases hx with
      | encoded hx =>
        have hencoded : String.utf8EncodeChar '\n' = [10] := rfl
        rw [hencoded] at hx
        obtain ⟨rfl, -⟩ := List.cons.inj hx
        exact List.mem_cons_self
    · simp [ih hmem]

end Graft.Text
