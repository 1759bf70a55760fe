-- Bytes that a program writes in base 64: groups of three as four digits, and
-- padding behind the digits of a last group that is shorter. They are read as
-- the bytes that they were.
import Graft.Base64
import Graft.Proofs.FilesAtPaths

namespace Graft

namespace Files.View

/-- Small bytes are the bytes of the text of the same characters. -/
theorem encode_ascii {bytes : List UInt8} (h : ∀ b ∈ bytes, b.toNat < 128) :
    encode (String.ofList (bytes.map fun b => Char.ofNat b.toNat)) = bytes := by
  rw [encode_ofList]
  induction bytes with
  | nil => rfl
  | cons b bytes ih =>
    obtain ⟨hb, hbytes⟩ := List.forall_mem_cons.1 h
    have hall : ∀ n < 128, String.utf8EncodeChar (Char.ofNat n) = [UInt8.ofNat n] := by decide
    rw [List.map_cons, List.flatMap_cons, ih hbytes, hall b.toNat hb, UInt8.ofNat_toNat]
    rfl

end Files.View

namespace Base64

/-! ## Writing -/

/-- The digit that stands for a number below 64. -/
def letter (n : Nat) : UInt8 :=
  if n < 26 then UInt8.ofNat (n + 65)
  else if n < 52 then UInt8.ofNat (n - 26 + 97)
  else if n < 62 then UInt8.ofNat (n - 52 + 48)
  else if n = 62 then 43
  else 47

/-! The digits of a group of three bytes. -/

def first (a : UInt8) : Nat := a.toNat / 4

def second (a b : UInt8) : Nat := a.toNat % 4 * 16 + b.toNat / 16

def third (b c : UInt8) : Nat := b.toNat % 16 * 4 + c.toNat / 64

def fourth (c : UInt8) : Nat := c.toNat % 64

def encode : List UInt8 → List UInt8
  | [] => []
  | [a] => [letter (first a), letter (second a 0), pad, pad]
  | [a, b] => [letter (first a), letter (second a b), letter (third b 0), pad]
  | a :: b :: c :: rest =>
    letter (first a) :: letter (second a b) :: letter (third b c) :: letter (fourth c) ::
      encode rest

/-- The bytes as a text. -/
def text (bytes : List UInt8) : String :=
  String.ofList ((encode bytes).map fun b => Char.ofNat b.toNat)

/-! ## Digits -/

theorem digit?_letter : ∀ n < 64, digit? (letter n) = some n := by decide

theorem letter_ne_pad : ∀ n < 64, letter n ≠ pad := by decide

theorem toNat_letter_lt : ∀ n < 64, (letter n).toNat < 128 := by decide

section
variable (a b c : UInt8)

theorem first_lt : first a < 64 := by
  have := a.toNat_lt
  unfold first
  omega

theorem second_lt : second a b < 64 := by
  have := b.toNat_lt
  unfold second
  omega

theorem third_lt : third b c < 64 := by
  have := c.toNat_lt
  unfold third
  omega

theorem fourth_lt : fourth c < 64 := Nat.mod_lt _ (by decide)

theorem first_byte : UInt8.ofNat (first a * 4 + second a b / 16) = a := by
  have := b.toNat_lt
  have h : first a * 4 + second a b / 16 = a.toNat := by
    unfold first second
    omega
  rw [h, UInt8.ofNat_toNat]

theorem second_byte : UInt8.ofNat (second a b % 16 * 16 + third b c / 4) = b := by
  have := b.toNat_lt
  have := c.toNat_lt
  have h : second a b % 16 * 16 + third b c / 4 = b.toNat := by
    unfold second third
    omega
  rw [h, UInt8.ofNat_toNat]

theorem third_byte : UInt8.ofNat (third b c % 4 * 64 + fourth c) = c := by
  have := c.toNat_lt
  have h : third b c % 4 * 64 + fourth c = c.toNat := by
    unfold third fourth
    omega
  rw [h, UInt8.ofNat_toNat]

theorem encode_lt {bytes : List UInt8} : ∀ d ∈ encode bytes, d.toNat < 128 := by
  have hpad : pad.toNat < 128 := by decide
  induction bytes using encode.induct with
  | case1 => simp [encode]
  | case2 a =>
    simp [encode, toNat_letter_lt _ (first_lt a), toNat_letter_lt _ (second_lt a 0), hpad]
  | case3 a b =>
    simp [encode, toNat_letter_lt _ (first_lt a), toNat_letter_lt _ (second_lt a b),
      toNat_letter_lt _ (third_lt b 0), hpad]
  | case4 a b c rest ih =>
    simp [encode, toNat_letter_lt _ (first_lt a), toNat_letter_lt _ (second_lt a b),
      toNat_letter_lt _ (third_lt b c), toNat_letter_lt _ (fourth_lt c)]
    exact ih

end

/-! ## Whole groups -/

theorem length_encode {bytes : List UInt8} (h : bytes.length % 3 = 0) :
    (encode bytes).length % 4 = 0 := by
  induction bytes using encode.induct with
  | case1 => rfl
  | case2 a => cases h
  | case3 a b => cases h
  | case4 a b c rest ih =>
    have := ih (by simp only [List.length_cons] at h; omega)
    simp only [encode, List.length_cons]
    omega

/-- The digits of whole groups stand for the bytes. -/
theorem digits_encode {bytes : List UInt8} (h : bytes.length % 3 = 0) (offset : Nat) :
    ∃ ds, digits offset (encode bytes) = .ok ds ∧ groups ds = bytes := by
  induction bytes using encode.induct generalizing offset with
  | case1 => exact ⟨[], rfl, rfl⟩
  | case2 a => cases h
  | case3 a b => cases h
  | case4 a b c rest ih =>
    obtain ⟨ds, hds, hgroups⟩ := ih (by simp only [List.length_cons] at h; omega)
      (offset + 1 + 1 + 1 + 1)
    refine ⟨first a :: second a b :: third b c :: fourth c :: ds, ?_, ?_⟩
    · simp only [encode, digits, digit?_letter _ (first_lt a), digit?_letter _ (second_lt a b),
        digit?_letter _ (third_lt b c), digit?_letter _ (fourth_lt c), hds]
      rfl
    · rw [groups, first_byte, second_byte, third_byte, hgroups]

/-! ## The last group -/

theorem readTail_letter {n : Nat} (hn : n < 64) (start index : Nat) (ds : List Nat)
    (rest : List UInt8) :
    readTail start ⟨ds, none⟩ index (letter n :: rest) =
      readTail start ⟨ds ++ [n], none⟩ (index + 1) rest := by
  rw [readTail, if_neg (letter_ne_pad n hn)]
  dsimp only
  rw [digit?_letter n hn]

/-- How much padding a last group has. -/
def Tail.padding (t : Tail) : Nat :=
  match t.padded with
  | some (_, k) => k
  | none => 0

/-- A last group that is full with its padding is decoded, if no bits are left over. -/
theorem decodeTail_of_readTail {start : Nat} {tail bytes : List UInt8} {t : Tail}
    (ht : readTail start ⟨[], none⟩ 0 tail = .ok t) (hn : 2 ≤ t.digits.length)
    (hfull : (t.padding + t.digits.length) % 4 = 0) (hbytes : tailBytes t.digits = (bytes, 0)) :
    decodeTail start tail = .ok bytes := by
  obtain ⟨ds, padded⟩ := t
  dsimp only at hn hfull hbytes
  unfold decodeTail
  rw [ht]
  dsimp only [bind, Except.bind, pure, Except.pure]
  rw [if_neg (by omega), hbytes]
  rcases padded with _ | ⟨k, n⟩
  · rw [if_neg (by simpa [Tail.padding] using hfull)]
    rfl
  · rw [if_neg (by simpa [Tail.padding] using hfull)]
    rfl

/-- A last group of three bytes is read as one of the whole groups. -/
theorem decodeTail_three (a b c : UInt8) (start : Nat) :
    decodeTail start (encode [a, b, c]) = .ok [a, b, c] := by
  have ht : readTail start ⟨[], none⟩ 0 (encode [a, b, c]) =
      .ok ⟨[first a, second a b, third b c, fourth c], none⟩ := by
    unfold encode
    rw [readTail_letter (first_lt a), readTail_letter (second_lt a b),
      readTail_letter (third_lt b c), readTail_letter (fourth_lt c)]
    rfl
  have hbytes : tailBytes [first a, second a b, third b c, fourth c] = ([a, b, c], 0) := by
    rw [tailBytes, groups, first_byte, second_byte, third_byte]
    · rfl
    · simp
    · simp
  exact decodeTail_of_readTail ht (by simp) (by simp [Tail.padding]) hbytes

/-- The padding of a shorter group fills it up, and no bits are left over. -/
theorem decodeTail_two (a b : UInt8) (start : Nat) :
    decodeTail start (encode [a, b]) = .ok [a, b] := by
  have ht : readTail start ⟨[], none⟩ 0 (encode [a, b]) =
      .ok ⟨[first a, second a b, third b 0], some (3, 1)⟩ := by
    unfold encode
    rw [readTail_letter (first_lt a), readTail_letter (second_lt a b),
      readTail_letter (third_lt b 0)]
    rfl
  have hleft : third b 0 % 4 = 0 := by
    show (b.toNat % 16 * 4 + 0) % 4 = 0
    omega
  have hbytes : tailBytes [first a, second a b, third b 0] = ([a, b], 0) := by
    rw [tailBytes, first_byte, second_byte, hleft]
  exact decodeTail_of_readTail ht (by simp) (by simp [Tail.padding]) hbytes

theorem decodeTail_one (a : UInt8) (start : Nat) :
    decodeTail start (encode [a]) = .ok [a] := by
  have ht : readTail start ⟨[], none⟩ 0 (encode [a]) =
      .ok ⟨[first a, second a 0], some (2, 2)⟩ := by
    unfold encode
    rw [readTail_letter (first_lt a), readTail_letter (second_lt a 0)]
    rfl
  have hleft : second a 0 % 16 = 0 := by
    show (a.toNat % 4 * 16 + 0) % 16 = 0
    omega
  have hbytes : tailBytes [first a, second a 0] = ([a], 0) := by
    rw [tailBytes, first_byte, hleft]
  exact decodeTail_of_readTail ht (by simp) (by simp [Tail.padding]) hbytes

/-! ## All bytes -/

/-- Bytes are whole groups and a last one, and are written so. -/
theorem encode_split {bytes : List UInt8} (h : bytes ≠ []) :
    ∃ full last, bytes = full ++ last ∧ full.length % 3 = 0 ∧
      encode bytes = encode full ++ encode last ∧ (encode last).length = 4 ∧
      ∀ start, decodeTail start (encode last) = .ok last := by
  induction bytes using encode.induct with
  | case1 => exact absurd rfl h
  | case2 a => exact ⟨[], [a], rfl, rfl, rfl, rfl, decodeTail_one a⟩
  | case3 a b => exact ⟨[], [a, b], rfl, rfl, rfl, rfl, decodeTail_two a b⟩
  | case4 a b c rest ih =>
    by_cases hrest : rest = []
    · subst hrest
      exact ⟨[], [a, b, c], rfl, rfl, rfl, rfl, decodeTail_three a b c⟩
    · obtain ⟨full, last, rfl, hfull, hsplit, hlen, hlast⟩ := ih hrest
      refine ⟨a :: b :: c :: full, last, rfl, ?_, ?_, hlen, hlast⟩
      · simp only [List.length_cons]
        omega
      · simp only [encode, hsplit, List.cons_append]

theorem decode_encode (bytes : List UInt8) : decode (encode bytes) = .ok bytes := by
  by_cases h : bytes = []
  · subst h
    rfl
  · obtain ⟨full, last, rfl, hfull, hsplit, hlen, hlast⟩ := encode_split h
    have hwhole := length_encode hfull
    have hn : bodyLength (encode full ++ encode last).length = (encode full).length := by
      unfold bodyLength
      rw [List.length_append, hlen, if_pos (by omega), Nat.add_sub_cancel]
    have hstray : strayLast? (encode full ++ encode last) = none := by
      unfold strayLast?
      rw [if_neg]
      rw [List.length_append, hlen]
      omega
    have hne : (encode full ++ encode last).isEmpty = false := by
      rw [List.isEmpty_eq_false_iff_exists_mem]
      obtain ⟨d, hd⟩ := List.exists_mem_of_length_pos (show 0 < (encode last).length by omega)
      exact ⟨d, List.mem_append_right _ hd⟩
    obtain ⟨ds, hds, hgroups⟩ := digits_encode hfull 0
    unfold decode
    rw [hsplit, hstray]
    dsimp only
    rw [hne, hn, List.take_left, List.drop_left, hds, hlast]
    show Except.ok (groups ds ++ last) = .ok (full ++ last)
    rw [hgroups]

example : encode [102, 111] = [90, 109, 56, 61] := by decide

/-- The text of bytes is read as the bytes. -/
theorem decode_text (bytes : List UInt8) : decode (Files.View.encode (text bytes)) = .ok bytes := by
  unfold text
  rw [Files.View.encode_ascii encode_lt, decode_encode]

end Base64
end Graft
