-- Reading bytes as UTF-8 when they may be ill-formed. Each longest start of
-- a sequence that cannot be completed becomes one replacement character.
namespace Graft.Text

/-- The character that stands for ill-formed bytes. -/
def replacement : Char := '\uFFFD'

/-- The byte goes on a sequence. -/
def isTrail (b : UInt8) : Bool := 0x80 ≤ b.toNat && b.toNat < 0xC0

/-- The second byte of a sequence that opens with `lead`: the limits keep out
overlong forms, surrogates and numbers above the last code point. -/
def isSecond (lead : Nat) (b : UInt8) : Bool :=
  let low := if lead == 0xE0 then 0xA0 else if lead == 0xF0 then 0x90 else 0x80
  let high := if lead == 0xED then 0x9F else if lead == 0xF4 then 0x8F else 0xBF
  low ≤ b.toNat && b.toNat ≤ high

/-- The six bits that a trailing byte carries. -/
def trailBits (b : UInt8) : Nat := b.toNat % 64

/-- Reads the character that opens with `lead`: the character, and how many of
the bytes after `lead` belong to it. -/
def readChar (lead : UInt8) (rest : List UInt8) : Char × Nat :=
  let n := lead.toNat
  if n < 0x80 then (Char.ofNat n, 0)
  else if 0xC2 ≤ n ∧ n ≤ 0xDF then
    match rest with
    | b :: _ => if isTrail b then (Char.ofNat (n % 32 * 64 + trailBits b), 1) else (replacement, 0)
    | [] => (replacement, 0)
  else if 0xE0 ≤ n ∧ n ≤ 0xEF then
    match rest with
    | b :: c :: _ =>
      if !isSecond n b then (replacement, 0)
      else if !isTrail c then (replacement, 1)
      else (Char.ofNat ((n % 16 * 64 + trailBits b) * 64 + trailBits c), 2)
    | [b] => (replacement, if isSecond n b then 1 else 0)
    | [] => (replacement, 0)
  else if 0xF0 ≤ n ∧ n ≤ 0xF4 then
    match rest with
    | b :: c :: d :: _ =>
      if !isSecond n b then (replacement, 0)
      else if !isTrail c then (replacement, 1)
      else if !isTrail d then (replacement, 2)
      else (Char.ofNat (((n % 8 * 64 + trailBits b) * 64 + trailBits c) * 64 + trailBits d), 3)
    | [b, c] =>
      (replacement, if !isSecond n b then 0 else if !isTrail c then 1 else 2)
    | [b] => (replacement, if isSecond n b then 1 else 0)
    | [] => (replacement, 0)
  else (replacement, 0)

/-- The characters of a byte stream. -/
def decodeLossy : List UInt8 → List Char
  | [] => []
  | lead :: rest =>
    let r := readChar lead rest
    r.1 :: decodeLossy (rest.drop r.2)
termination_by bytes => bytes.length
decreasing_by simp only [List.length_drop, List.length_cons]; omega

end Graft.Text
