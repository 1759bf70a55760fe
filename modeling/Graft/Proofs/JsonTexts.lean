-- Texts in JSON as another program writes them: every character in one of
-- the ways in which it can be spelled, and the members of an object in some
-- order, without white space. What was written reads as what it stands for.
import Graft.Json
import Graft.Text.Lines

namespace Graft.Json

/-! ## Writing -/

/-- A hexadecimal digit in small letters. -/
def hexDigit (n : Nat) : Char := Char.ofNat (if n < 10 then 48 + n else 87 + n)

/-- The four hexadecimal digits of a code unit. -/
def fourDigits (n : Nat) : List Char :=
  [hexDigit (n / 4096), hexDigit (n / 256 % 16), hexDigit (n / 16 % 16), hexDigit (n % 16)]

/-- The characters that have a short escape, with what stands behind the backslash. -/
def shortEscapes : List (Char × Char) :=
  [('"', '"'), ('\\', '\\'), ('/', '/'), ('\x08', 'b'), ('\x0C', 'f'), ('\n', 'n'), ('\r', 'r'),
    ('\t', 't')]

/-- The ways in which a character can be written inside a string. -/
inductive Spells : Char → List Char → Prop
  | plain {c : Char} : 0x20 ≤ c.toNat → c ≠ '"' → c ≠ '\\' → Spells c [c]
  | short {c mark : Char} : (c, mark) ∈ shortEscapes → Spells c ['\\', mark]
  | unit {c : Char} : c.toNat < 0x10000 → Spells c ('\\' :: 'u' :: fourDigits c.toNat)

/-- One that writes texts in JSON, by the way in which it spells each character. -/
structure Writer where
  spell : Char → List Char
  spells : ∀ c, Spells c (spell c)

/-- A member of an object: its name, the text of its value, and what the text stands for. -/
structure Member where
  key : String
  text : List Char
  value : Json

namespace Writer

variable (W : Writer)

def string (s : String) : List Char := '"' :: (s.toList.flatMap W.spell ++ ['"'])

def member (m : Member) : List Char := W.string m.key ++ ':' :: m.text

def object (ms : List Member) : List Char :=
  '\x7b' :: (Text.joinWith [','] (ms.map W.member) ++ ['\x7d'])

end Writer

/-! ## Characters -/

theorem hexDigit?_hexDigit : ∀ n < 16, hexDigit? (hexDigit n) = some n := by decide

theorem fourDigits?_fourDigits {n : Nat} (h : n < 0x10000) (rest : List Char) :
    fourDigits? (fourDigits n ++ rest) = some (n, rest) := by
  unfold fourDigits
  simp only [List.cons_append, List.nil_append, fourDigits?,
    hexDigit?_hexDigit (n / 4096) (by omega), hexDigit?_hexDigit (n / 256 % 16) (by omega),
    hexDigit?_hexDigit (n / 16 % 16) (by omega), hexDigit?_hexDigit (n % 16) (by omega),
    Option.bind_eq_bind, Option.bind_some, Option.pure_def]
  congr 2
  omega

/-- A code unit that is a character stands for it. -/
theorem ofUnit_toNat (c : Char) : Part.ofUnit c.toNat = .char c := by
  have hvalid : c.toNat.isValidChar := c.valid
  unfold Part.ofUnit
  rw [if_neg, if_neg, Char.ofNat_toNat]
  · simp only [Bool.and_eq_true, decide_eq_true_eq, Nat.isValidChar] at hvalid ⊢
    omega
  · simp only [Bool.and_eq_true, decide_eq_true_eq, Nat.isValidChar] at hvalid ⊢
    omega

theorem escape?_short {c mark : Char} (h : (c, mark) ∈ shortEscapes) (rest : List Char) :
    escape? (mark :: rest) = some (.char c, rest) := by
  have hall : ∀ e ∈ shortEscapes, ∀ rest, escape? (e.2 :: rest) = some (.char e.1, rest) := by
    simp [shortEscapes, escape?]
  exact hall (c, mark) h rest

/-- However a character is spelled, it is one step of the string. -/
theorem stringBody?_spells {c : Char} {spelling : List Char} (h : Spells c spelling) (n : Nat)
    (rest : List Char) :
    stringBody? (n + 1) (spelling ++ rest) =
      (stringBody? n rest).map fun r => (.char c :: r.1, r.2) := by
  cases h with
  | plain hlow hquote hslash =>
    rw [List.cons_append, List.nil_append, stringBody?, if_neg (by simpa using hquote),
      if_neg (by simpa using hslash), if_neg (by omega)]
    cases stringBody? n rest <;> rfl
  | short hmark =>
    rw [List.cons_append, List.cons_append, List.nil_append, stringBody?, if_neg (by decide),
      if_pos (by decide), escape?_short hmark]
    cases hb : stringBody? n rest <;> simp [hb]
  | unit hlow =>
    have he : escape? ('u' :: (fourDigits c.toNat ++ rest)) = some (.char c, rest) := by
      simp [escape?, fourDigits?_fourDigits hlow, ofUnit_toNat]
    rw [List.cons_append, List.cons_append, stringBody?, if_neg (by decide),
      if_pos (by decide), he]
    cases hb : stringBody? n rest <;> simp [hb]

/-! ## Strings -/

theorem length_pos_of_spells {c : Char} {spelling : List Char} (h : Spells c spelling) :
    1 ≤ spelling.length := by
  cases h <;> simp

theorem length_le_length_flatMap (W : Writer) (cs : List Char) :
    cs.length ≤ (cs.flatMap W.spell).length := by
  induction cs with
  | nil => exact Nat.le_refl 0
  | cons c cs ih =>
    have := length_pos_of_spells (W.spells c)
    rw [List.flatMap_cons, List.length_append, List.length_cons]
    omega

theorem stringBody?_flatMap (W : Writer) (cs rest : List Char) {n : Nat} (hn : cs.length < n) :
    stringBody? n (cs.flatMap W.spell ++ '"' :: rest) = some (cs.map .char, rest) := by
  obtain ⟨n, rfl⟩ := Nat.exists_eq_succ_of_ne_zero (Nat.ne_zero_of_lt hn)
  induction cs generalizing n with
  | nil => rfl
  | cons c cs ih =>
    have hlt : cs.length < n := Nat.lt_of_succ_lt_succ hn
    obtain ⟨n, rfl⟩ := Nat.exists_eq_succ_of_ne_zero (Nat.ne_zero_of_lt hlt)
    rw [List.flatMap_cons, List.append_assoc, stringBody?_spells (W.spells c), ih n hlt]
    rfl

theorem join?_chars (cs : List Char) : join? (cs.map .char) = some cs := by
  induction cs with
  | nil => rfl
  | cons c cs ih => rw [List.map_cons, join?, ih, Option.map_some]

/-- A written string reads as its text. -/
theorem string?_written (W : Writer) (s : String) (rest : List Char) :
    string? (s.toList.flatMap W.spell ++ '"' :: rest) = some (some s, rest) := by
  have hlen : s.toList.length < (s.toList.flatMap W.spell ++ '"' :: rest).length + 1 := by
    have := length_le_length_flatMap W s.toList
    rw [List.length_append]
    omega
  unfold string?
  rw [stringBody?_flatMap W s.toList rest hlen, Option.map_some, join?_chars, Option.map_some,
    String.ofList_toList]

/-! ## Values -/

theorem skipSpaces_cons {c : Char} (h : isSpace c = false) (cs : List Char) :
    skipSpaces (c :: cs) = c :: cs := by
  unfold skipSpaces
  rw [List.dropWhile_cons, h]
  rfl

/-- The text reads as the value, whatever follows. -/
def Reads (text : List Char) (v : Json) : Prop :=
  ∀ (n : Nat) (rest : List Char), text.length ≤ n → value? n (text ++ rest) = some (v, rest)

theorem reads_string (W : Writer) (s : String) : Reads (W.string s) (.string (some s)) := by
  intro n rest hn
  cases n with
  | zero => simp [Writer.string] at hn
  | succ n =>
    have hs := string?_written W s rest
    unfold Writer.string
    rw [List.cons_append, List.append_assoc, List.singleton_append, value?, skipSpaces_cons rfl]
    dsimp only
    rw [if_pos (by decide), hs]
    rfl

/-! ## Objects -/

/-- The name of a member and what it stands for, as it is read. -/
def Member.read (m : Member) : Option String × Json := (some m.key, m.value)

/-- The name of a member, its value, and what comes behind it. -/
theorem members?_member (W : Writer) {m : Member} (hm : Reads m.text m.value) {n : Nat}
    (hn : m.text.length ≤ n) (rest : List Char) :
    members? (n + 1) (W.member m ++ rest) =
      match skipSpaces rest with
      | ',' :: more => (members? n more).bind fun r => some (m.read :: r.1, r.2)
      | '\x7d' :: more => some ([m.read], more)
      | _ => none := by
  have hkey := string?_written W m.key (':' :: (m.text ++ rest))
  have hvalue := hm n rest hn
  have hcolon : isSpace ':' = false := rfl
  unfold Writer.member Writer.string
  rw [List.cons_append, List.cons_append, List.append_assoc, List.append_assoc,
    List.singleton_append, List.cons_append, members?, skipSpaces_cons rfl]
  simp only [hkey, Option.bind_eq_bind, Option.bind_some, skipSpaces_cons hcolon, hvalue]
  rfl

/-- Members with commas between them read one after the other. -/
theorem members?_joined (W : Writer) {ms : List Member} (hne : ms ≠ [])
    (hms : ∀ m ∈ ms, Reads m.text m.value) {n : Nat}
    (hn : (Text.joinWith [','] (ms.map W.member)).length ≤ n) (rest : List Char) :
    members? n (Text.joinWith [','] (ms.map W.member) ++ '\x7d' :: rest) =
      some (ms.map Member.read, rest) := by
  induction ms generalizing n with
  | nil => exact absurd rfl hne
  | cons m ms ih =>
    obtain ⟨hm, hms⟩ := List.forall_mem_cons.1 hms
    have hlong : m.text.length < (W.member m).length := by
      simp only [Writer.member, List.length_append, List.length_cons]
      omega
    cases ms with
    | nil =>
      have hjoin : Text.joinWith [','] (([m] : List Member).map W.member) = W.member m := rfl
      rw [hjoin] at hn ⊢
      obtain ⟨n, rfl⟩ := Nat.exists_eq_succ_of_ne_zero (show n ≠ 0 by omega)
      rw [members?_member W hm (by omega), skipSpaces_cons rfl]
      rfl
    | cons m' ms =>
      have hjoin : Text.joinWith [','] ((m :: m' :: ms).map W.member) =
          W.member m ++ [','] ++ Text.joinWith [','] ((m' :: ms).map W.member) := rfl
      rw [hjoin] at hn ⊢
      rw [List.length_append, List.length_append] at hn
      obtain ⟨n, rfl⟩ := Nat.exists_eq_succ_of_ne_zero (show n ≠ 0 by omega)
      rw [List.append_assoc, List.append_assoc, members?_member W hm (by omega),
        List.singleton_append, skipSpaces_cons rfl]
      have hrest := ih (List.cons_ne_nil m' ms) hms (n := n) (by omega)
      simp only [hrest]
      rfl

theorem reads_object (W : Writer) {ms : List Member} (hms : ∀ m ∈ ms, Reads m.text m.value) :
    Reads (W.object ms) (.object (ms.map Member.read)) := by
  intro n rest hn
  unfold Writer.object at hn ⊢
  rw [List.length_cons, List.length_append] at hn
  obtain ⟨n, rfl⟩ := Nat.exists_eq_succ_of_ne_zero (show n ≠ 0 by omega)
  rw [List.cons_append, List.append_assoc, List.singleton_append, value?, skipSpaces_cons rfl]
  dsimp only
  rw [if_neg (by decide), if_neg (by decide), if_pos (by decide)]
  cases ms with
  | nil => rfl
  | cons m ms =>
    have hjoined := members?_joined W (List.cons_ne_nil m ms) hms
      (n := n) (by omega) rest
    obtain ⟨cs, hcs⟩ : ∃ cs, Text.joinWith [','] ((m :: ms).map W.member) ++ '\x7d' :: rest =
        '"' :: cs := by
      cases ms <;> exact ⟨_, rfl⟩
    rw [hcs] at hjoined ⊢
    rw [skipSpaces_cons rfl]
    simp only [hjoined]
    rfl

/-- A text that reads as a value is parsed as it. -/
theorem parse_of_reads {text : List Char} {v : Json} (h : Reads text v) :
    parse text = some v := by
  have := h (2 * text.length + 2) [] (by omega)
  rw [List.append_nil] at this
  unfold parse
  rw [this]
  rfl

end Graft.Json
