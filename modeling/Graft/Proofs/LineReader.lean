-- The reader of a line uses both views of it at once: it goes by the characters
-- that are given out, and takes bare words, raw strings and the comment as
-- slices. Each round of it takes the spelling of what it finds, with no byte
-- more or less, and breaks off at no slice.
import Graft.Proofs.LineViews

namespace Graft.Manifest

/-! ## Searching a slice -/

/-- The byte of the text from which on it first is as told. -/
def firstAt? (p : List Char → Bool) : List Char → Option Nat
  | [] => none
  | c :: cs => if p (c :: cs) then some 0 else (firstAt? p cs).map (c.utf8Size + ·)

/-- The text opens with a character that is as told. -/
def opensWith (p : Char → Bool) (cs : List Char) : Bool := cs.head?.any p

/-! ## The reader of a line -/

/-- What a round finds: white space, a token, the comment, or a fault. -/
inductive Found
  | blank
  | token (t : Token)
  | comment (text : List Char)
  | fault (fault : LineFault)
  deriving DecidableEq

/-- At a slash, a comment opens if the slice from there on does so. -/
def atComment (line : String) (start : Nat) (c : Char) : Slicing Bool :=
  if c == '/' then do
    let rest ← cut (whole line) start line.utf8ByteSize
    return opensComment rest.text.toList
  else return false

/-- Takes the characters of a string up to its closing quote, behind what it says so far. -/
def unquote (value : List Char) : Chars → Option (List Char) × Chars
  | [] => (none, [])
  | (_, '\\') :: [] => (none, [])
  | (_, '\\') :: (_, c) :: chars => unquote (value ++ [c]) chars
  | (_, '"') :: chars => (some value, chars)
  | (_, c) :: chars => unquote (value ++ [c]) chars

/-- A string, behind its opening quote. -/
def readQuoted (line : String) (start : Nat) (chars : Chars) : Found × Chars :=
  match unquote [] chars with
  | (none, left) => (.fault .unterminatedQuoted, left)
  | (some value, left) => (.token ⟨.quoted, value, start, position line left⟩, left)

/-- A raw string, behind its opening quote. The slice from there on is searched for the closing
quote, and then the characters up to it are taken. -/
def readRaw (line : String) (start : Nat) (chars : Chars) : Slicing (Found × Chars) := do
  let rest ← cut (whole line) (start + 1) line.utf8ByteSize
  match firstAt? (opensWith (· == '\x60')) rest.text.toList with
  | none => return (.fault .unterminatedRaw, chars)
  | some stop =>
    let value ← cut rest 0 stop
    let left := chars.dropWhile fun p => p.1 ≤ start + 1 + stop
    return (.token ⟨.raw, value.text.toList, start, position line left⟩, left)

/-- A bare run. The slice from its first character on is searched for a character that ends it,
and what stands in front of that is searched for the mark of a comment. -/
def readBare (line : String) (start : Nat) (chars : Chars) : Slicing (Found × Chars) := do
  let rest ← cut (whole line) start line.utf8ByteSize
  let stop := (firstAt? (opensWith endsBare) rest.text.toList).getD rest.text.utf8ByteSize
  let run ← cut rest 0 stop
  let stop := (firstAt? opensComment run.text.toList).getD stop
  let value ← cut rest 0 stop
  let left := chars.dropWhile fun p => p.1 < start + stop
  return (.token ⟨.bare, value.text.toList, start, position line left⟩, left)

/-- One round at a character of the line: what it finds, and the characters that it leaves. -/
def readNext (line : String) (start : Nat) (c : Char) (chars : Chars) :
    Slicing (Found × Chars) := do
  if Text.isBlank c then return (.blank, chars.tail)
  else if ← atComment line start c then
    let rest ← cut (whole line) (start + 2) line.utf8ByteSize
    return (.comment rest.text.toList, chars)
  else if c == '(' || c == ')' then
    return (.token ⟨.paren, [c], start, position line chars.tail⟩, chars.tail)
  else if c == '"' then return readQuoted line start chars.tail
  else if c == '\x60' then readRaw line start chars.tail
  else readBare line start chars

/-! ## What a round does -/

theorem Spells.ne_nil {spelling : Spelling} {value text : List Char}
    (h : Spells spelling value text) : text ≠ [] := by
  cases h with
  | bare h => exact h.1
  | _ => exact List.cons_ne_nil _ _

/-- What is found in the characters that a round takes, behind the byte and in front of the
rest. -/
inductive Finds (pos : Nat) : List Char → List Char → Found → Prop
  | blank {c : Char} {rest : List Char} (h : Text.isBlank c = true) : Finds pos [c] rest .blank
  | token {t : Token} {text rest : List Char} (h : Spells t.spelling t.value text)
    (hstart : t.start = pos) (hstop : t.stop = pos + byteCount text)
    (hlex : lexFrom pos (text ++ rest) = (lexFrom t.stop rest).map (Line.push t)) :
    Finds pos text rest (.token t)
  | comment {text : List Char} : Finds pos [] ('/' :: '/' :: text) (.comment text)
  | fault {fault : LineFault} {text rest : List Char} (hne : text ≠ [])
    (hlex : lexFrom pos (text ++ rest) = .error fault) : Finds pos text rest (.fault fault)

/-- Nothing but a comment is found without a character being taken. -/
theorem Finds.ne_nil {pos : Nat} {taken rest : List Char} {found : Found}
    (h : Finds pos taken rest found) : taken ≠ [] ∨ ∃ text, found = .comment text := by
  cases h with
  | blank => exact .inl (List.cons_ne_nil _ _)
  | token h => exact .inl h.ne_nil
  | comment => exact .inr ⟨_, rfl⟩
  | fault hne => exact .inl hne

/-- A round takes some of the characters that stand at the byte, and leaves the others. -/
def Advances (pos : Nat) (cs : List Char) (r : Found × Chars) : Prop :=
  ∃ taken rest, cs = taken ++ rest ∧ r.2 = indices (pos + byteCount taken) rest ∧
    Finds pos taken rest r.1

section Round

variable {line : String} {before cs : List Char} {c : Char}

theorem gives_atComment (h : line.toList = before ++ c :: cs) :
    Gives line (atComment line (byteCount before) c) fun b => b = opensComment (c :: cs) := by
  unfold atComment
  split
  · refine Gives.bind (Gives.cutFrom h) fun rest hrest => Gives.pure ?_
    rw [hrest.1, String.toList_ofList]
  · rename_i hc
    refine Gives.pure (Bool.eq_false_iff.mpr fun ho => hc ?_).symm
    rw [(opensComment_cons.mp ho).1]
    rfl

/-- A round that leaves the characters behind a token has found the token. -/
theorem advances_token {spelling : Spelling} {value text rest : List Char}
    (h : line.toList = before ++ (text ++ rest)) (hspells : Spells spelling value text)
    (hlex : lexFrom (byteCount before) (text ++ rest) =
      (lexFrom (byteCount before + byteCount text) rest).map
        (Line.push ⟨spelling, value, byteCount before, byteCount before + byteCount text⟩)) :
    Advances (byteCount before) (text ++ rest)
      (.token ⟨spelling, value, byteCount before,
          position line (indices (byteCount before + byteCount text) rest)⟩,
        indices (byteCount before + byteCount text) rest) := by
  have hposition := position_indices (h.trans (List.append_assoc before text rest).symm)
  rw [byteCount_append] at hposition
  rw [hposition]
  exact ⟨text, rest, rfl, rfl, .token hspells rfl rfl hlex⟩

/-! ### Strings -/

theorem byteCount_of_quotedRun {value rest : List Char} {n : Nat}
    (h : quotedRun cs = some (value, n, rest)) : byteCount cs = n + byteCount rest := by
  fun_induction quotedRun cs generalizing value n rest with
  | case1 => cases h
  | case2 cs =>
    cases h
    rfl
  | case3 => cases h
  | case4 c cs ih =>
    obtain ⟨⟨v, k, r⟩, hr, he⟩ := Option.map_eq_some_iff.mp h
    cases he
    have hslash : Char.utf8Size '\\' = 1 := rfl
    rw [byteCount, byteCount, ih hr, hslash, Nat.add_assoc, Nat.add_assoc]
  | case5 c cs _ _ _ ih =>
    obtain ⟨⟨v, k, r⟩, hr, he⟩ := Option.map_eq_some_iff.mp h
    cases he
    rw [byteCount, ih hr, Nat.add_assoc]

/-- The characters of a string are taken up to its closing quote, or to the end of the line. -/
theorem unquote_indices (value : List Char) (n : Nat) (cs : List Char) :
    unquote value (indices n cs) =
      match quotedRun cs with
      | none => (none, [])
      | some (v, k, rest) => (some (value ++ v), indices (n + k) rest) := by
  fun_induction quotedRun cs generalizing value n with
  | case1 => rfl
  | case2 cs =>
    have hquote : Char.utf8Size '"' = 1 := rfl
    simp [indices, unquote, hquote]
  | case3 => simp [indices, unquote]
  | case4 c cs ih =>
    have hslash : Char.utf8Size '\\' = 1 := rfl
    rw [indices, indices, unquote, ih]
    cases quotedRun cs <;> simp [hslash, Nat.add_assoc]
  | case5 c cs hquote hend hslash ih =>
    -- A backslash is taken with what follows it, or ends the line: the two cases before.
    have hc : c ≠ '\\' := by
      rintro rfl
      cases cs with
      | nil => exact hend rfl rfl
      | cons d ds => exact hslash d ds rfl rfl
    rw [indices, unquote, ih]
    · cases quotedRun cs <;> simp [Nat.add_assoc]
    · exact fun _ => hc
    · exact fun _ _ _ _ => hc
    · exact hquote

theorem advances_readQuoted (h : line.toList = before ++ '"' :: cs) :
    Advances (byteCount before) ('"' :: cs)
      (readQuoted line (byteCount before) (indices (byteCount before + 1) cs)) := by
  rw [readQuoted, unquote_indices]
  cases hrun : quotedRun cs with
  | none =>
    have hlex := lexFrom_of_neverCloses (.quoted (quotedRun_eq_none_iff.mp hrun)) (byteCount before)
    rw [← List.append_nil ('"' :: cs)] at hlex
    exact ⟨'"' :: cs, [], (List.append_nil _).symm, rfl, .fault (List.cons_ne_nil _ _) hlex⟩
  | some found =>
    obtain ⟨value, n, rest⟩ := found
    obtain ⟨text, htext, hcs⟩ := quotes_of_quotedRun hrun
    have hsplit : '"' :: cs = '"' :: (text ++ ['"']) ++ rest := by
      rw [hcs, List.append_cons, List.cons_append]
    have hcount : byteCount ('"' :: (text ++ ['"'])) = 1 + n := by
      have hcs' := congrArg byteCount hsplit
      rw [byteCount_append, byteCount, byteCount_of_quotedRun hrun, ← Nat.add_assoc] at hcs'
      exact (Nat.add_right_cancel hcs').symm
    have hlex := lexFrom_quoted hrun (byteCount before)
    rw [hsplit] at h hlex ⊢
    have htoken := advances_token h (.quoted htext)
      (by rw [hcount, ← Nat.add_assoc]; exact hlex)
    rwa [hcount, ← Nat.add_assoc] at htoken

/-! ### Raw strings -/

theorem firstAt?_quote (cs : List Char) :
    firstAt? (opensWith (· == '\x60')) cs = (rawRun cs).map fun r => byteCount r.1 := by
  induction cs with
  | nil => rfl
  | cons c cs ih =>
    rw [firstAt?, rawRun, ih]
    cases hc : c == '\x60' with
    | true => simp [opensWith, hc, byteCount]
    | false => cases rawRun cs <;> simp [opensWith, hc, byteCount]

theorem gives_readRaw (h : line.toList = before ++ '\x60' :: cs) :
    Gives line (readRaw line (byteCount before) (indices (byteCount before + 1) cs))
      (Advances (byteCount before) ('\x60' :: cs)) := by
  have hopen : byteCount (before ++ ['\x60']) = byteCount before + 1 := byteCount_append ..
  have hbehind : line.toList = before ++ ['\x60'] ++ cs := by rw [h, List.append_cons]
  unfold readRaw
  rw [← hopen]
  refine Gives.bind (Gives.cutFrom hbehind) fun rest hrest => ?_
  obtain ⟨rfl, hrest⟩ := hrest
  rw [String.toList_ofList, firstAt?_quote]
  cases hrun : rawRun cs with
  | none =>
    have hnot := rawRun_eq_none_iff.mp hrun
    rw [hopen]
    exact Gives.pure ⟨['\x60'], cs, rfl, rfl, .fault (List.cons_ne_nil '\x60' [])
      (lexFrom_of_neverCloses (.raw hnot) (byteCount before))⟩
  | some found =>
    obtain ⟨value, left⟩ := found
    obtain ⟨hnot, rfl⟩ := rawRun_eq_some hrun
    refine Gives.bind (Gives.cutTo hrest (String.toList_ofList ..)) fun t ht => Gives.pure ?_
    have hsplit : '\x60' :: (value ++ '\x60' :: left) = '\x60' :: (value ++ ['\x60']) ++ left := by
      rw [List.append_cons, List.cons_append]
    have hclose : byteCount (value ++ ['\x60']) = byteCount value + 1 := byteCount_append ..
    have hcount : byteCount ('\x60' :: (value ++ ['\x60'])) = 1 + byteCount value + 1 := by
      rw [byteCount, hclose, ← Nat.add_assoc]
      rfl
    have hleft : (indices (byteCount before + 1) (value ++ '\x60' :: left)).dropWhile
          (fun p => p.1 ≤ byteCount before + 1 + byteCount value) =
        indices (byteCount before + byteCount ('\x60' :: (value ++ ['\x60']))) left := by
      have hdrop := dropWhile_indices (byteCount before + 1) (value ++ ['\x60']) left
      rw [← List.append_cons, hclose] at hdrop
      rw [hcount]
      simpa only [← Nat.add_assoc, Nat.lt_add_one_iff] using hdrop
    have hlex := lexFrom_raw hrun (byteCount before)
    rw [ht.1, String.toList_ofList, hopen, hleft]
    rw [hsplit] at h hlex ⊢
    refine advances_token h (.raw hnot) ?_
    rw [hcount]
    simpa only [Nat.add_assoc] using hlex

/-! ### Bare runs -/

/-- What stands in front of the first character that ends a bare run. -/
def unended (cs : List Char) : List Char := cs.takeWhile fun c => !endsBare c

theorem unended_append (cs : List Char) :
    unended cs ++ cs.dropWhile (fun c => !endsBare c) = cs :=
  List.takeWhile_append_dropWhile

theorem unended_cons (h : endsBare c = false) (cs : List Char) :
    unended (c :: cs) = c :: unended cs :=
  List.takeWhile_cons_of_pos (by rw [h]; rfl)

theorem firstAt?_endsBare (cs : List Char) :
    (firstAt? (opensWith endsBare) cs).getD (byteCount cs) = byteCount (unended cs) := by
  induction cs with
  | nil => rfl
  | cons c cs ih =>
    cases hc : endsBare c with
    | true => simp [firstAt?, opensWith, unended, hc, byteCount]
    | false =>
      rw [firstAt?, if_neg (by simp [opensWith, hc]), unended_cons hc, byteCount, byteCount, ← ih]
      exact Option.getD_map ..

/-- A character that ends a bare run is no slash, so cutting the text off there leaves each mark of
a comment in front of it as it is. -/
theorem opensComment_unended (c : Char) (cs : List Char) :
    opensComment (c :: unended cs) = opensComment (c :: cs) := by
  have hhead : (unended cs).head? = some '/' ↔ cs.head? = some '/' := by
    cases cs with
    | nil => rfl
    | cons d ds =>
      cases hd : endsBare d with
      | true =>
        have hslash : d ≠ '/' := by
          rintro rfl
          exact absurd hd (by decide)
        simp [unended, hd, hslash]
      | false => rw [unended_cons hd, List.head?_cons, List.head?_cons]
  rw [Bool.eq_iff_iff, opensComment_cons, opensComment_cons, hhead]

theorem firstAt?_opensComment (cs : List Char) :
    (firstAt? opensComment (unended cs)).getD (byteCount (unended cs)) =
      byteCount (bareRun cs).1 := by
  induction cs with
  | nil => rfl
  | cons c cs ih =>
    rw [bareRun]
    cases hc : endsBare c with
    | true => simp [firstAt?, unended, hc, byteCount]
    | false =>
      rw [unended_cons hc, firstAt?, opensComment_unended, Bool.false_or]
      cases opensComment (c :: cs) with
      | true => rfl
      | false =>
        rw [if_neg Bool.false_ne_true, if_neg Bool.false_ne_true, byteCount, byteCount, ← ih]
        exact Option.getD_map ..

theorem gives_readBare (h : line.toList = before ++ c :: cs)
    (hcomment : opensComment (c :: cs) = false) (hends : endsBare c = false) :
    Gives line (readBare line (byteCount before) (indices (byteCount before) (c :: cs)))
      (Advances (byteCount before) (c :: cs)) := by
  have hrun : bareRun (c :: cs) = (c :: (bareRun cs).1, (bareRun cs).2) := by
    rw [bareRun, hends, hcomment, Bool.or_self, if_neg Bool.false_ne_true]
  have hallowed := allows_bare_iff.mpr ⟨List.cons_ne_nil _ _, bareRun_of_bareRun hrun⟩
  have hlex := lexFrom_bare hrun (byteCount before)
  -- The word is cut out of the rest of the line, not out of the part that was searched last.
  have hsplit := bareRun_append (c :: cs)
  rw [hrun] at hsplit
  unfold readBare
  refine Gives.bind (Gives.cutFrom h) fun rest hrest => ?_
  obtain ⟨rfl, hrest⟩ := hrest
  have htext : (String.ofList (c :: cs)).toList = c :: cs := String.toList_ofList
  dsimp only
  rw [htext, utf8ByteSize_ofList, firstAt?_endsBare]
  refine Gives.bind (Gives.cutTo hrest (htext.trans (unended_append _).symm)) fun run hfront => ?_
  rw [hfront.1, String.toList_ofList, firstAt?_opensComment, hrun]
  refine Gives.bind (Gives.cutTo hrest (htext.trans hsplit.symm)) fun value hvalue => Gives.pure ?_
  have hleft := dropWhile_indices (byteCount before) (c :: (bareRun cs).1) (bareRun cs).2
  rw [hsplit] at hleft
  rw [hvalue.1, String.toList_ofList, hleft]
  rw [← hsplit] at h hlex ⊢
  exact advances_token h (.bare hallowed) hlex

/-! ### One round -/

theorem gives_readNext (h : line.toList = before ++ c :: cs) :
    Gives line (readNext line (byteCount before) c (indices (byteCount before) (c :: cs)))
      (Advances (byteCount before) (c :: cs)) := by
  unfold readNext
  split
  · rename_i hblank
    exact Gives.pure ⟨[c], cs, rfl, rfl, .blank hblank⟩
  rename_i hblank
  refine Gives.bind (gives_atComment h) fun comment hcomment => ?_
  subst hcomment
  split
  · rename_i hopen
    obtain ⟨rfl, hhead⟩ := opensComment_cons.mp hopen
    obtain ⟨text, rfl⟩ := List.head?_eq_some_iff.mp hhead
    have hmark : byteCount (before ++ ['/', '/']) = byteCount before + 2 := byteCount_append ..
    have hbehind : line.toList = before ++ ['/', '/'] ++ text := by
      rw [h, List.append_assoc]
      rfl
    rw [← hmark]
    refine Gives.bind (Gives.cutFrom hbehind) fun rest hrest => Gives.pure ?_
    rw [hrest.1, String.toList_ofList]
    exact ⟨[], _, rfl, rfl, .comment⟩
  rename_i hopen
  split
  · rename_i hparen
    have hor : c = '(' ∨ c = ')' := by simpa using hparen
    have hlex := lexFrom_paren hor cs (byteCount before)
    have hsize : c.utf8Size = 1 := by rcases hor with rfl | rfl <;> rfl
    have hsplit : line.toList = before ++ ([c] ++ cs) := h
    refine Gives.pure (advances_token hsplit (.paren hor) ?_)
    rw [byteCount, byteCount, hsize]
    exact hlex
  rename_i hparen
  split
  · rename_i hquote
    obtain rfl := beq_iff_eq.mp hquote
    exact Gives.pure (advances_readQuoted h)
  rename_i hquote
  split
  · rename_i hraw
    obtain rfl := beq_iff_eq.mp hraw
    exact gives_readRaw h
  · rename_i hraw
    refine gives_readBare h (Bool.eq_false_iff.mpr hopen) ?_
    -- All that ends a bare run has been ruled out.
    simp_all [endsBare]

end Round

end Graft.Manifest
