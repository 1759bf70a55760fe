-- The rounds of the reader of a line, one after another. On every line the two
-- views stay in step from the first round to the last: the reader never breaks
-- off, each round takes some of the line, and behind a token the characters go
-- on where the spelling of the token ends.
import Graft.Proofs.LineReader
import Graft.Proofs.Steps

namespace Graft.Manifest

/-! ## The loop -/

/-- A round that was made: the characters in front of it and behind it, the slices that it took, and
what it found. -/
structure Round where
  before : Chars
  after : Chars
  slices : List Slice
  found : Found

/-- A line under way. -/
inductive Stage
  | reading
  | ended (result : Except LineFault Line)
  | brokenOff

/-- How far the reader has come: its characters, its tokens, and the rounds that were made. -/
structure Progress where
  stage : Stage
  chars : Chars
  tokens : List Token
  rounds : List Round

def Found.token? : Found → Option Token
  | .token t => some t
  | _ => none

/-- A comment with its mark. -/
def Found.commentText : Found → List Char
  | .comment text => '/' :: '/' :: text
  | _ => []

namespace Progress

/-- In front of the first round. -/
def start (line : String) : Progress := ⟨.reading, indices 0 line.toList, [], []⟩

/-- One more round was made. A comment ends the line, and so does a fault. -/
def add (w : Progress) (r : Round) : Progress where
  stage :=
    match r.found with
    | .blank | .token _ => .reading
    | .comment text => .ended (.ok ⟨w.tokens, some text⟩)
    | .fault fault => .ended (.error fault)
  chars := r.after
  tokens := w.tokens ++ r.found.token?.toList
  rounds := w.rounds ++ [r]

/-- Makes a round if the line is not at its end. -/
def step (line : String) (w : Progress) : Progress :=
  match w.stage, w.chars with
  | .reading, [] => { w with stage := .ended (.ok ⟨w.tokens, none⟩) }
  | .reading, (start, c) :: chars =>
    match (readNext line start c ((start, c) :: chars)).run [] with
    | some ((found, left), slices) => w.add ⟨(start, c) :: chars, left, slices, found⟩
    | none => { w with stage := .brokenOff }
  | _, _ => w

/-- The reader after a number of steps. -/
def after (line : String) : Nat → Progress
  | 0 => start line
  | n + 1 => step line (after line n)

end Progress

namespace Round

/-- The characters that were given out in the round. -/
def given (r : Round) : Chars := r.before.take (r.before.length - r.after.length)

/-- What the round takes of the line: the characters that were given out, and a comment with its
mark. -/
def text (r : Round) : List Char := r.given.map Prod.snd ++ r.found.commentText

/-- In the round both views of the line were in step. -/
structure InStep (line : String) (r : Round) : Prop where
  slices : ∀ s ∈ r.slices, s.IsOf line
  before : r.before <:+ indices 0 line.toList
  given : r.before = r.given ++ r.after
  text : r.text ≠ []
  advances : r.given ≠ [] ∨ ∃ text, r.found = .comment text
  blank : r.found = .blank → ∃ c, r.given = [(position line r.before, c)] ∧ Text.isBlank c = true
  token : ∀ t, r.found = .token t → ∃ text, Spells t.spelling t.value text ∧
    r.given = indices t.start text ∧ t.start = position line r.before ∧
    t.stop = t.start + byteCount text ∧ t.stop = position line r.after
  comment : ∀ text, r.found = .comment text →
    r.given = [] ∧ r.after.map Prod.snd = '/' :: '/' :: text

theorem given_eq {r : Round} {given : Chars} (h : r.before = given ++ r.after) :
    r.given = given := by
  rw [Round.given, h, List.length_append, Nat.add_sub_cancel, List.take_left]

variable {line : String} {before taken rest : List Char} {found : Found} {slices : List Slice}

/-- The round that takes the characters behind others and leaves the rest. -/
def between (before taken rest : List Char) (slices : List Slice) (found : Found) : Round :=
  ⟨indices (byteCount before) (taken ++ rest), indices (byteCount (before ++ taken)) rest, slices,
    found⟩

theorem given_between :
    (between before taken rest slices found).given = indices (byteCount before) taken := by
  refine given_eq ?_
  rw [between, indices_append, byteCount_append]

theorem text_between :
    (between before taken rest slices found).text = taken ++ found.commentText := by
  rw [text, given_between, map_snd_indices]
  rfl

theorem position_before (hline : line.toList = before ++ (taken ++ rest)) :
    position line (between before taken rest slices found).before = byteCount before :=
  position_indices hline

theorem position_after (hline : line.toList = before ++ (taken ++ rest)) :
    position line (between before taken rest slices found).after = byteCount (before ++ taken) :=
  position_indices (hline.trans (List.append_assoc ..).symm)

theorem inStep_between (hline : line.toList = before ++ (taken ++ rest))
    (hfound : Finds (byteCount before) taken rest found)
    (hslices : ∀ s ∈ slices, s.StandsIn line) :
    (between before taken rest slices found).InStep line where
  slices s hs := (hslices s hs).isOf
  before := by
    rw [hline, indices_append 0 before, Nat.zero_add]
    exact List.suffix_append _ _
  given := by rw [given_between, between, indices_append, byteCount_append]
  advances := by
    rw [given_between]
    exact hfound.ne_nil.imp_left indices_ne_nil
  text := by
    rw [text_between]
    rcases hfound.ne_nil with hne | ⟨text, rfl⟩
    · exact List.append_ne_nil_of_left_ne_nil hne _
    · exact List.append_ne_nil_of_right_ne_nil _ (List.cons_ne_nil _ _)
  blank hblank := by
    cases hfound with
    | blank h =>
      rw [given_between, position_before hline]
      exact ⟨_, rfl, h⟩
    | _ => cases hblank
  token t ht := by
    cases hfound with
    | token h hstart hstop =>
      cases ht
      rw [given_between, position_before hline, position_after hline, hstart, hstop,
        byteCount_append]
      exact ⟨taken, h, rfl, rfl, rfl, rfl⟩
    | _ => cases ht
  comment text htext := by
    cases hfound with
    | comment =>
      cases htext
      rw [given_between, between, map_snd_indices]
      exact ⟨rfl, rfl⟩
    | _ => cases htext

end Round

/-- The line with these tokens in front of its own. -/
def Line.behind (ts : List Token) (l : Line) : Line := { l with tokens := ts ++ l.tokens }

theorem map_behind_push (ts : List Token) (t : Token) (r : Except LineFault Line) :
    (r.map (Line.push t)).map (Line.behind ts) = r.map (Line.behind (ts ++ [t])) := by
  cases r with
  | error fault => rfl
  | ok l => simp [Except.map, Line.behind, Line.push]

theorem map_behind_last (ts : List Token) (comment : Option (List Char)) :
    (Except.ok ⟨[], comment⟩ : Except LineFault Line).map (Line.behind ts) =
      .ok ⟨ts, comment⟩ := by
  simp [Except.map, Line.behind]

theorem map_behind_nil (r : Except LineFault Line) : r.map (Line.behind []) = r := by
  cases r <;> rfl

namespace Progress

/-- What was read so far agrees with what the line says: the rounds took the line up to where the
characters stand, and the line reads as the tokens and then the rest. At the end the result is what
the line says, and if that is no fault, the rounds took all of it. -/
def Agrees (line : String) (w : Progress) : Prop :=
  match w.stage with
  | .reading => ∃ before cs, line.toList = before ++ cs ∧
      w.chars = indices (byteCount before) cs ∧ w.rounds.flatMap Round.text = before ∧
      lex line.toList = (lexFrom (byteCount before) cs).map (Line.behind w.tokens)
  | .ended result => result = lex line.toList ∧
      ∀ l, result = .ok l → w.rounds.flatMap Round.text = line.toList
  | .brokenOff => False

/-- In all rounds so far the views were in step, and each character was given out in one of them or
is still to be given out. -/
structure InStep (line : String) (w : Progress) : Prop where
  covers : indices 0 line.toList = w.rounds.flatMap Round.given ++ w.chars
  rounds : ∀ r ∈ w.rounds, r.InStep line
  agrees : w.Agrees line

variable {line : String} {w : Progress}

theorem inStep_start (line : String) : (start line).InStep line where
  covers := rfl
  rounds r hr := by cases hr
  agrees := ⟨[], line.toList, rfl, rfl, rfl, (map_behind_nil _).symm⟩

theorem inStep_add {before taken rest : List Char} {found : Found} {slices : List Slice}
    (hw : w.InStep line) (hline : line.toList = before ++ (taken ++ rest))
    (hchars : w.chars = indices (byteCount before) (taken ++ rest))
    (htext : w.rounds.flatMap Round.text = before)
    (hlex : lex line.toList =
      (lexFrom (byteCount before) (taken ++ rest)).map (Line.behind w.tokens))
    (hfound : Finds (byteCount before) taken rest found)
    (hslices : ∀ s ∈ slices, s.StandsIn line) :
    (w.add (Round.between before taken rest slices found)).InStep line where
  covers := by
    have hcovers := hw.covers
    rw [hchars, indices_append, ← byteCount_append] at hcovers
    rw [add, List.flatMap_append, List.flatMap_singleton, Round.given_between, List.append_assoc]
    exact hcovers
  rounds r hr := by
    rcases List.mem_append.mp hr with hr | hr
    · exact hw.rounds r hr
    · rw [List.mem_singleton.mp hr]
      exact Round.inStep_between hline hfound hslices
  agrees := by
    have hround : (w.add (Round.between before taken rest slices found)).rounds.flatMap Round.text =
        before ++ (Round.between before taken rest slices found).text := by
      rw [add, List.flatMap_append, List.flatMap_singleton, htext]
    rw [Round.text_between, ← List.append_assoc] at hround
    have hrest := hline.trans (List.append_assoc before taken rest).symm
    cases hfound with
    | @blank c _ hblank =>
      refine ⟨before ++ [c], rest, hrest, rfl, hround.trans (List.append_nil _), ?_⟩
      have hspace := lexFrom_space (List.forall_mem_singleton.mpr hblank) rest (byteCount before)
      rw [hlex, hspace, byteCount_append]
      exact congrArg (fun ts => Except.map (Line.behind ts) _) (List.append_nil w.tokens).symm
    | token h hstart hstop hlex' =>
      refine ⟨before ++ taken, rest, hrest, rfl, hround.trans (List.append_nil _), ?_⟩
      rw [hlex, hlex', map_behind_push, hstop, byteCount_append]
      rfl
    | @comment text =>
      have hend : lex line.toList = .ok ⟨w.tokens, some text⟩ := by
        rw [hlex, List.nil_append, lexFrom_comment, map_behind_last]
      refine ⟨hend.symm, fun l hl => ?_⟩
      rw [hround, hline, List.append_nil]
      rfl
    | fault hne hlex' =>
      refine ⟨?_, fun l hl => by cases hl⟩
      rw [hlex, hlex']
      rfl

theorem step_of_ne_reading (h : w.stage ≠ .reading) : step line w = w := by
  obtain ⟨stage, chars, tokens, rounds⟩ := w
  cases stage with
  | reading => exact absurd rfl h
  | ended => rfl
  | brokenOff => rfl

/-- What a step does while the line is being read: at the end of the line it gives the tokens, and
else it makes a round. If the line is still read then, there are fewer characters left. -/
theorem step_reading (hw : w.InStep line) (hstage : w.stage = .reading) :
    (step line w).InStep line ∧
      ((step line w).stage = .reading → (step line w).chars.length < w.chars.length) := by
  have hagrees := hw.agrees
  rw [Agrees, hstage] at hagrees
  obtain ⟨before, cs, hline, hchars, htext, hlex⟩ := hagrees
  cases cs with
  | nil =>
    have hstep : step line w = { w with stage := .ended (.ok ⟨w.tokens, none⟩) } := by
      rw [step, hstage, hchars]
      rfl
    have hend : lex line.toList = .ok ⟨w.tokens, none⟩ := by
      rw [hlex, lexFrom.eq_def]
      exact map_behind_last w.tokens none
    rw [hstep]
    refine ⟨⟨hw.covers, hw.rounds, hend.symm, fun l hl => ?_⟩, nofun⟩
    rw [htext, hline, List.append_nil]
  | cons c cs =>
    obtain ⟨⟨found, left⟩, slices, hrun, hslices, taken, rest, hcs, hleft, hfound⟩ :=
      gives_readNext hline [] (by simp)
    obtain rfl : left = indices (byteCount (before ++ taken)) rest := by
      rw [byteCount_append]
      exact hleft
    have hstep : step line w = w.add (Round.between before taken rest slices found) := by
      rw [Round.between, ← hcs]
      rw [indices] at hrun hchars ⊢
      rw [step, hstage, hchars]
      dsimp only
      rw [hrun]
    rw [hcs] at hline hchars hlex
    rw [hstep]
    refine ⟨inStep_add hw hline hchars htext hlex hfound hslices, fun hreading => ?_⟩
    -- The round that takes no character has found the comment, and the line is not read on.
    have hne : taken ≠ [] := by
      rcases hfound.ne_nil with hne | ⟨text, rfl⟩
      · exact hne
      · cases hreading
    have hpos := List.length_pos_iff.mpr hne
    rw [hchars, add, Round.between, length_indices, length_indices, List.length_append]
    omega

theorem inStep_step (hw : w.InStep line) : (step line w).InStep line := by
  by_cases hstage : w.stage = .reading
  · exact (step_reading hw hstage).1
  · rwa [step_of_ne_reading hstage]

theorem inStep_after (line : String) (n : Nat) : (after line n).InStep line := by
  induction n with
  | zero => exact inStep_start line
  | succ n ih => exact inStep_step ih

/-- While the line is read, each step leaves fewer characters of it. -/
theorem length_chars_after {n : Nat} (h : (after line n).stage = .reading) :
    n + (after line n).chars.length ≤ line.length := by
  induction n with
  | zero =>
    apply Nat.le_of_eq
    rw [after, start, length_indices, Nat.zero_add, String.length_toList]
  | succ n ih =>
    by_cases hstage : (after line n).stage = .reading
    · have hless := (step_reading (inStep_after line n) hstage).2 h
      have hle := ih hstage
      rw [after]
      omega
    · rw [after, step_of_ne_reading hstage] at h
      exact absurd h hstage

end Progress

/-- However many steps are made, the reader has not broken off, and all slices that it took begin
and end between characters of the line. After more steps than the line has characters it has ended
with what the line says. Each character was given out in just one round, in the order of the line,
or is still to be given out, and at the end of a line without a fault the rounds together took all
of it. Each round took some of the line, and behind a token the characters go on where its spelling
ends. No character is given out where a comment is found: the round takes it as a slice, and is the
last. -/
theorem both_views_of_a_line_stay_in_step (line : String) (n : Nat) :
    (Progress.after line n).stage ≠ .brokenOff ∧
    (line.length < n → (Progress.after line n).stage = .ended (lex line.toList)) ∧
    indices 0 line.toList =
      (Progress.after line n).rounds.flatMap Round.given ++ (Progress.after line n).chars ∧
    (∀ l, (Progress.after line n).stage = .ended (.ok l) →
      (Progress.after line n).rounds.flatMap Round.text = line.toList) ∧
    ∀ r ∈ (Progress.after line n).rounds, r.InStep line := by
  have hw := Progress.inStep_after line n
  have hagrees := hw.agrees
  rw [Progress.Agrees] at hagrees
  refine ⟨fun hstage => ?_, fun hlt => ?_, hw.covers, fun l hstage => ?_, hw.rounds⟩
  · rw [hstage] at hagrees
    exact hagrees
  · cases hstage : (Progress.after line n).stage with
    | reading =>
      have := Progress.length_chars_after hstage
      omega
    | ended result =>
      rw [hstage] at hagrees
      rw [hagrees.1]
    | brokenOff =>
      rw [hstage] at hagrees
      exact hagrees.elim
  · rw [hstage] at hagrees
    exact hagrees.2 l rfl

namespace Sample

/-- A bare word, two strings and a comment, with characters of one, two and three bytes. -/
def wideLine : String := "é\u00a0\"ü\\\"\"\x60ß(\x60//文"

theorem the_views_of_a_wide_line_stay_in_step :
    (Progress.after wideLine 16).stage = .ended (.ok ⟨[⟨.bare, ['é'], 0, 2⟩,
      ⟨.quoted, ['ü', '"'], 4, 10⟩, ⟨.raw, ['ß', '('], 10, 15⟩], some ['文']⟩) := by
  have hlex : (lex wideLine.toList).toOption = some ⟨[⟨.bare, ['é'], 0, 2⟩,
      ⟨.quoted, ['ü', '"'], 4, 10⟩, ⟨.raw, ['ß', '('], 10, 15⟩], some ['文']⟩ := by
    decide +kernel
  have hlength : wideLine.length < 16 := by decide +kernel
  rw [(both_views_of_a_line_stay_in_step wideLine 16).2.1 hlength, eq_ok_of_toOption hlex]

-- The bare word is cut out of the rest of the line, and the raw string and the comment too.
example : ((Progress.after wideLine 5).rounds.flatMap Round.slices).map
    (fun s => (s.start, s.stop)) =
      [(0, 20), (0, 2), (0, 2), (11, 20), (11, 14), (15, 20), (17, 20)] := by
  decide +kernel

end Sample
end Graft.Manifest
