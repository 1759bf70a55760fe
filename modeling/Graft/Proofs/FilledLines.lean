-- Filled stubs as lines of lexemes. What a stub says itself is cut into
-- lexemes once and for all; a parameter stands in a string of its line, where
-- any plain text leaves the other lexemes of the line as they are.
import Graft.Proofs.Filling
import Graft.Proofs.Lexemes

namespace Graft

open Go

/-! ## Lines around a string -/

namespace Go

/-- The lexemes of a text, without its ending. -/
def cut (cs : List Char) : List Lexeme := ((tokens cs).map Token.lexeme).dropLast

/-- The white space behind the last lexeme of a text. -/
def gapBehind (cs : List Char) : List Char := ((tokens cs).getLast?.map Token.before).getD []

theorem isProper_string (gap inside : List Char) :
    (Lexeme.string gap inside).isProper = gap.all isGap := by
  have hquote : isGap '"' = false := by decide
  simp [Lexeme.isProper, Lexeme.string, hquote]

theorem endsBefore_string {inside : List Char} (h : inside.all isPlain = true) (gap : List Char)
    (next : Char) : (Lexeme.string gap inside).endsBefore next = true := by
  have hlast : (inside ++ ['"']).getLast? = some '"' := by simp
  have hbody : (inside ++ ['"']).dropLast = inside := by simp
  change ((inside ++ ['"']).getLast? == some '"' &&
    (inside ++ ['"']).dropLast.all isPlain) = true
  rw [hlast, hbody, h]
  rfl

theorem headD_spelled_string (as bs : List Lexeme) (gap inside inside' : List Char) (c : Char) :
    (spelled (as ++ Lexeme.string gap inside :: bs)).headD c =
      (spelled (as ++ Lexeme.string gap inside' :: bs)).headD c := by
  rw [spelled_append, spelled_append, spelled_cons, spelled_cons]
  cases spelled as with
  | cons _ _ => rfl
  | nil =>
    cases gap with
    | cons _ _ => rfl
    | nil => rfl

/-- A plain text can be filled into any string of a line. -/
theorem areCut_string {as bs : List Lexeme} {gap inside inside' : List Char}
    (h : areCut (as ++ Lexeme.string gap inside' :: bs) = true) (hp : inside.all isPlain = true) :
    areCut (as ++ Lexeme.string gap inside :: bs) = true := by
  induction as with
  | nil =>
    simp only [List.nil_append, areCut, Bool.and_eq_true, isProper_string] at h ⊢
    exact ⟨⟨h.1.1, endsBefore_string hp _ _⟩, h.2⟩
  | cons a as ih =>
    simp only [List.cons_append, areCut, Bool.and_eq_true] at h ⊢
    rw [headD_spelled_string as bs gap inside inside']
    exact ⟨h.1, ih h.2⟩

end Go

namespace Stub

/-! ## Rows -/

/-- A line of a stub: a text of its own, or a string with a parameter between two texts. -/
inductive Row
  | own (text : List Char)
  | around (before : List Char) (p : Param) (after : List Char)

namespace Row

/-- The lexemes of the line. The quotes of the string stand at the inner ends of the two
texts. -/
def lexemes (value : Param → List Char) : Row → List Lexeme
  | own cs => cut cs
  | around before p after =>
    cut before.dropLast ++ Lexeme.string (gapBehind before.dropLast) (value p) :: cut after.tail

/-- The line comes to its lexemes where the parameter is empty. -/
def isCut : Row → Bool
  | own cs => areCut (cut cs) && spelled (cut cs) == cs
  | around before p after =>
    areCut (lexemes (fun _ => []) (around before p after)) &&
      spelled (cut before.dropLast) ++ gapBehind before.dropLast ++ ['"'] == before &&
      '"' :: spelled (cut after.tail) == after

/-- The parameters of the line. -/
def params : Row → List Param
  | own _ => []
  | around _ p _ => [p]

variable {value : Param → List Char}

theorem areCut_lexemes {r : Row} (h : r.isCut = true)
    (hv : ∀ p ∈ r.params, (value p).all isPlain = true) : areCut (r.lexemes value) = true := by
  cases r with
  | own cs =>
    simp only [isCut, Bool.and_eq_true] at h
    exact h.1
  | around before p after =>
    simp only [isCut, Bool.and_eq_true] at h
    exact areCut_string h.1.1 (hv p List.mem_cons_self)

/-- The text of the line. -/
def text (value : Param → List Char) : Row → List Char
  | own cs => cs
  | around before p after => before ++ value p ++ after

theorem spelled_lexemes {r : Row} (h : r.isCut = true) :
    spelled (r.lexemes value) = r.text value := by
  cases r with
  | own cs =>
    simp only [isCut, Bool.and_eq_true, beq_iff_eq] at h
    exact h.2
  | around before p after =>
    simp only [isCut, Bool.and_eq_true, beq_iff_eq] at h
    obtain ⟨⟨-, hbefore⟩, hafter⟩ := h
    unfold lexemes text
    rw [spelled_append, spelled_cons]
    calc spelled (cut before.dropLast) ++ (gapBehind before.dropLast ++
            ('"' :: value p ++ ['"']) ++ spelled (cut after.tail))
        = (spelled (cut before.dropLast) ++ gapBehind before.dropLast ++ ['"']) ++ value p ++
            ('"' :: spelled (cut after.tail)) := by simp
      _ = before ++ value p ++ after := by rw [hbefore, hafter]

end Row

/-- The items of a stub, as rows. -/
inductive Written : List Item → List Row → Prop
  | nil : Written [] []
  | blank {items : List Item} {rows : List Row} (h : Written items rows) :
    Written (gap :: items) (.own [] :: rows)
  | own {items : List Item} {rows : List Row} {cs : List Char} (h : Written items rows) :
    Written (say (String.ofList cs) :: items) (.own cs :: rows)
  | around {items : List Item} {rows : List Row} {before after : List Char} {p : Param}
    (h : Written items rows) :
    Written (.line [.text (String.ofList before), .hole p, .text (String.ofList after)] :: items)
      (.around before p after :: rows)

/-! ## What a stub is filled with -/

/-- What stands in the holes of a parameter. -/
def Data.shown (d : Data) (p : Param) : String := ((d.get? p).map Value.shown).getD ""

/-- What a line is repeated for. -/
def Data.entries (d : Data) (p : Param) : List String := ((d.get? p).map Value.entries).getD []

section

variable {d : Data} {block : Block → Except Undefined String}

theorem Piece.fill_hole {p : Param} (h : d.Gives [p]) (entry : String) (place : Undefined) :
    Piece.fill d entry place (.hole p) = .ok (d.shown p) := by
  obtain ⟨v, hv⟩ := h p List.mem_cons_self
  simp [fill, Data.shown, hv]

/-- The line is filled with this text. -/
def LineIs (d : Data) (entry : String) (pieces : List Piece) (cs : List Char) : Prop :=
  ∀ place, ∃ s, fillLine d entry place pieces = .ok s ∧ s.toList = cs

theorem lineIs_nil (entry : String) : LineIs d entry [] [] := fun _ => ⟨"", rfl, rfl⟩

theorem LineIs.cons {entry : String} {piece : Piece} {pieces : List Piece} {s : String}
    {cs : List Char} (hs : ∀ place, piece.fill d entry place = .ok s)
    (h : LineIs d entry pieces cs) : LineIs d entry (piece :: pieces) (s.toList ++ cs) := by
  intro place
  obtain ⟨t, ht, hcs⟩ := h place
  refine ⟨s ++ t, ?_, by rw [String.toList_append, hcs]⟩
  unfold fillLine
  rw [hs place, ht]
  rfl

theorem LineIs.text {entry : String} {pieces : List Piece} {cs : List Char}
    (h : LineIs d entry pieces cs) (s : String) :
    LineIs d entry (.text s :: pieces) (s.toList ++ cs) := h.cons fun _ => rfl

theorem LineIs.entry {entry : String} {pieces : List Piece} {cs : List Char}
    (h : LineIs d entry pieces cs) :
    LineIs d entry (.entry :: pieces) (entry.toList ++ cs) := h.cons fun _ => rfl

theorem LineIs.hole {entry : String} {pieces : List Piece} {cs : List Char} {p : Param}
    (h : LineIs d entry pieces cs) (hp : d.Gives [p]) :
    LineIs d entry (.hole p :: pieces) ((d.shown p).toList ++ cs) :=
  h.cons (Piece.fill_hole hp entry)

/-- The items are filled with lines of these lexemes. -/
def FilledBy (d : Data) (block : Block → Except Undefined String) (items : List Item)
    (lines : List (List Lexeme)) : Prop :=
  ∀ stub line, ∃ s, fillItems d stub block line items = .ok s ∧ s.toList = paged lines

theorem filledBy_nil : FilledBy d block [] [] := fun _ _ => ⟨"", rfl, rfl⟩

theorem FilledBy.append {items items' : List Item} {lines lines' : List (List Lexeme)}
    (h : FilledBy d block items lines) (h' : FilledBy d block items' lines') :
    FilledBy d block (items ++ items') (lines ++ lines') := by
  intro stub line
  obtain ⟨s, hs, hlines⟩ := h stub line
  obtain ⟨t, ht, hlines'⟩ := h' stub (line + heights items)
  refine ⟨s ++ t, fillItems_append stub hs ht, ?_⟩
  rw [String.toList_append, hlines, hlines']
  exact List.flatMap_append.symm

theorem filledBy_one {item : Item} {lines : List (List Lexeme)}
    (h : ∀ stub line, ∃ s, item.fill d stub block line = .ok s ∧ s.toList = paged lines) :
    FilledBy d block [item] lines := by
  intro stub line
  obtain ⟨s, hs, hlines⟩ := h stub line
  refine ⟨s, ?_, hlines⟩
  unfold fillItems
  rw [hs]
  change Except.ok (s ++ "") = _
  rw [String.append_empty]

theorem toList_endLine (s : String) : (endLine s).toList = s.toList ++ ['\n'] := by
  unfold endLine
  rw [String.toList_append]
  rfl

theorem FilledBy.line {pieces : List Piece} {ls : List Lexeme}
    (h : LineIs d "" pieces (spelled ls)) : FilledBy d block [.line pieces] [ls] := by
  refine filledBy_one fun stub line => ?_
  obtain ⟨s, hs, hcs⟩ := h ⟨stub, line⟩
  refine ⟨endLine s, ?_, ?_⟩
  · simp only [Item.fill, hs]
    rfl
  · rw [toList_endLine, hcs]
    simp [paged]

theorem FilledBy.whenSet {p : Param} {v : Value} {pieces : List Piece} {ls : List Lexeme}
    (hv : d.get? p = some v) (hset : v.isSet = true) (h : LineIs d "" pieces (spelled ls)) :
    FilledBy d block [.whenSet p pieces] [ls] := by
  refine filledBy_one fun stub line => ?_
  obtain ⟨s, hs, hcs⟩ := h ⟨stub, line + 1⟩
  refine ⟨endLine s, ?_, ?_⟩
  · simp only [Item.fill, hv, hset, if_true, hs]
    rfl
  · rw [toList_endLine, hcs]
    simp [paged]

theorem FilledBy.unset {p : Param} {v : Value} (hv : d.get? p = some v) (hset : v.isSet = false)
    (pieces : List Piece) : FilledBy d block [.whenSet p pieces] [] :=
  filledBy_one fun _ _ =>
    ⟨"", by simp only [Item.fill, hv, hset, Bool.false_eq_true, if_false], rfl⟩

/-- A line in front of others. -/
theorem FilledBy.cons {item : Item} {items : List Item} {ls : List Lexeme}
    {lines : List (List Lexeme)} (h : FilledBy d block [item] [ls])
    (h' : FilledBy d block items lines) : FilledBy d block (item :: items) (ls :: lines) :=
  h.append h'

theorem fillEach_is {pieces : List Piece} {ls : String → List Lexeme} {entries : List String}
    (h : ∀ e ∈ entries, LineIs d e pieces (spelled (ls e))) (place : Undefined) :
    ∃ s, fillEach d place pieces entries = .ok s ∧ s.toList = paged (entries.map ls) := by
  induction entries with
  | nil => exact ⟨"", rfl, rfl⟩
  | cons e es ih =>
    obtain ⟨s, hs, hcs⟩ := h e List.mem_cons_self place
    obtain ⟨t, ht, hlines⟩ := ih fun e' he' => h e' (List.mem_cons_of_mem e he')
    refine ⟨endLine s ++ t, ?_, ?_⟩
    · unfold fillEach
      rw [hs, ht]
      rfl
    · rw [String.toList_append, toList_endLine, hcs, hlines]
      simp [paged]

theorem FilledBy.each {p : Param} {pieces : List Piece} {ls : String → List Lexeme}
    (hp : d.Gives [p]) (h : ∀ e ∈ d.entries p, LineIs d e pieces (spelled (ls e))) :
    FilledBy d block [.each p pieces] ((d.entries p).map ls) := by
  obtain ⟨v, hv⟩ := hp p List.mem_cons_self
  have hentries : d.entries p = v.entries := by simp [Data.entries, hv]
  rw [hentries] at h ⊢
  refine filledBy_one fun stub line => ?_
  simp only [Item.fill, hv]
  exact fillEach_is h _

theorem FilledBy.slot {b : Block} {s : String} {lines : List (List Lexeme)}
    (hs : block b = .ok s) (hlines : s.toList = paged lines) :
    FilledBy d block [.slot b] lines := filledBy_one fun _ _ => ⟨s, hs, hlines⟩

/-- Rows are filled with their lexemes. -/
theorem Written.filledBy {items : List Item} {rows : List Row} (h : Written items rows)
    (hcut : rows.all Row.isCut = true) (hp : d.Gives (rows.flatMap Row.params)) :
    FilledBy d block items (rows.map (Row.lexemes fun p => (d.shown p).toList)) := by
  induction h with
  | nil => exact filledBy_nil
  | blank h ih =>
    simp only [List.all_cons, Bool.and_eq_true] at hcut
    refine .cons (.line ?_) (ih hcut.2 hp)
    rw [Row.spelled_lexemes hcut.1]
    exact lineIs_nil ""
  | @own items rows cs h ih =>
    simp only [List.all_cons, Bool.and_eq_true] at hcut
    refine .cons (.line ?_) (ih hcut.2 hp)
    rw [Row.spelled_lexemes hcut.1]
    simpa [Row.text] using (lineIs_nil (d := d) "").text (String.ofList cs)
  | @around items rows before after p h ih =>
    simp only [List.all_cons, Bool.and_eq_true] at hcut
    rw [List.flatMap_cons] at hp
    have hline := ((lineIs_nil (d := d) "").text (String.ofList after)).hole
      (hp.mono fun q hq => List.mem_append_left _ hq) |>.text (String.ofList before)
    refine .cons (.line ?_)
      (ih hcut.2 (hp.mono fun q hq => List.mem_append_right _ hq))
    rw [Row.spelled_lexemes hcut.1]
    simpa [Row.text] using hline

end

end Stub
end Graft
