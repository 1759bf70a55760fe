-- Lines that are written around names: imports, calls of functions of a
-- package, and calls of functions that take the router. Words are cut off by
-- the marks behind them, so each line is seen as what it was written for.
import Graft.Proofs.FilledLines
import Graft.Proofs.SourceParts

namespace Graft.Go

/-! ## Words in lines -/

def isWordText : List Char → Bool
  | [] => false
  | c :: cs => Text.isWordStart c && cs.all Text.isWordPart

theorem isWordText_iff {cs : List Char} : isWordText cs = true ↔ IsWord cs := by
  cases cs with
  | nil => simp [isWordText, IsWord]
  | cons c cs =>
    simp only [isWordText, IsWord, Bool.and_eq_true, List.all_eq_true]
    constructor
    · exact fun h => ⟨c, cs, rfl, h⟩
    · rintro ⟨_, _, heq, h⟩
      cases heq
      exact h

instance (cs : List Char) : Decidable (IsWord cs) := decidable_of_iff _ isWordText_iff

/-- A name that is no keyword and no predeclared word. -/
def IsIdentifier (name : String) : Prop :=
  IsWord name.toList ∧ ∀ e ∈ keywordTable, e.1 ≠ name

instance (name : String) : Decidable (IsIdentifier name) :=
  inferInstanceAs (Decidable (IsWord name.toList ∧ ∀ e ∈ keywordTable, e.1 ≠ name))

theorem wordClass_of_isIdentifier {name : String} (h : IsIdentifier name) :
    wordClass name.toList = .name := by
  have hnone : (keywordTable.find? fun e => e.1.toList == name.toList) = none := by
    rw [List.find?_eq_none]
    intro e he heq
    exact h.2 e he (String.toList_inj.mp (beq_iff_eq.mp heq))
  unfold wordClass
  rw [hnone]

theorem canName_wordClass (word : List Char) : canName [] (wordClass word) = true := by
  unfold wordClass
  split <;> rfl

theorem not_isGap_of_isWordStart {c : Char} (h : Text.isWordStart c = true) : isGap c = false := by
  cases hgap : isGap c with
  | false => rfl
  | true =>
    simp only [isGap, Bool.or_eq_true, beq_iff_eq] at hgap
    rcases hgap with ((((rfl | rfl) | rfl) | rfl) | rfl) | rfl <;> exact absurd h (by decide)

theorem endsBefore_word {gap word : List Char} {next : Char} (hw : IsWord word)
    (hn : Text.isWordPart next = false) : (Lexeme.word gap word).endsBefore next = true := by
  obtain ⟨c, cs, rfl, hc, hcs⟩ := hw
  have hall : cs.all Text.isWordPart = true := List.all_eq_true.mpr hcs
  have hname := canName_wordClass (c :: cs)
  unfold Lexeme.endsBefore Lexeme.word
  dsimp only
  generalize hclass : wordClass (c :: cs) = sort at hname ⊢
  cases sort with
  | name => simp [hc, hall, hclass, hn]
  | keyword k => simp [hc, hall, hclass, hn]
  | _ => cases hname

/-- A word is cut off by what cannot go on with it. -/
theorem areCut_word {gap word : List Char} {ls : List Lexeme} (hgap : gap.all isGap = true)
    (hw : IsWord word) (hn : Text.isWordPart ((spelled ls).headD '\n') = false)
    (h : areCut ls = true) : areCut (Lexeme.word gap word :: ls) = true := by
  have hproper : (Lexeme.word gap word).isProper = true := by
    obtain ⟨c, cs, rfl, hc, -⟩ := hw
    simp [Lexeme.isProper, Lexeme.word, hgap, not_isGap_of_isWordStart hc]
  simp only [areCut, Bool.and_eq_true]
  exact ⟨⟨hproper, endsBefore_word hw hn⟩, h⟩

/-- A word is seen as it is. -/
theorem glyphsFrom_word (ended : Bool) (gap word : List Char) (ls : List Lexeme) :
    glyphsFrom ended (Lexeme.word gap word :: ls) =
      ⟨wordClass word, ended || gap.contains '\n', word⟩ :: glyphsFrom false ls := by
  have hsort : wordClass word ≠ .comment := by
    intro h
    have hname := canName_wordClass word
    rw [h] at hname
    cases hname
  exact if_neg hsort

def Lexeme.dot : Lexeme := ⟨[], .mark .dot, ['.']⟩

def Lexeme.opening : Lexeme := ⟨[], .mark .parenOpen, ['(']⟩

def Lexeme.closing : Lexeme := ⟨[], .mark .parenClose, [')']⟩

theorem isDigit_of_isWordStart {c : Char} (h : Text.isWordStart c = true) : c.isDigit = false := by
  cases hdigit : c.isDigit with
  | false => rfl
  | true =>
    simp only [Char.isDigit, Bool.and_eq_true, decide_eq_true_eq, UInt32.le_iff_toNat_le] at hdigit
    have hlow : c.toNat < 128 := Nat.lt_of_le_of_lt hdigit.2 (by decide)
    have hline : c ≠ '_' := by
      rintro rfl
      exact absurd hdigit.2 (by decide)
    have hupper : c.isUpper = false := by
      refine decide_eq_false fun hle => ?_
      exact absurd (Nat.le_trans (UInt32.le_iff_toNat_le.mp hle.1) hdigit.2) (by decide)
    have hlower : c.isLower = false := by
      refine Bool.and_eq_false_imp.mpr fun hle => ?_
      rw [decide_eq_true_eq] at hle
      exact absurd (Nat.le_trans (UInt32.le_iff_toNat_le.mp hle) hdigit.2) (by decide)
    have halpha : c.isAlpha = (c.isUpper || c.isLower) := rfl
    unfold Text.isWordStart at h
    rw [if_pos hlow, halpha, hupper, hlower] at h
    simp [hline] at h

theorem endsMark_dot {next : Char} (h : next ≠ '.') : endsMark ['.'] next = true := by
  simp [endsMark, markTable, List.isPrefixOf, h]

theorem endsBefore_dot {next : Char} (h : Text.isWordStart next = true) :
    Lexeme.dot.endsBefore next = true := by
  have hdot : next ≠ '.' := by
    rintro rfl
    exact absurd h (by decide)
  have hmark : mark? ['.'] = some (.dot, 1) := by decide
  change (opensMark '.' && ('.' != '.' || !next.isDigit) && mark? ['.'] == some (.dot, 1) &&
    endsMark ['.'] next) = true
  rw [isDigit_of_isWordStart h, hmark, endsMark_dot hdot]
  decide

theorem areCut_dot {word : List Char} {ls : List Lexeme} (hw : IsWord word)
    (h : areCut (Lexeme.word [] word :: ls) = true) :
    areCut (Lexeme.dot :: Lexeme.word [] word :: ls) = true := by
  have hproper : Lexeme.dot.isProper = true := by decide
  rw [areCut, h, hproper]
  obtain ⟨c, cs, rfl, hc, -⟩ := hw
  rw [show ((spelled (Lexeme.word [] (c :: cs) :: ls)).headD '\n') = c from rfl, endsBefore_dot hc]
  rfl

/-! ## Imports -/

namespace Import

/-- The import can be written: its name is a word, and its path can stand between quotes. -/
structure IsWritable (i : Import) : Prop where
  name : ∀ name, i.name = some name → IsWord name.toList
  path : IsImportPath i.path

/-- The line of the import. -/
def line (i : Import) : List Lexeme :=
  match i.name with
  | some name => [.word ['\t'] name.toList, .string [' '] i.path.toList]
  | none => [.string ['\t'] i.path.toList]

theorem spelled_line (i : Import) : spelled i.line = '\t' :: i.display.toList := by
  obtain ⟨name, path⟩ := i
  cases name <;> simp [line, display, Lexeme.word, Lexeme.string]

theorem areCut_line {i : Import} (h : i.IsWritable) : areCut i.line = true := by
  obtain ⟨name, path⟩ := i
  have hplain : path.toList.all isPlain = true :=
    List.all_eq_true.mpr fun c hc => (h.path c hc).1
  have hstring : ∀ gap, gap.all isGap = true → areCut [Lexeme.string gap path.toList] = true := by
    intro gap hgap
    simp [areCut, isProper_string, hgap, endsBefore_string hplain]
  cases name with
  | none => exact hstring _ (by decide)
  | some name =>
    exact areCut_word (by decide) (h.name name rfl)
      (show Text.isWordPart ' ' = false by decide) (hstring _ (by decide))

/-- What is seen as the line of an import is this import. -/
theorem isSpec_of_glyphs {i : Import} {xs : List Item} (hx : xs.map Item.glyph = lineGlyphs i.line) :
    IsSpec i xs ∧ Opens (fun _ => True) xs := by
  obtain ⟨name, path⟩ := i
  cases name with
  | none =>
    obtain ⟨y, rfl, hy⟩ := List.map_eq_singleton_iff.mp
      (hx : xs.map Item.glyph = [⟨.string, true, '"' :: path.toList ++ ['"']⟩])
    refine ⟨.plain rfl (congrArg Glyph.sort hy) (congrArg Glyph.text hy), y, [], rfl, ?_, trivial⟩
    exact congrArg Glyph.opensLine hy
  | some name =>
    have hline : lineGlyphs (line ⟨some name, path⟩) = [⟨wordClass name.toList, true, name.toList⟩,
        ⟨.string, false, '"' :: path.toList ++ ['"']⟩] := glyphsFrom_word true ['\t'] _ _
    rw [hline] at hx
    obtain ⟨x, ys, rfl, hname, hys⟩ := List.map_eq_cons_iff.mp hx
    obtain ⟨y, rfl, hy⟩ := List.map_eq_singleton_iff.mp hys
    have hsort := congrArg Glyph.sort hname
    have hopens := congrArg Glyph.opensLine hname
    refine ⟨.named rfl ?_ (congrArg Glyph.text hname) (congrArg Glyph.sort hy)
      (congrArg Glyph.text hy), x, [y], rfl, hopens, trivial⟩
    rw [show x.token.sort = wordClass name.toList from hsort]
    exact canName_wordClass _

end Import

/-! ## Calls -/

section

variable (ls : List Lexeme)

theorem glyphsFrom_dot : glyphsFrom false (.dot :: ls) = dotGlyph :: glyphsFrom false ls := rfl

theorem glyphsFrom_opening :
    glyphsFrom false (.opening :: ls) = openGlyph :: glyphsFrom false ls := rfl

theorem glyphsFrom_closing :
    glyphsFrom false (.closing :: ls) = closeGlyph :: glyphsFrom false ls := rfl

theorem glyphsFrom_name {name : String} (h : IsIdentifier name) :
    glyphsFrom false (.word [] name.toList :: ls) =
      nameGlyph false name :: glyphsFrom false ls := by
  rw [glyphsFrom_word, wordClass_of_isIdentifier h]
  rfl

theorem lineGlyphs_name {name : String} (h : IsIdentifier name) (gap : List Char) :
    lineGlyphs (.word gap name.toList :: ls) = nameGlyph true name :: glyphsFrom false ls := by
  rw [lineGlyphs, glyphsFrom_word, wordClass_of_isIdentifier h]
  rfl

end

/-- The line of a call of a function of a package. -/
def selectedLine (package name : String) : List Lexeme :=
  [.word ['\t'] package.toList, .dot, .word [] name.toList, .opening, .closing]

/-- Brackets behind a word, at the end of a line. -/
theorem areCut_brackets : areCut [Lexeme.opening, .closing] = true := by decide

theorem areCut_selectedLine {package name : String} (hp : IsIdentifier package)
    (hn : IsIdentifier name) : areCut (selectedLine package name) = true :=
  areCut_word (by decide) hp.1 (show Text.isWordPart '.' = false by decide)
    (areCut_dot hn.1 (areCut_word rfl hn.1 (show Text.isWordPart '(' = false by decide)
      areCut_brackets))

theorem lineGlyphs_selectedLine {package name : String} (hp : IsIdentifier package)
    (hn : IsIdentifier name) :
    lineGlyphs (selectedLine package name) = selectedGlyphs package name := by
  unfold selectedLine
  rw [lineGlyphs_name _ hp, glyphsFrom_dot, glyphsFrom_name _ hn]
  rfl

namespace Registrer

/-- The names in the expression are identifiers. -/
structure IsNamed (r : Registrer) : Prop where
  lead : IsIdentifier r.lead
  field : ∀ field, r.field = some field → IsIdentifier field

/-- What stands behind the names: the router between brackets. -/
def lineBehind (called : Bool) : List Lexeme :=
  let argument := [.opening, .word [] "router".toList, .closing]
  if called then .opening :: .closing :: argument else argument

/-- The line of the call of the function with the router. -/
def line (r : Registrer) : List Lexeme :=
  match r.field with
  | none => .word ['\t'] r.lead.toList :: lineBehind r.called
  | some field =>
    .word ['\t'] r.lead.toList :: .dot :: .word [] field.toList :: lineBehind r.called

theorem spelled_line (r : Registrer) :
    spelled r.line = '\t' :: (r.expr.display.toList ++ "(router)".toList) := by
  obtain ⟨lead, field, called⟩ := r
  cases field <;> cases called <;>
    simp [line, expr, named, lineBehind, Expr.display, Expr.displayArgs, Lexeme.word, Lexeme.dot,
      Lexeme.opening, Lexeme.closing]

theorem areCut_lineBehind (called : Bool) : areCut (lineBehind called) = true := by
  cases called <;> decide

/-- The names are cut off by what stands behind them. -/
theorem not_isWordPart_behind (called : Bool) :
    Text.isWordPart ((spelled (lineBehind called)).headD '\n') = false := by
  cases called <;> decide

theorem areCut_line {r : Registrer} (h : r.IsNamed) : areCut r.line = true := by
  obtain ⟨lead, field, called⟩ := r
  obtain ⟨hlead, hfield⟩ := h
  have hbehind := areCut_lineBehind called
  have hparen := not_isWordPart_behind called
  cases field with
  | none => exact areCut_word (by decide) hlead.1 hparen hbehind
  | some field =>
    have hname := hfield field rfl
    exact areCut_word (by decide) hlead.1 (show Text.isWordPart '.' = false by decide)
      (areCut_dot hname.1 (areCut_word rfl hname.1 hparen hbehind))

theorem isIdentifier_router : IsIdentifier "router" := by decide

theorem glyphsFrom_lineBehind (called : Bool) :
    glyphsFrom false (lineBehind called) = glyphsBehind called := by
  have hargument := glyphsFrom_name [.closing] isIdentifier_router
  rw [glyphsFrom_closing] at hargument
  cases called with
  | false =>
    change glyphsFrom false (.opening :: _) = _
    rw [glyphsFrom_opening, hargument]
    rfl
  | true =>
    change glyphsFrom false (.opening :: .closing :: .opening :: _) = _
    rw [glyphsFrom_opening, glyphsFrom_closing, glyphsFrom_opening, hargument]
    rfl

theorem lineGlyphs_line {r : Registrer} (h : r.IsNamed) : lineGlyphs r.line = r.glyphs := by
  obtain ⟨lead, field, called⟩ := r
  obtain ⟨hlead, hfield⟩ := h
  unfold line glyphs
  cases field with
  | none =>
    dsimp only
    rw [lineGlyphs_name _ hlead, glyphsFrom_lineBehind]
  | some field =>
    dsimp only
    rw [lineGlyphs_name _ hlead, glyphsFrom_dot, glyphsFrom_name _ (hfield field rfl),
      glyphsFrom_lineBehind]

end Registrer

end Graft.Go
