-- What opens no token is never read. No rule of the grammar takes junk, so a
-- rule leaves as much of it as it finds, and a text with a character that
-- opens no token is refused whole. A string that is stopped before its closing
-- quote, by a line end or a null character, opens with such a character.
import Graft.Proofs.Lexemes

namespace Graft.Go

/-! ## Rules leave junk where it is -/

/-- The item stands for a character that opens no token. -/
def Item.isJunk (i : Item) : Bool := i.token.sort == .junk

/-- How many items are junk. -/
def junkIn (items : List Item) : Nat := items.countP Item.isJunk

/-- The rule asks for no junk. -/
def Rule.asksTokens : Rule → Bool
  | .token sort _ => sort != .junk
  | .seq r s | .alt r s | .chain r s | .once _ r s => r.asksTokens && s.asksTokens
  | .many r | .node _ r | .role _ r | .lines _ r | .literals _ r => r.asksTokens
  | _ => true

theorem asksTokens_grammar (p : Part) : (grammar p).asksTokens = true := by
  cases p <;> rfl

/-- As much junk is left as was there. -/
def LeavesJunk (reads : List Item → Reading) : Prop :=
  ∀ items ss rest, reads items = some (ss, rest) → junkIn rest = junkIn items

/-- What a rule takes is no junk, so as much is left as was there. -/
theorem Rule.Takes.junkIn {r : Rule} {items rest : List Item} {ss : List Shape}
    (h : r.Takes items ss rest) (hr : r.asksTokens = true) : junkIn rest = junkIn items := by
  induction h with
  | done | here | openLiterals | absent | none | lineEnd => rfl
  | token hs =>
    refine (List.countP_cons_of_neg ?_).symm
    rw [Item.isJunk, hs, beq_iff_eq]
    exact bne_iff_ne.mp hr
  | word hs =>
    refine (List.countP_cons_of_neg fun hjunk => ?_).symm
    rw [eq_of_beq hjunk] at hs
    cases hs
  | terminator hs =>
    refine (List.countP_cons_of_neg fun hjunk => ?_).symm
    rw [eq_of_beq hjunk] at hs
    rcases hs with hs | hs <;> cases hs
  | seq _ _ ihr ihs | once _ _ ihr ihs =>
    simp only [asksTokens, Bool.and_eq_true] at hr
    exact (ihs hr.2).trans (ihr hr.1)
  | left _ ih | first _ ih | alone _ ih =>
    simp only [asksTokens, Bool.and_eq_true] at hr
    exact ih hr.1
  | right _ ih =>
    simp only [asksTokens, Bool.and_eq_true] at hr
    exact ih hr.2
  | more _ _ ihr ihm => exact (ihm hr).trans (ihr hr)
  | goesOn _ _ ihl ihn =>
    have hleft := ihl hr
    simp only [asksTokens, Bool.and_eq_true] at hr
    exact (ihn hr.2).trans hleft
  | node _ ih | role _ ih | lines _ ih | literals _ ih => exact ih hr
  | @part p _ _ _ _ ih => exact ih (asksTokens_grammar p)

/-- No rule of the grammar reads junk. -/
theorem leavesJunk_read {r : Rule} (hr : r.asksTokens = true) (fuel : Nat) (mode : Mode) :
    LeavesJunk (r.read grammar fuel mode) :=
  fun _ _ _ hread => (Rule.takes_read hread).junkIn hr

/-! ## Texts with junk -/

theorem junkIn_itemsFrom (comments : List Token) (lineEnded : Bool) (ts : List Token) :
    junkIn (itemsFrom comments lineEnded ts) = ts.countP fun t => t.sort == .junk := by
  induction ts generalizing comments lineEnded with
  | nil => rfl
  | cons t ts ih =>
    unfold itemsFrom
    dsimp only
    split
    · next hcomment => rw [ih, List.countP_cons_of_neg (by simp [hcomment])]
    · rw [junkIn, List.countP_cons, List.countP_cons, ← ih [] false]
      rfl

/-- A text with a character that opens no token is refused. -/
theorem parse_of_junk {source : List Char} {t : Token} (ht : t ∈ tokens source)
    (hjunk : t.sort = .junk) : ∃ place, parse source = .error place := by
  have hsome : 0 < junkIn (items (tokens source)) := by
    unfold items
    rw [junkIn_itemsFrom]
    exact List.countP_pos_iff.mpr ⟨t, ht, by simp [hjunk]⟩
  have hleft : junkIn (readSource (items (tokens source))).2 = junkIn (items (tokens source)) := by
    unfold readSource
    split
    · next found hread => exact leavesJunk_read (by rfl) _ _ _ found.1 found.2 hread
    · rfl
  rw [← hleft] at hsome
  unfold parse
  split
  · next shapes last hread =>
    rw [hread] at hsome
    split
    · next hending => simp [junkIn, Item.isJunk, hending] at hsome
    · exact ⟨_, rfl⟩
  · exact ⟨_, rfl⟩

/-! ## Strings that are stopped -/

/-- No string goes on behind this character. -/
def stopsString (c : Char) : Bool := c == '\n' || c == null

/-- A text in which a string is stopped before anything could close it. -/
inductive IsStopped : List Char → Prop
  | stop {c : Char} (hc : stopsString c = true) (rest : List Char) : IsStopped (c :: rest)
  | plain {c : Char} {cs : List Char} (hc : isPlain c = true) (h : IsStopped cs) :
    IsStopped (c :: cs)

section Stopped

variable {cs : List Char}

theorem IsStopped.append (h : IsStopped cs) (more : List Char) : IsStopped (cs ++ more) := by
  induction h with
  | stop hc rest => exact .stop hc _
  | plain hc h ih => exact .plain hc ih

theorem IsStopped.behind (h : IsStopped cs) {front : List Char} (hp : front.all isPlain = true) :
    IsStopped (front ++ cs) := by
  induction front with
  | nil => exact h
  | cons c front ih =>
    rw [List.all_cons, Bool.and_eq_true] at hp
    exact .plain hp.1 (ih hp.2)

theorem stringBody_stopped (h : IsStopped cs) (fuel : Nat) : stringBody fuel cs = none := by
  induction h generalizing fuel with
  | @stop c hc rest =>
    cases fuel with
    | zero => rfl
    | succ fuel =>
      have hquote : (c == '"') = false := by
        rw [beq_eq_false_iff_ne]
        rintro rfl
        exact absurd hc (by decide)
      unfold stopsString at hc
      simp only [stringBody, hquote, hc, Bool.false_eq_true, if_false, if_true]
  | @plain c cs hc h ih =>
    cases fuel with
    | zero => rfl
    | succ fuel =>
      simp only [isPlain, Bool.and_eq_true, bne_iff_ne] at hc
      obtain ⟨⟨⟨hquote, hslash⟩, hline⟩, hnull⟩ := hc
      simp [stringBody, hquote, hslash, hline, hnull, ih fuel]

/-- The quote of a string that is stopped opens no token. -/
theorem scan_stopped (h : IsStopped cs) : scan ('"' :: cs) = (.junk, 1) := by
  unfold scan
  dsimp only
  rw [commentLength_of_ne (by decide), if_neg (by omega), if_neg (by decide),
    if_pos (by decide), stringBody_stopped h]

/-- The text holds a character that opens no token, wherever it stands. -/
def HoldsJunk (cs : List Char) : Prop :=
  ∀ place before, ∃ t ∈ tokensFrom place before cs, t.sort = .junk

theorem HoldsJunk.gap {gap : List Char} (hgap : ∀ c ∈ gap, isGap c = true) (h : HoldsJunk cs) :
    HoldsJunk (gap ++ cs) := by
  intro place before
  obtain ⟨place', hmoved⟩ := tokensFrom_gap hgap place before cs
  rw [hmoved]
  exact h place' _

theorem HoldsJunk.lexeme {l : Lexeme} {next : Char} (hl : l.isProper = true)
    (hn : l.endsBefore next = true) (h : HoldsJunk (next :: cs)) :
    HoldsJunk (l.gap ++ l.text ++ next :: cs) := by
  intro place before
  obtain ⟨t, place', -, hmore⟩ := tokensFrom_lexeme hl hn place before cs
  obtain ⟨u, hu, hjunk⟩ := h place' []
  rw [hmore]
  exact ⟨u, List.mem_cons_of_mem t hu, hjunk⟩

theorem areCut_of_append {as bs : List Lexeme} (h : areCut (as ++ bs) = true) :
    areCut bs = true := by
  induction as with
  | nil => exact h
  | cons a as ih =>
    simp only [List.cons_append, areCut, Bool.and_eq_true] at h
    exact ih h.2

/-- Lexemes are cut off in front of junk that opens as what is expected there. -/
theorem HoldsJunk.lexemes {front ls : List Lexeme} {c : Char}
    (hcut : areCut (front ++ ls) = true) (hc : (spelled ls).headD '\n' = c)
    (h : HoldsJunk (c :: cs)) : HoldsJunk (spelled front ++ c :: cs) := by
  induction front with
  | nil => exact h
  | cons a front ih =>
    simp only [List.cons_append, areCut, Bool.and_eq_true] at hcut
    obtain ⟨⟨ha, hends⟩, hfront⟩ := hcut
    have hmore := ih hfront
    obtain ⟨next, more, hnext, hhead⟩ : ∃ next more, spelled front ++ c :: cs = next :: more ∧
        (spelled (front ++ ls)).headD '\n' = next := by
      rw [spelled_append]
      cases spelled front with
      | cons d ds => exact ⟨d, _, rfl, rfl⟩
      | nil => exact ⟨c, cs, rfl, hc⟩
    rw [hnext] at hmore
    rw [spelled_cons, List.append_assoc, hnext]
    exact hmore.lexeme ha (hhead ▸ hends)

/-- A string that is stopped, in a line that could hold a string there. -/
theorem holdsJunk_of_stopped {front ls : List Lexeme} {gap : List Char}
    (hcut : areCut (front ++ Lexeme.string gap [] :: ls) = true) (h : IsStopped cs) :
    HoldsJunk (spelled front ++ (gap ++ '"' :: cs)) := by
  have hstring : HoldsJunk ('"' :: cs) := by
    intro place before
    rw [tokensFrom, if_neg (by decide), scan_stopped h]
    exact ⟨_, List.mem_cons_self, rfl⟩
  have hproper := areCut_of_append hcut
  simp only [areCut, Lexeme.isProper, Bool.and_eq_true, List.all_eq_true] at hproper
  have hall := hstring.gap hproper.1.1.1
  cases gap with
  | nil => exact hall.lexemes hcut rfl
  | cons c gap => exact hall.lexemes hcut rfl

/-- Lines that are cut into lexemes, in front of junk. -/
theorem HoldsJunk.lines {lines : List (List Lexeme)} (hcut : ∀ ls ∈ lines, areCut ls = true)
    (h : HoldsJunk cs) : HoldsJunk (paged lines ++ cs) := by
  induction lines with
  | nil => exact h
  | cons ls lines ih =>
    have hmore := ih fun ms hms => hcut ms (List.mem_cons_of_mem ls hms)
    have hgap : ∀ c ∈ ['\n'], isGap c = true := List.forall_mem_singleton.mpr rfl
    have hline : HoldsJunk ('\n' :: (paged lines ++ cs)) := hmore.gap hgap
    have hcutLine : areCut (ls ++ []) = true := by
      rw [List.append_nil]
      exact hcut ls List.mem_cons_self
    simpa [paged] using hline.lexemes hcutLine rfl

/-- A text is refused where a string is stopped on a line behind a comment and lines that are
cut into lexemes. -/
theorem parse_of_stopped {inside gap : List Char} {lines : List (List Lexeme)}
    {front ls : List Lexeme} (hlines : ∀ ls ∈ [Lexeme.remark inside] :: lines, areCut ls = true)
    (hcut : areCut (front ++ Lexeme.string gap [] :: ls) = true) (h : IsStopped cs) :
    ∃ place, parse (paged ([Lexeme.remark inside] :: lines) ++
      (spelled front ++ (gap ++ '"' :: cs))) = .error place := by
  obtain ⟨t, ht, hjunk⟩ := (holdsJunk_of_stopped hcut h).lines hlines ⟨0, 0⟩ []
  exact parse_of_junk ht hjunk

end Stopped

end Graft.Go
