-- Sources that are read line by line. In a list between brackets, and at the
-- top of a file, an entry ends where the next line opens: the terminator uses
-- up the line end, and the next entry is read as if it stood on the same line.
import Graft.Proofs.Lexemes
import Graft.Proofs.SourceTrees

namespace Graft.Go

open Rule

/-! ## Opening a line -/

/-- The first item opens a line, and its class is one of these. -/
def Opens (classes : Class → Prop) (xs : List Item) : Prop :=
  ∃ i is, xs = i :: is ∧ i.opensLine = true ∧ classes i.token.sort

theorem Opens.append {classes : Class → Prop} {xs : List Item} (h : Opens classes xs)
    (ys : List Item) : Opens classes (xs ++ ys) := by
  obtain ⟨i, is, rfl, hline, hclass⟩ := h
  exact ⟨i, is ++ ys, rfl, hline, hclass⟩

/-- The items behind a terminator that was a line end. -/
def unlinedHead : List Item → List Item
  | [] => []
  | i :: is => i.unlined :: is

theorem unlinedHead_append {classes : Class → Prop} {xs : List Item} (h : Opens classes xs)
    (ys : List Item) : unlinedHead (xs ++ ys) = unlinedHead xs ++ ys := by
  obtain ⟨i, is, rfl, -, -⟩ := h
  rfl

/-- The outlines behind a terminator that was a line end. -/
def unlinedOutlines : List Outline → List Outline
  | [] => []
  | g :: gs => (g.1, false) :: gs

theorem outlines_unlinedHead (xs : List Item) :
    (unlinedHead xs).map Item.outline = unlinedOutlines (xs.map Item.outline) := by
  cases xs <;> rfl

def Glyph.outline (g : Glyph) : Outline := (g.sort, g.opensLine)

theorem outlines_of_glyphs {xs : List Item} {gs : List Glyph} (h : xs.map Item.glyph = gs) :
    xs.map Item.outline = gs.map Glyph.outline := by
  rw [← h, List.map_map]
  rfl

/-! ## What is read of an outline -/

/-- The rule reads the outline up to its entry `k`, which it leaves on its line or takes the
line end from, and there is no import in what it reads. -/
def leaves (n : Nat) (mode : Mode) (r : Rule) (gs : List Outline) (k : Nat) (ends : Bool) : Bool :=
  match r.glimpse grammar n mode (numbered gs) with
  | some (some (ss, rest)) =>
    let left := (numbered gs).drop k
    rest == (if ends then unlinedHead left else left) && Shape.lackAll .importSpec ss
  | _ => false

/-- The rule cannot read the outline. -/
def refuses (n : Nat) (mode : Mode) (r : Rule) (gs : List Outline) : Bool :=
  match r.glimpse grammar n mode (numbered gs) with
  | some none => true
  | _ => false

section Outlines

variable {n : Nat} {mode : Mode} {r : Rule} {xs : List Item}

theorem map_unlinedHead {f : Item → Item} (hf : Fills f) (xs : List Item) :
    (unlinedHead xs).map f = unlinedHead (xs.map f) := by
  cases xs with
  | nil => rfl
  | cons i is => simp [unlinedHead, Item.unlined, hf.unlined]

/-- What can be read of an outline can be read of all items with this outline. -/
theorem reads_of_leaves {k : Nat} {ends : Bool}
    (h : leaves n mode r (xs.map Item.outline) k ends = true) (tail : List Item) :
    ∃ ss, Reads n mode r (xs ++ tail)
        (some (ss, (if ends then unlinedHead (xs.drop k) else xs.drop k) ++ tail)) ∧
      States .none ss := by
  unfold leaves at h
  split at h
  · next ss rest hg =>
    simp only [Bool.and_eq_true, beq_iff_eq] at h
    obtain ⟨hrest, hlacks⟩ := h
    refine ⟨ss.map (Shape.map (fillFrom xs)), ?_, ?_⟩
    · have hread := Reads.of_glimpse rfl hg tail
      simp only [Option.map_some, carried, hrest] at hread
      cases ends with
      | false => simpa [map_fillFrom_numbered] using hread
      | true => simpa [map_unlinedHead (fills_fillFrom xs), map_fillFrom_numbered] using hread
    · refine states_none ?_
      rw [← Shape.mapAll_eq, Shape.lackAll_map, hlacks]
  · cases h

theorem reads_of_refuses (h : refuses n mode r (xs.map Item.outline) = true) (tail : List Item) :
    Reads n mode r (xs ++ tail) none := by
  unfold refuses at h
  split at h
  · next hg => exact Reads.of_glimpse rfl hg tail
  · cases h

end Outlines

/-! ## Entries on lines of their own -/

section Entries

variable {n : Nat} {mode : Mode} {r entry : Rule} {items rest tail : List Item}
  {ss ts : List Shape} {classes : Class → Prop} {close : Item} {g h : Gist}

theorem Reads.seq_none_right {s : Rule} (hr : Reads n mode r items (some (ss, rest)))
    (hs : Reads n mode s rest none) : Reads (n + 1) mode (.seq r s) items none :=
  reads_succ fun fuel hf => by simp only [Rule.read, hr fuel hf, hs fuel hf]

theorem Reads.maybe (hr : Reads n mode r items (some (ss, rest))) :
    Reads (n + 1) mode (Rule.maybe r) items (some (ss, rest)) := hr.alt_left

/-- The items are an entry where the next line opens with one of the classes, and so does the
entry. -/
structure IsEntry (n : Nat) (mode : Mode) (entry : Rule) (classes : Class → Prop)
    (xs : List Item) (g : Gist) : Prop where
  opens : Opens classes xs
  reads : ∀ rest, Opens classes rest →
    ∃ ss, Reads n mode entry (unlinedHead xs ++ rest) (some (ss, rest)) ∧ States g ss

theorem opens_entries {es : List (List Item × Gist)}
    (he : ∀ e ∈ es, IsEntry n mode entry classes e.1 e.2)
    (hclose : Opens classes (close :: tail)) :
    Opens classes (es.flatMap Prod.fst ++ close :: tail) := by
  cases es with
  | nil => exact hclose
  | cons e es =>
    rw [List.flatMap_cons, List.append_assoc]
    exact (he e List.mem_cons_self).opens.append _

/-- Entries that open a line each, up to an item that is none. -/
theorem readsMany_entries {es : List (List Item × Gist)}
    (he : ∀ e ∈ es, IsEntry n mode entry classes e.1 e.2) (hclose : Opens classes (close :: tail))
    (hno : Reads n mode entry (close.unlined :: tail) none) (hn : 1 ≤ n) :
    ∃ ss, ReadsMany (n + 1 + es.length) mode (.seq .terminator entry)
        (es.flatMap Prod.fst ++ close :: tail) (ss, close :: tail) ∧
      States (.all (es.map Prod.snd)) ss := by
  induction es with
  | nil =>
    obtain ⟨_, _, heq, hline, -⟩ := hclose
    cases heq
    exact ⟨[], .nil (((reads_terminator hline).mono hn).seq_none_right hno), states_none rfl⟩
  | cons e es ih =>
    obtain ⟨xs, g⟩ := e
    have hentry := he _ List.mem_cons_self
    obtain ⟨ts, hrest, hts⟩ := ih fun e' he' => he e' (List.mem_cons_of_mem _ he')
    have hopens := opens_entries (fun e' he' => he e' (List.mem_cons_of_mem _ he')) hclose
    obtain ⟨i, is, hxs, hline, -⟩ := hentry.opens
    obtain ⟨ss, hread, hss⟩ := hentry.reads _ hopens
    dsimp only at hxs hread
    subst hxs
    have hstep := ((reads_terminator hline).mono hn).seq hread
    refine ⟨ss ++ ts, ?_, ?_⟩
    · rw [List.flatMap_cons, List.append_assoc]
      exact .cons (hstep.mono (m := n + 1 + es.length) (by omega)) hrest
    · simpa [Gist.all] using hss.append hts

/-- A first entry, and others on lines of their own. -/
theorem reads_entries (hfirst : Reads n mode entry items (some (ss, rest)))
    (hmany : ReadsMany n mode (.seq .terminator entry) rest (ts, close :: tail))
    (hclose : close.opensLine = true) (hn : 1 ≤ n) :
    Reads (n + 4) mode
      (all [entry, .many (.seq .terminator entry), Rule.maybe .terminator]) items
      (some (ss ++ ts, close.unlined :: tail)) := by
  have hlast : Reads 1 mode .terminator (close :: tail) (some ([], close.unlined :: tail)) :=
    reads_terminator hclose
  have hend := (hlast.maybe.mono (m := n + 1) (by omega)).seq
    (reads_done.mono (m := n + 1) (by omega))
  have hall := (hfirst.mono (m := n + 3) (by omega)).seq
    ((Reads.many hmany |>.mono (m := n + 2) (by omega)).seq hend)
  rw [List.append_nil, List.append_nil] at hall
  exact hall

/-- What is read between two marks. -/
theorem reads_between (mode : Mode) {o c : Mark} {first : Item} (ho : first.token.sort = .mark o)
    (hc : close.token.sort = .mark c) (h : Reads n ⟨true, true⟩ r items (some (ss, close :: tail)))
    (hs : States g ss) (hn : 1 ≤ n) :
    ∃ ts, Reads (n + 6) mode (.lines true (.literals true (all [mark o, Rule.maybe r, mark c])))
      (first :: items) (some (ts, tail)) ∧ States g ts := by
  have hopen : Reads (n + 3) ⟨true, true⟩ (mark o) (first :: items)
      (some ([.leaf .mark none first], items)) := (reads_token ho).mono (by omega)
  have hclose : Reads (n + 1) ⟨true, true⟩ (mark c) (close :: tail)
      (some ([.leaf .mark none close], tail)) := (reads_token hc).mono (by omega)
  have hall := hopen.seq ((h.maybe.mono (m := n + 2) (by omega)).seq
    (hclose.seq (reads_done.mono (m := n + 1) (by omega))))
  refine ⟨_, Reads.lines (Reads.literals hall), ?_⟩
  exact (hs.before (states_none rfl)).after (states_none rfl)

end Entries

/-! ## Declarations -/

/-- A declaration or a statement at the top of a file, with its terminator. -/
def declared : Rule :=
  .alt (.seq (.part .topDeclaration) .terminator) (.seq (.part .statement) .terminator)

/-- The items are read as one declaration, where the next line opens with the class. -/
def IsDeclaration (n : Nat) (next : Class) (xs : List Item) (g : Gist) : Prop :=
  ∀ rest, Opens (· = next) rest →
    ∃ ss, Reads n ⟨true, true⟩ declared (xs ++ rest) (some (ss, unlinedHead rest)) ∧ States g ss

theorem isDeclaration_of_leaves {n : Nat} {next : Class} {xs : List Item} {gs : List Outline}
    (hx : xs.map Item.outline = gs)
    (h : leaves n ⟨true, true⟩ declared (gs ++ [(next, true)]) gs.length true = true) :
    IsDeclaration n next xs .none := by
  rintro rest ⟨i, is, rfl, hline, hnext⟩
  have houtline : (xs ++ [i]).map Item.outline = gs ++ [(next, true)] := by
    rw [List.map_append, hx, List.map_singleton, Item.outline, hline, hnext]
  have hlength : xs.length = gs.length := by rw [← hx, List.length_map]
  obtain ⟨ss, hread, hss⟩ := reads_of_leaves (houtline ▸ h) is
  refine ⟨ss, ?_, hss⟩
  simpa [← hlength, unlinedHead] using hread

theorem IsDeclaration.mono {n m : Nat} {next : Class} {xs : List Item} {g : Gist}
    (h : IsDeclaration n next xs g) (hm : n ≤ m) : IsDeclaration m next xs g := by
  intro rest hrest
  obtain ⟨ss, hread, hss⟩ := h rest hrest
  exact ⟨ss, hread.mono hm, hss⟩

/-- A declaration at the top, with the line end behind it. -/
theorem isDeclaration_of_part {n : Nat} {next : Class} {xs : List Item} {g : Gist}
    (h : ∀ rest, Opens (· = next) rest →
      ∃ ss, Reads n ⟨true, true⟩ (.part .topDeclaration) (xs ++ rest) (some (ss, rest)) ∧
        States g ss) (hn : 1 ≤ n) : IsDeclaration (n + 2) next xs g := by
  intro rest hrest
  obtain ⟨ss, hread, hss⟩ := h rest hrest
  obtain ⟨i, is, rfl, hline, -⟩ := hrest
  have hall := (hread.seq ((reads_terminator hline).mono hn)).alt_left
    (s := .seq (.part .statement) .terminator)
  rw [List.append_nil] at hall
  exact ⟨ss, hall, hss⟩

/-! ## Files -/

section Files

variable {n : Nat} {xs rest : List Item} {g : Gist} {word name : Item}

/-- Declarations one after the other, up to the end of the file. -/
inductive AreDeclarations (n : Nat) : List Item → Gist → Prop
  | last {i : Item} (hi : i.token.sort = .ending) : AreDeclarations n [i] .none
  | cons {next : Class} {xs rest : List Item} {g h : Gist} (ho : Opens (fun _ => True) xs)
    (hx : IsDeclaration n next (unlinedHead xs) g) (hr : Opens (· = next) rest)
    (hrest : AreDeclarations n rest h) : AreDeclarations n (xs ++ rest) (.all [g, h])

/-- Nothing can be read of the end of a file. -/
theorem refuses_ending : (refuses 100 ⟨true, true⟩ declared [(.ending, false)] &&
    refuses 100 ⟨true, true⟩ (.part .topDeclaration) [(.ending, false)]) = true := by
  decide

theorem reads_ending {i : Item} (h : i.token.sort = .ending) {r : Rule}
    (hr : refuses 100 ⟨true, true⟩ r [(.ending, false)] = true) (hn : 100 ≤ n) :
    Reads n ⟨true, true⟩ r [i.unlined] none := by
  have houtline : [i.unlined].map Item.outline = [(.ending, false)] := by
    simp [Item.outline, Item.unlined, h]
  exact (reads_of_refuses (houtline ▸ hr) []).mono hn

theorem readsMany_declarations (h : AreDeclarations n xs g) (hn : 100 ≤ n) :
    ∃ ss last, last.token.sort = .ending ∧ last.opensLine = false ∧
      ReadsMany (n + xs.length) ⟨true, true⟩ declared (unlinedHead xs) (ss, [last]) ∧
      States g ss := by
  have hending := refuses_ending
  rw [Bool.and_eq_true] at hending
  induction h with
  | @last i hi =>
    have hmany := ReadsMany.nil (reads_ending hi hending.1 hn)
    exact ⟨[], i.unlined, hi, rfl, hmany.mono (Nat.le_add_right _ _), states_none rfl⟩
  | @cons next xs rest g h ho hx hr hrest ih =>
    obtain ⟨ts, last, hlast, hline, hmany, hts⟩ := ih
    obtain ⟨ss, hread, hss⟩ := hx rest hr
    refine ⟨ss ++ ts, last, hlast, hline, ?_, hss.append hts⟩
    rw [unlinedHead_append ho]
    have hpos : 0 < xs.length := by
      obtain ⟨i, is, rfl, -⟩ := ho
      exact Nat.zero_lt_succ _
    exact (ReadsMany.cons (hread.mono (Nat.le_add_right n _)) hmany).mono
      (by rw [List.length_append]; omega)

theorem reads_word {avoided : List Keyword} {kind : Kind} {mode : Mode} {i : Item}
    (h : canName avoided i.token.sort = true) (items : List Item) :
    Reads 1 mode (.word avoided kind) (i :: items) (some ([.leaf kind none i], items)) :=
  reads_succ fun _ _ => by simp [Rule.read, readItem, h]

theorem reads_packageClause {mode : Mode} (hword : word.token.sort = .keyword .packageWord)
    (hname : canName [] name.token.sort = true) (rest : List Item) :
    Reads 6 mode (.part .topDeclaration) (word :: name :: rest)
      (some ([packageShape word name], rest)) := by
  have hclause : Reads 2 mode (.seq (.keyword .packageWord) (anyWord .packageIdentifier))
      (word :: name :: rest) (some ([.leaf .mark none word] ++ [.leaf _ none name], rest)) :=
    (reads_token hword).seq (reads_word hname rest)
  exact (hclause.node .packageClause).alt_left.part.mono (by omega)

/-- A file that opens with a package clause is read whole if the rest of it is read as
declarations. -/
theorem parse_of_declarations {source : List Char}
    (hitems : items (tokens source) = word :: name :: rest)
    (hword : word.token.sort = .keyword .packageWord)
    (hname : canName [] name.token.sort = true) (ho : Opens (fun _ => True) rest)
    (h : AreDeclarations n rest g) (hn : 100 ≤ n) (hdepth : n ≤ 390 * (rest.length + 1)) :
    ∃ ss trailing, parse source = .ok (sourceTree (packageShape word name :: ss) trailing) ∧
      States g ss := by
  obtain ⟨ss, last, hlast, hline, hmany, hss⟩ := readsMany_declarations h hn
  obtain ⟨i, is, hrest, hopens, -⟩ := ho
  have hfirst : Reads 8 ⟨true, true⟩ declared (word :: name :: rest)
      (some ([packageShape word name], unlinedHead rest)) := by
    have hclause : Reads 6 ⟨true, true⟩ (.part .topDeclaration) (word :: name :: rest) _ :=
      reads_packageClause hword hname rest
    rw [hrest] at hclause ⊢
    have hall := (hclause.seq ((reads_terminator hopens).mono (by omega))).alt_left
      (s := .seq (.part .statement) .terminator)
    exact hall
  have hend : Reads 102 ⟨true, true⟩ (Rule.maybe (.part .topDeclaration)) [last]
      (some ([], [last])) := by
    have hunlined : last = last.unlined := by rw [Item.unlined, ← hline]
    have hending := refuses_ending
    rw [Bool.and_eq_true] at hending
    rw [hunlined]
    exact (reads_ending hlast hending.2 (Nat.le_refl 100)).alt_right
      (reads_done.mono (by omega)) |>.mono (by omega)
  have hdeclared := Reads.many (ReadsMany.cons (hfirst.mono (by omega)) hmany)
  have hsource := hdeclared.seq (hend.mono (by omega))
  have hread : sourceRule.read grammar (depthBound (word :: name :: rest)) ⟨true, true⟩
      (word :: name :: rest) = some (packageShape word name :: ss, [last]) := by
    have hbound := hsource (depthBound (word :: name :: rest))
      (by unfold depthBound; simp only [List.length_cons]; omega)
    rw [List.append_nil] at hbound
    exact hbound
  refine ⟨ss, last.comments, ?_, hss⟩
  unfold parse readSource
  rw [hitems, hread]
  dsimp only
  rw [if_pos hlast]

end Files

end Graft.Go
