-- Reading by the front of the items alone. A reading that never looks behind
-- the items at hand comes to the same whatever stands behind them, however
-- much deeper the rules may go, and whatever the texts of the items are. So
-- what is known of an outline of the items is known of all sources with this
-- outline.
import Graft.Go.Grammar

namespace Graft.Go

/-! ## What is known of a reading -/

/-- A reading by the items at hand; none if it looks behind them. -/
def glimpseItem (reads : List Item → Reading) : List Item → Option Reading
  | [] => none
  | i :: items => some (reads (i :: items))

def glimpseMany (step : List Item → Option Reading) :
    Nat → List Item → Option (List Shape × List Item)
  | 0, _ => none
  | n + 1, items =>
    match step items with
    | none => none
    | some none => some ([], items)
    | some (some (ss, rest)) => (glimpseMany step n rest).map fun r => (ss ++ r.1, r.2)

def glimpseOn (step : List Item → Option Reading) :
    Nat → List Shape → List Item → Option (List Shape × List Item)
  | 0, _, _ => none
  | n + 1, left, items =>
    match step items with
    | none => none
    | some (some ([s], rest)) => glimpseOn step n [s.takeLeft left] rest
    | some _ => some (left, items)

/-- Reads nothing, unless a line ends here and lines matter. -/
def readHere (mode : Mode) : List Item → Reading
  | [] => some ([], [])
  | i :: items => if mode.lines && i.opensLine then none else some ([], i :: items)

/-- What is known of following a rule from the items at hand. Nothing is known where the
rule looks behind them or goes deeper than the first argument. -/
def Rule.glimpse (grammar : Part → Rule) : Nat → Mode → Rule → List Item → Option Reading
  | 0, _, _, _ => none
  | fuel + 1, mode, rule, items =>
    match rule with
    | .done => some (some ([], items))
    | .never => some none
    | .token sort kind => glimpseItem (readItem (· == sort) kind) items
    | .word avoided kind => glimpseItem (readItem (canName avoided) kind) items
    | .terminator => glimpseItem readTerminator items
    | .here => glimpseItem (readHere mode) items
    | .openLiterals => some (if mode.literals then some ([], items) else none)
    | .absent r =>
      match r.glimpse grammar fuel mode items with
      | none => none
      | some (some _) => some none
      | some none => some (some ([], items))
    | .seq r s =>
      match r.glimpse grammar fuel mode items with
      | none => none
      | some none => some none
      | some (some (ss, rest)) =>
        match s.glimpse grammar fuel mode rest with
        | none => none
        | some none => some none
        | some (some (ts, rest')) => some (some (ss ++ ts, rest'))
    | .alt r s =>
      match r.glimpse grammar fuel mode items with
      | none => none
      | some (some found) => some (some found)
      | some none => s.glimpse grammar fuel mode items
    | .many r => (glimpseMany (r.glimpse grammar fuel mode) fuel items).map some
    | .node kind r =>
      match r.glimpse grammar fuel mode items with
      | none => none
      | some found => some (found.map fun f => ([.node kind none f.1], f.2))
    | .role ro r =>
      match r.glimpse grammar fuel mode items with
      | none => none
      | some found => some (found.map fun f => (f.1.map (Shape.withRole ro), f.2))
    | .chain first more =>
      match first.glimpse grammar fuel mode items with
      | none => none
      | some none => some none
      | some (some (left, rest)) =>
        (glimpseOn (more.glimpse grammar fuel mode) fuel left rest).map some
    | .once alone first more =>
      match first.glimpse grammar fuel mode items with
      | none => none
      | some none => some none
      | some (some (left, rest)) =>
        match more.glimpse grammar fuel mode rest with
        | none => none
        | some (some ([s], rest')) => some (some ([s.takeLeft left], rest'))
        | some _ => some (some (Shape.standAlone alone left, rest))
    | .lines matter r => r.glimpse grammar fuel { mode with lines := matter } items
    | .literals open? r => r.glimpse grammar fuel { mode with literals := open? } items
    | .part p => (grammar p).glimpse grammar fuel mode items

attribute [local simp] Rule.glimpse Rule.read readMany

/-! ## Outlines -/

/-- The items are exchanged for others that the grammar cannot tell from them. -/
structure Fills (f : Item → Item) : Prop where
  sort : ∀ i, (f i).token.sort = i.token.sort
  opensLine : ∀ i, (f i).opensLine = i.opensLine
  unlined : ∀ i, f { i with opensLine := false } = { f i with opensLine := false }

namespace Shape

mutual
/-- The shape over other items. -/
def map (f : Item → Item) : Shape → Shape
  | leaf k r i => leaf k r (f i)
  | node k r ss => node k r (mapAll f ss)

def mapAll (f : Item → Item) : List Shape → List Shape
  | [] => []
  | s :: ss => map f s :: mapAll f ss
end

variable (f : Item → Item)

theorem mapAll_eq (ss : List Shape) : mapAll f ss = ss.map (map f) := by
  induction ss with
  | nil => rfl
  | cons s ss ih => rw [mapAll, ih, List.map_cons]

theorem map_withRole (ro : Role) (s : Shape) : (s.withRole ro).map f = (s.map f).withRole ro := by
  cases s <;> rfl

theorem map_takeLeft (left : List Shape) (s : Shape) :
    (s.takeLeft left).map f = (s.map f).takeLeft (left.map (map f)) := by
  cases s with
  | leaf k r i => rfl
  | node k r ss =>
    simp only [map, takeLeft, mapAll_eq]
    cases leftRole k with
    | none => simp [map, mapAll_eq]
    | some ro => simp [map, mapAll_eq, map_withRole, Function.comp_def]

theorem map_standAlone (alone : Option Kind) (left : List Shape) :
    (standAlone alone left).map (map f) = standAlone alone (left.map (map f)) := by
  cases alone with
  | none => rfl
  | some k => simp [standAlone, map, mapAll_eq]

end Shape

/-- What was read of the outline, over other items and before those that follow. -/
def carried (f : Item → Item) (tail : List Item) (r : List Shape × List Item) :
    List Shape × List Item := (r.1.map (Shape.map f), r.2.map f ++ tail)

section Carried

variable {f : Item → Item} (hf : Fills f) {tail : List Item}

/-- What is known of a step, over other items and before those that follow. -/
def Known (f : Item → Item) (tail : List Item) (sees : List Item → Option Reading)
    (reads : List Item → Reading) : Prop :=
  ∀ items out, sees items = some out → reads (items.map f ++ tail) = out.map (carried f tail)

variable {sees : List Item → Option Reading} {reads : List Item → Reading}

include hf in
theorem known_readItem (p : Class → Bool) (kind : Kind) :
    Known f tail (glimpseItem (readItem p kind)) (readItem p kind) := by
  intro items out h
  cases items with
  | nil => cases h
  | cons i items =>
    cases h
    simp only [List.map_cons, List.cons_append, readItem, hf.sort]
    split <;> rfl

include hf in
theorem known_readTerminator : Known f tail (glimpseItem readTerminator) readTerminator := by
  intro items out h
  cases items with
  | nil => cases h
  | cons i items =>
    cases h
    simp only [List.map_cons, List.cons_append, readTerminator, hf.sort, hf.opensLine]
    split
    · simp [carried, hf.unlined]
    · split <;> rfl

include hf in
theorem known_readHere (mode : Mode) :
    Known f tail (glimpseItem (readHere mode)) (readHere mode) := by
  intro items out h
  cases items with
  | nil => cases h
  | cons i items =>
    cases h
    simp only [List.map_cons, List.cons_append, readHere, hf.opensLine]
    split <;> rfl

theorem readMany_of_glimpse (h : Known f tail sees reads) {n m : Nat} (hm : n ≤ m)
    {items : List Item} {r : List Shape × List Item} (hr : glimpseMany sees n items = some r) :
    readMany reads m (items.map f ++ tail) = carried f tail r := by
  induction n generalizing m items r with
  | zero => cases hr
  | succ n ih =>
    obtain ⟨m, rfl⟩ := Nat.exists_eq_add_of_le' hm
    rw [← Nat.add_assoc]
    unfold glimpseMany at hr
    unfold readMany
    cases hs : sees items with
    | none =>
      rw [hs] at hr
      cases hr
    | some out =>
      rw [h items out hs]
      rw [hs] at hr
      cases out with
      | none =>
        cases hr
        rfl
      | some found =>
        obtain ⟨ss, rest⟩ := found
        dsimp only at hr
        obtain ⟨r', hr', rfl⟩ := Option.map_eq_some_iff.mp hr
        have hrest := ih (Nat.le_add_left n m) hr'
        simp only [Option.map_some, carried] at hrest ⊢
        rw [hrest, List.map_append]

theorem readOn_of_glimpse (h : Known f tail sees reads) {n m : Nat} (hm : n ≤ m)
    {left : List Shape} {items : List Item} {r : List Shape × List Item}
    (hr : glimpseOn sees n left items = some r) :
    readOn reads m (left.map (Shape.map f)) (items.map f ++ tail) = carried f tail r := by
  induction n generalizing m left items r with
  | zero => cases hr
  | succ n ih =>
    obtain ⟨m, rfl⟩ := Nat.exists_eq_add_of_le' hm
    rw [← Nat.add_assoc]
    unfold glimpseOn at hr
    unfold readOn
    cases hs : sees items with
    | none =>
      rw [hs] at hr
      cases hr
    | some out =>
      rw [h items out hs]
      rw [hs] at hr
      match out with
      | none =>
        cases hr
        rfl
      | some ([], rest) =>
        cases hr
        rfl
      | some ([s], rest) =>
        have hrest := ih (Nat.le_add_left n m) hr
        simp only [Option.map_some, carried, List.map_cons, List.map_nil, Shape.map_takeLeft]
          at hrest ⊢
        exact hrest
      | some (s :: t :: ss, rest) =>
        cases hr
        rfl

namespace Rule

variable {grammar : Part → Rule} {fuel fuel' : Nat} {mode : Mode}

/-- What is known of the rule by a depth, over other items and before those that follow. -/
def IsKnown (grammar : Part → Rule) (f : Item → Item) (tail : List Item) (fuel fuel' : Nat)
    (mode : Mode) (r : Rule) : Prop :=
  Known f tail (r.glimpse grammar fuel mode) (r.read grammar fuel' mode)

variable {r s : Rule}

theorem IsKnown.absent (hr : IsKnown grammar f tail fuel fuel' mode r) :
    IsKnown grammar f tail (fuel + 1) (fuel' + 1) mode (.absent r) := by
  intro items out hs
  simp only [glimpse, read] at hs ⊢
  split at hs <;> cases hs
  · rename_i found hfound
    rw [hr items _ hfound]
    rfl
  · rename_i hnone
    rw [hr items _ hnone]
    rfl

theorem IsKnown.seq (hr : IsKnown grammar f tail fuel fuel' mode r)
    (hs : IsKnown grammar f tail fuel fuel' mode s) :
    IsKnown grammar f tail (fuel + 1) (fuel' + 1) mode (.seq r s) := by
  intro items out hout
  simp only [glimpse, read] at hout ⊢
  split at hout
  · cases hout
  · rename_i hnone
    cases hout
    rw [hr items _ hnone]
    rfl
  · rename_i ss rest hfound
    rw [hr items _ hfound]
    dsimp only [Option.map_some, carried]
    split at hout <;> cases hout
    · rename_i hnone
      rw [hs rest _ hnone]
      rfl
    · rename_i ts last hlast
      rw [hs rest _ hlast]
      simp [carried]

theorem IsKnown.alt (hr : IsKnown grammar f tail fuel fuel' mode r)
    (hs : IsKnown grammar f tail fuel fuel' mode s) :
    IsKnown grammar f tail (fuel + 1) (fuel' + 1) mode (.alt r s) := by
  intro items out hout
  simp only [glimpse, read] at hout ⊢
  split at hout
  · cases hout
  · rename_i found hfound
    cases hout
    rw [hr items _ hfound]
    rfl
  · rename_i hnone
    rw [hr items _ hnone]
    exact hs items out hout

theorem IsKnown.many (hr : IsKnown grammar f tail fuel fuel' mode r) (h : fuel ≤ fuel') :
    IsKnown grammar f tail (fuel + 1) (fuel' + 1) mode (.many r) := by
  intro items out hout
  obtain ⟨found, hfound, rfl⟩ := Option.map_eq_some_iff.mp hout
  exact congrArg some (readMany_of_glimpse hr h hfound)

theorem IsKnown.node (hr : IsKnown grammar f tail fuel fuel' mode r) (kind : Kind) :
    IsKnown grammar f tail (fuel + 1) (fuel' + 1) mode (.node kind r) := by
  intro items out hout
  simp only [glimpse, read] at hout ⊢
  split at hout <;> cases hout
  rename_i found hfound
  rw [hr items _ hfound]
  cases found <;> simp [carried, Shape.map, Shape.mapAll_eq]

theorem IsKnown.role (hr : IsKnown grammar f tail fuel fuel' mode r) (ro : Role) :
    IsKnown grammar f tail (fuel + 1) (fuel' + 1) mode (.role ro r) := by
  intro items out hout
  simp only [glimpse, read] at hout ⊢
  split at hout <;> cases hout
  rename_i found hfound
  rw [hr items _ hfound]
  cases found <;> simp [carried, Shape.map_withRole]

theorem IsKnown.chain (hr : IsKnown grammar f tail fuel fuel' mode r)
    (hs : IsKnown grammar f tail fuel fuel' mode s) (h : fuel ≤ fuel') :
    IsKnown grammar f tail (fuel + 1) (fuel' + 1) mode (.chain r s) := by
  intro items out hout
  simp only [glimpse, read] at hout ⊢
  split at hout
  · cases hout
  · rename_i hnone
    cases hout
    rw [hr items _ hnone]
    rfl
  · rename_i left rest hfound
    rw [hr items _ hfound]
    obtain ⟨more, hmore, rfl⟩ := Option.map_eq_some_iff.mp hout
    exact congrArg some (readOn_of_glimpse hs h hmore)

/-- The second rule goes on from the first just where it makes a single shape. -/
theorem IsKnown.once (hr : IsKnown grammar f tail fuel fuel' mode r)
    (hs : IsKnown grammar f tail fuel fuel' mode s) (alone : Option Kind) :
    IsKnown grammar f tail (fuel + 1) (fuel' + 1) mode (.once alone r s) := by
  intro items out hout
  simp only [glimpse, read] at hout ⊢
  split at hout
  · cases hout
  · rename_i hnone
    cases hout
    rw [hr items _ hnone]
    rfl
  · rename_i left rest hfound
    rw [hr items _ hfound]
    dsimp only [Option.map_some, carried]
    cases hmore : s.glimpse grammar fuel mode rest with
    | none =>
      rw [hmore] at hout
      cases hout
    | some more =>
      rw [hs rest _ hmore]
      rw [hmore] at hout
      match more with
      | some ([next], last) =>
        cases hout
        simp [carried, Shape.map_takeLeft]
      | none | some ([], last) | some (_ :: _ :: _, last) =>
        cases hout
        simp [carried, Shape.map_standAlone]

include hf in
/-- What is known of a rule from an outline holds for all items with the outline, before any
others, and for every greater bound on the depth. -/
theorem read_of_glimpse (grammar : Part → Rule) {fuel fuel' : Nat} (h : fuel ≤ fuel')
    (mode : Mode) (r : Rule) :
    Known f tail (r.glimpse grammar fuel mode) (r.read grammar fuel' mode) := by
  induction fuel generalizing fuel' mode r with
  | zero => intro items out hs; cases hs
  | succ fuel ih =>
    obtain ⟨deeper, rfl⟩ := Nat.exists_eq_add_of_le' h
    rw [← Nat.add_assoc]
    have hle : fuel ≤ deeper + fuel := Nat.le_add_left fuel deeper
    have ih : ∀ mode r, IsKnown grammar f tail fuel (deeper + fuel) mode r :=
      fun mode r => ih hle mode r
    cases r with
    | done =>
      rintro items _ ⟨⟩
      rfl
    | never =>
      rintro items _ ⟨⟩
      rfl
    | token sort kind => exact known_readItem hf _ _
    | word avoided kind => exact known_readItem hf _ _
    | terminator => exact known_readTerminator hf
    | here =>
      intro items out hs
      cases items with
      | nil => cases hs
      | cons i items => exact known_readHere hf mode (i :: items) out hs
    | openLiterals =>
      rintro items _ ⟨⟩
      simp only [read]
      split <;> rfl
    | absent r => exact (ih mode r).absent
    | seq r s => exact (ih mode r).seq (ih mode s)
    | alt r s => exact (ih mode r).alt (ih mode s)
    | many r => exact (ih mode r).many hle
    | node kind r => exact (ih mode r).node kind
    | role ro r => exact (ih mode r).role ro
    | chain first more => exact (ih mode first).chain (ih mode more) hle
    | once alone first more => exact (ih mode first).once (ih mode more) alone
    | lines matter r => exact ih { mode with lines := matter } r
    | literals opens r => exact ih { mode with literals := opens } r
    | part p => exact ih mode (grammar p)

end Rule

end Carried

/-! ## Outlines of items -/

/-- All that the grammar sees of an item: its class, and whether a line ended before it. -/
abbrev Outline := Class × Bool

def Item.outline (i : Item) : Outline := (i.token.sort, i.opensLine)

/-- The item behind a terminator that was a line end. -/
def Item.unlined (i : Item) : Item := { i with opensLine := false }

/-- Items with an outline; the row of each one is its number. -/
def numbered (gs : List Outline) : List Item :=
  gs.zipIdx.map fun g => ⟨⟨g.1.1, [], [], g.2, 0⟩, [], g.1.2⟩

/-- The item whose number is the row. -/
def fillFrom (xs : List Item) (i : Item) : Item :=
  match xs[i.token.row]? with
  | some x => if x.token.sort = i.token.sort then { x with opensLine := i.opensLine } else i
  | none => i

theorem fillFrom_cases (xs : List Item) (i : Item) :
    ∃ x : Item, x.token.sort = i.token.sort ∧
      ∀ b, fillFrom xs { i with opensLine := b } = { x with opensLine := b } := by
  unfold fillFrom
  dsimp only
  cases xs[i.token.row]? with
  | none => exact ⟨i, rfl, fun _ => rfl⟩
  | some x =>
    dsimp only
    by_cases h : x.token.sort = i.token.sort
    · exact ⟨x, h, fun _ => by rw [if_pos h]⟩
    · exact ⟨i, rfl, fun _ => by rw [if_neg h]⟩

theorem fills_fillFrom (xs : List Item) : Fills (fillFrom xs) := by
  refine ⟨fun i => ?_, fun i => ?_, fun i => ?_⟩ <;> obtain ⟨x, hx, h⟩ := fillFrom_cases xs i
  · exact (congrArg (fun y : Item => y.token.sort) (h i.opensLine)).trans hx
  · have hline := congrArg Item.opensLine (h i.opensLine)
    exact hline
  · rw [h false, show fillFrom xs i = _ from h i.opensLine]

theorem fillFrom_number {xs : List Item} {k : Nat} {x : Item} (h : xs[k]? = some x) (b : Bool) :
    fillFrom xs ⟨⟨x.token.sort, [], [], k, 0⟩, [], b⟩ = { x with opensLine := b } := by
  simp [fillFrom, h]

/-- All items with an outline come from the numbered ones. -/
theorem map_fillFrom_numbered (xs : List Item) :
    (numbered (xs.map Item.outline)).map (fillFrom xs) = xs := by
  refine List.ext_getElem? fun k => ?_
  simp only [numbered, List.map_map, List.getElem?_map, List.getElem?_zipIdx, Option.map_map]
  cases hk : xs[k]? with
  | none => rfl
  | some x =>
    simp only [Option.map_some, Function.comp_apply, Item.outline, Nat.zero_add, Option.some.injEq]
    exact fillFrom_number hk x.opensLine

/-! ## Reading step by step -/

/-- The rule comes to this whenever the bound on its depth is at least `n`. -/
def Reads (n : Nat) (mode : Mode) (r : Rule) (items : List Item) (out : Reading) : Prop :=
  ∀ fuel, n ≤ fuel → r.read grammar fuel mode items = out

/-- The rule can be read so many times, and no more, whenever the bounds are at least `n`. -/
def ReadsMany (n : Nat) (mode : Mode) (r : Rule) (items : List Item)
    (out : List Shape × List Item) : Prop :=
  ∀ fuel count, n ≤ fuel → n ≤ count → readMany (r.read grammar fuel mode) count items = out

section Reads


variable {n m : Nat} {mode : Mode} {r s : Rule} {items rest rest' : List Item}
  {ss ts : List Shape} {out : Reading}

theorem Reads.mono (h : Reads n mode r items out) (hm : n ≤ m) : Reads m mode r items out :=
  fun fuel hf => h fuel (Nat.le_trans hm hf)

theorem ReadsMany.mono {out : List Shape × List Item} (h : ReadsMany n mode r items out)
    (hm : n ≤ m) : ReadsMany m mode r items out :=
  fun fuel count hf hc => h fuel count (Nat.le_trans hm hf) (Nat.le_trans hm hc)

/-- What a glimpse of the outline shows. -/
theorem Reads.of_glimpse {xs : List Item} {gs : List Outline} {out : Reading}
    (hx : xs.map Item.outline = gs) (h : r.glimpse grammar n mode (numbered gs) = some out)
    (tail : List Item) :
    Reads n mode r (xs ++ tail) (out.map (carried (fillFrom xs) tail)) := by
  intro fuel hf
  have hread : r.read grammar fuel mode ((numbered gs).map (fillFrom xs) ++ tail) = _ :=
    Rule.read_of_glimpse (fills_fillFrom xs) grammar hf mode r _ _ h
  rwa [← hx, map_fillFrom_numbered] at hread

theorem reads_succ (h : ∀ fuel, n ≤ fuel → r.read grammar (fuel + 1) mode items = out) :
    Reads (n + 1) mode r items out := by
  intro fuel hf
  obtain ⟨fuel, rfl⟩ := Nat.exists_eq_add_of_le' (Nat.one_le_of_lt hf)
  exact h fuel (by omega)

theorem reads_done : Reads 1 mode .done items (some ([], items)) := reads_succ fun _ _ => rfl

theorem Reads.seq (hr : Reads n mode r items (some (ss, rest)))
    (hs : Reads n mode s rest (some (ts, rest'))) :
    Reads (n + 1) mode (.seq r s) items (some (ss ++ ts, rest')) :=
  reads_succ fun fuel hf => by simp [hr fuel hf, hs fuel hf]

theorem Reads.alt_left {found : List Shape × List Item} (hr : Reads n mode r items (some found)) :
    Reads (n + 1) mode (.alt r s) items (some found) :=
  reads_succ fun fuel hf => by simp [hr fuel hf]

theorem Reads.alt_right (hr : Reads n mode r items none) (hs : Reads n mode s items out) :
    Reads (n + 1) mode (.alt r s) items out :=
  reads_succ fun fuel hf => by simp [hr fuel hf, hs fuel hf]

theorem Reads.node (hr : Reads n mode r items (some (ss, rest))) (kind : Kind) :
    Reads (n + 1) mode (.node kind r) items (some ([.node kind none ss], rest)) :=
  reads_succ fun fuel hf => by simp [hr fuel hf]

theorem Reads.role (hr : Reads n mode r items (some (ss, rest))) (ro : Role) :
    Reads (n + 1) mode (.role ro r) items (some (ss.map (Shape.withRole ro), rest)) :=
  reads_succ fun fuel hf => by simp [hr fuel hf]

theorem Reads.part {p : Part} (hr : Reads n mode (grammar p) items out) :
    Reads (n + 1) mode (.part p) items out := reads_succ hr

theorem Reads.lines {matter : Bool} (hr : Reads n { mode with lines := matter } r items out) :
    Reads (n + 1) mode (.lines matter r) items out := reads_succ hr

theorem Reads.literals {opens : Bool} (hr : Reads n { mode with literals := opens } r items out) :
    Reads (n + 1) mode (.literals opens r) items out := reads_succ hr

theorem Reads.many {found : List Shape × List Item} (hr : ReadsMany n mode r items found) :
    Reads (n + 1) mode (.many r) items (some found) :=
  reads_succ fun fuel hf => congrArg some (hr fuel fuel hf hf)

theorem ReadsMany.nil (hr : Reads n mode r items none) : ReadsMany n mode r items ([], items) := by
  intro fuel count hf _
  cases count with
  | zero => rfl
  | succ count => simp [hr fuel hf]

theorem ReadsMany.cons (hr : Reads n mode r items (some (ss, rest)))
    (hm : ReadsMany n mode r rest (ts, rest')) :
    ReadsMany (n + 1) mode r items (ss ++ ts, rest') := by
  intro fuel count hf hc
  obtain ⟨count, rfl⟩ := Nat.exists_eq_add_of_le' (Nat.one_le_of_lt hc)
  rw [readMany, hr fuel (by omega)]
  simp only [hm fuel count (by omega) (by omega)]

theorem reads_token {p : Class} {kind : Kind} {i : Item} (h : i.token.sort = p) :
    Reads 1 mode (.token p kind) (i :: items) (some ([.leaf kind none i], items)) :=
  reads_succ fun _ _ => by simp [readItem, h]

theorem reads_terminator {i : Item} (h : i.opensLine = true) :
    Reads 1 mode .terminator (i :: items) (some ([], i.unlined :: items)) :=
  reads_succ fun _ _ => by simp [readTerminator, h, Item.unlined]

end Reads

end Graft.Go
