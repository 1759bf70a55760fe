-- Reading a template band by band. A text is kept as it is where it stands
-- between holes or ends its line, and behind a statement nothing but the line
-- end is dropped. So what the reader takes of a template of bands is what it
-- takes of each band in turn.
import Graft.Proofs.TemplateBands

namespace Graft.Stub.Template

/-! ## White space around tags -/

/-- The settings under which statements leave nothing of their lines. -/
structure Settings.IsNeat (s : Settings) : Prop where
  trims : s.trimBlocks = true
  strips : s.lstripBlocks = true
  keeps : s.keepTrailingNewline = true

/-- There is no tag, or it is a hole without signs. -/
def IsHole (last : Option Tag) : Prop := ∀ t ∈ last, t.mark = .hole ∧ t.behind = .plain

/-- The text stands in front of a line, behind a tag or at the start. -/
def EndsLine (last : Option Tag) (cs : List Char) : Prop :=
  IsHole last ∧ (cs = [] ∨ cs.getLast? = some '\n')

section WhiteSpace

variable {s : Settings} {last : Option Tag} {t : Tag} {cs : List Char} {k : List Chunk}

theorem isHole_none : IsHole none := fun _ ht => nomatch ht

theorem isHole_some (line : Nat) (w : Word) : IsHole (some (plainTag .hole line [w])) := by
  rintro t ⟨⟩
  exact ⟨rfl, rfl⟩

theorem isHoleAhead (line : Nat) (w : Word) :
    ∀ t ∈ some (plainTag .hole line [w]), t.mark = .hole ∧ t.before = .plain := by
  rintro t ⟨⟩
  exact ⟨rfl, rfl⟩

theorem dropLineEnd_nil : dropLineEnd [] = [] := rfl

theorem dropIndent_nil (fresh : Bool) : dropIndent fresh [] = [] := by
  cases fresh <;> rfl

theorem between_nil (s : Settings) (last next : Option Tag) : s.between last next [] = [] := by
  have hbehind : ∀ t, s.behind t [] = [] := fun t => by
    unfold Settings.behind
    split <;> simp [dropLineEnd_nil]
  have hbefore : ∀ fresh t, s.before fresh t [] = [] := fun fresh t => by
    unfold Settings.before
    split <;> simp [dropIndent_nil, dropEnd]
  unfold Settings.between
  cases last <;> cases next <;> simp [hbehind, hbefore]

theorem behind_of_isHole (h : IsHole (some t)) : s.behind t cs = cs := by
  obtain ⟨hmark, hplain⟩ := h t rfl
  simp [Settings.behind, hplain, hmark]

/-- Nothing is dropped of a text behind a hole, in front of another one or at the end. -/
theorem between_of_isHole {next : Option Tag} (h : IsHole last)
    (hnext : ∀ t ∈ next, t.mark = .hole ∧ t.before = .plain) : s.between last next cs = cs := by
  have hkept : last.elim cs (fun t => s.behind t cs) = cs := by
    cases last with
    | none => rfl
    | some t => exact behind_of_isHole h
  unfold Settings.between
  rw [hkept]
  cases next with
  | none => rfl
  | some t =>
    obtain ⟨hmark, hplain⟩ := hnext t rfl
    simp [Settings.before, hplain, hmark]

theorem dropIndent_of_getLast? (fresh : Bool) (h : cs.getLast? = some '\n') :
    dropIndent fresh cs = cs := by
  have hkept : dropEnd (fun c => Text.isBlank c && !isLineEnd c) cs = cs := by
    obtain ⟨ds, rfl⟩ := List.getLast?_eq_some_iff.mp h
    simp [dropEnd, isLineEnd]
  unfold dropIndent
  rw [hkept]
  dsimp only
  rw [h]
  rfl

/-- Nothing is dropped of whole lines in front of a statement. -/
theorem between_of_endsLine (h : EndsLine last cs) (ht : t.before = .plain) :
    s.between last (some t) cs = cs := by
  obtain ⟨hlast, rfl | hends⟩ := h
  · exact between_nil s last (some t)
  · have hkept : last.elim cs (fun t => s.behind t cs) = cs := by
      cases last with
      | none => rfl
      | some t => exact behind_of_isHole hlast
    unfold Settings.between
    simp [hkept, Settings.before, ht, dropIndent_of_getLast? _ hends]

/-- Of what follows a statement, the line end is dropped. -/
theorem between_lineEnd (hs : s.trimBlocks = true) (ht : t.mark = .statement)
    (hplain : t.behind = .plain) (next : Option Tag) :
    s.between (some t) next ('\n' :: cs) = s.between none next cs := by
  have hbehind : s.behind t ('\n' :: cs) = cs := by
    simp [Settings.behind, hplain, hs, ht, dropLineEnd]
  unfold Settings.between
  simp [hbehind, isLineEnd]

theorem trimmed_tag (s : Settings) (last : Option Tag) (cs : List Char) (t : Tag) (k : List Chunk) :
    s.trimmed last (withText cs (.tag t :: k)) =
      withText (s.between last (some t) cs) (.tag t :: s.trimmed (some t) k) := by
  unfold withText
  cases cs with
  | nil =>
    rw [between_nil]
    rfl
  | cons c cs => rfl

theorem trimmed_end (s : Settings) (last : Option Tag) (cs : List Char) :
    s.trimmed last (withText cs []) = withText (s.between last none cs) [] := by
  unfold withText
  cases cs with
  | nil =>
    rw [between_nil]
    rfl
  | cons c cs => rfl

/-- Behind the line end of a statement it is as at the start of a template. -/
theorem trimmed_lineEnd (hs : s.trimBlocks = true) (ht : t.mark = .statement)
    (hplain : t.behind = .plain) (k : List Chunk) :
    s.trimmed (some t) (withText ['\n'] k) = s.trimmed none k := by
  have hends : ∀ (next : Option Tag) (cs : List Char),
      s.between (some t) next ('\n' :: cs) = s.between none next cs :=
    fun next _ => between_lineEnd hs ht hplain next
  cases k with
  | nil => simp [withText, Settings.trimmed, hends, between_nil]
  | cons chunk k => cases chunk <;> simp [withText, Settings.trimmed, hends, between_nil]

end WhiteSpace

/-! ## What is taken of a band -/

def textNode (cs : List Char) : Node := .text (String.ofList cs)

def Bit.take? (stub : String) (line : Nat) (r : Reader) : Bit → Option Reader
  | .text cs => some (r.push (textNode cs))
  | .hole w => r.tag? stub (plainTag .hole line [w])

def statements? (stub : String) (line : Nat) (r : Reader) (ss : List (List Word)) : Option Reader :=
  ss.foldlM (fun r ws => r.tag? stub (plainTag .statement line ws)) r

def Band.take? (stub : String) (line : Nat) (r : Reader) : Band → Option Reader
  | .line bits => (bits.foldlM (Bit.take? stub line) r).map (Reader.push (textNode ['\n']))
  | .statements first more => statements? stub line r (first :: more)

/-- What is taken of bands the first of which stands on line `line`. -/
def takeFrom? (stub : String) : Nat → List Band → Reader → Option Reader
  | _, [], r => some r
  | line, band :: bands, r => (band.take? stub line r).bind (takeFrom? stub (line + 1) bands)

theorem takeFrom?_append (stub : String) (line : Nat) (as bs : List Band) (r : Reader) :
    takeFrom? stub line (as ++ bs) r =
      (takeFrom? stub line as r).bind (takeFrom? stub (line + as.length) bs) := by
  induction as generalizing line r with
  | nil => rfl
  | cons a as ih =>
    rw [List.cons_append, takeFrom?, takeFrom?, Option.bind_assoc, List.length_cons,
      Nat.add_comm as.length, ← Nat.add_assoc]
    exact Option.bind_congr fun r' _ => ih (line + 1) r'

section Reading

variable {s : Settings} {stub : String} {line : Nat} {last : Option Tag} {cs : List Char}
  {k : List Chunk} {r r' : Reader}

theorem joined_empty (ns : List Node) : joined (.text "") ns = ns := by
  unfold joined
  split <;> simp_all

theorem joined_append (a b : String) (ns : List Node) :
    joined (.text (a ++ b)) ns = joined (.text b) (joined (.text a) ns) := by
  by_cases hns : ∃ t ms, ns = .text t :: ms
  · obtain ⟨t, ms, rfl⟩ := hns
    simp [joined, String.append_assoc]
  · have hother : ∀ s, joined (.text s) ns = if s = "" then ns else .text s :: ns := fun s => by
      unfold joined
      split <;> simp_all
    rw [hother, hother a]
    by_cases ha : a = ""
    · rw [if_pos ha, ha, String.empty_append, hother]
    · rw [if_neg ha, if_neg (by simp [ha])]
      rfl

theorem push_nil (r : Reader) : r.push (textNode []) = r := by
  rw [Reader.push, textNode, String.ofList_nil, joined_empty]

theorem push_append (as bs : List Char) (r : Reader) :
    r.push (textNode (as ++ bs)) = (r.push (textNode as)).push (textNode bs) := by
  simp only [Reader.push, textNode, String.ofList_append, joined_append]

/-- A text in front of chunks is taken first. -/
theorem foldlM_withText (stub : String) (cs : List Char) (k : List Chunk) (r : Reader) :
    (withText cs k).foldlM (Reader.take stub) r =
      k.foldlM (Reader.take stub) (r.push (textNode cs)) := by
  have hother : (if cs.isEmpty then k else .text cs :: k).foldlM (Reader.take stub) r =
      k.foldlM (Reader.take stub) (r.push (textNode cs)) := by
    cases cs with
    | nil => rw [push_nil]; rfl
    | cons c cs => rfl
  unfold withText
  split
  · rename_i ds more
    rw [List.foldlM_cons, List.foldlM_cons]
    exact congrArg (more.foldlM (Reader.take stub)) (push_append cs ds r)
  · exact hother

theorem foldlM_tag {t : Tag} (h : r.tag? stub t = some r') (k : List Chunk) :
    (Chunk.tag t :: k).foldlM (Reader.take stub) r = k.foldlM (Reader.take stub) r' := by
  rw [List.foldlM_cons, Reader.take, h]
  rfl

/-- What is read of the chunks behind a text that waits for them is what is read of others, and the
reader has taken this much. -/
def ReadsOn (s : Settings) (stub : String) (r : Reader) (last : Option Tag) (cs : List Char)
    (k : List Chunk) (taken : Reader) (rest : List Chunk) : Prop :=
  ∃ r' last' cs', EndsLine last' cs' ∧ r'.push (textNode cs') = taken ∧
    (s.trimmed last (withText cs k)).foldlM (Reader.take stub) r =
      (s.trimmed last' (withText cs' rest)).foldlM (Reader.take stub) r'

/-- A line of texts and holes is read as it is. -/
theorem readsOn_line {bits : List Bit} (hlast : IsHole last)
    (h : bits.foldlM (Bit.take? stub line) (r.push (textNode cs)) = some r') :
    ReadsOn s stub r last cs (bits.foldr (fun b k => b.chunks line k) (withText ['\n'] k))
      (r'.push (textNode ['\n'])) k := by
  induction bits generalizing r last cs with
  | nil =>
    cases h
    refine ⟨r, last, cs ++ ['\n'], ⟨hlast, .inr (by simp)⟩, push_append cs _ r, ?_⟩
    rw [List.foldr_nil, withText_append]
  | cons b bits ih =>
    rw [List.foldlM_cons] at h
    rw [List.foldr_cons]
    cases b with
    | text ds =>
      rw [Bit.take?, ← push_append] at h
      rw [Bit.chunks, ReadsOn, ← withText_append]
      exact ih hlast h
    | hole w =>
      obtain ⟨r₁, htag, h⟩ := Option.bind_eq_some_iff.mp h
      rw [Bit.take?] at htag
      rw [← push_nil r₁] at h
      obtain ⟨r₂, last₂, cs₂, hends, htaken, hreads⟩ := ih (isHole_some line w) h
      refine ⟨r₂, last₂, cs₂, hends, htaken, ?_⟩
      rw [← hreads, Bit.chunks, trimmed_tag, between_of_isHole hlast (isHoleAhead line w),
        foldlM_withText, foldlM_tag htag, withText_nil]

/-- Nothing but its statements is read of a line of these. -/
theorem foldlM_statements (hs : s.IsNeat) {ws : List Word} {ss : List (List Word)}
    (h : statements? stub line r ss = some r') :
    (s.trimmed (some (plainTag .statement line ws))
        (ss.foldr (fun ws k => .tag (plainTag .statement line ws) :: k) (withText ['\n'] k))).foldlM
      (Reader.take stub) r = (s.trimmed none k).foldlM (Reader.take stub) r' := by
  induction ss generalizing r ws with
  | nil =>
    cases h
    rw [List.foldr_nil, trimmed_lineEnd hs.trims rfl rfl]
  | cons vs ss ih =>
    rw [statements?, List.foldlM_cons] at h
    obtain ⟨r₁, htag, h⟩ := Option.bind_eq_some_iff.mp h
    rw [List.foldr_cons, Settings.trimmed, foldlM_tag htag]
    exact ih h

theorem readsOn_band (hs : s.IsNeat) {band : Band} (hends : EndsLine last cs)
    (h : band.take? stub line (r.push (textNode cs)) = some r') :
    ReadsOn s stub r last cs (band.chunks line k) r' k := by
  cases band with
  | line bits =>
    rw [Band.take?, Option.map_eq_some_iff] at h
    obtain ⟨r₁, hbits, rfl⟩ := h
    exact readsOn_line hends.1 hbits
  | statements first more =>
    rw [Band.take?, statements?, List.foldlM_cons] at h
    obtain ⟨r₁, htag, hmore⟩ := Option.bind_eq_some_iff.mp h
    refine ⟨r', none, [], ⟨isHole_none, .inl rfl⟩, push_nil r', ?_⟩
    rw [Band.chunks, List.foldr_cons, trimmed_tag, between_of_endsLine hends rfl, foldlM_withText,
      foldlM_tag htag, withText_nil]
    exact foldlM_statements hs hmore

/-- Bands are read one after the other. -/
theorem foldlM_chunksFrom (hs : s.IsNeat) {bands : List Band} (hends : EndsLine last cs)
    (h : takeFrom? stub line bands (r.push (textNode cs)) = some r') :
    (s.trimmed last (withText cs (chunksFrom line bands))).foldlM (Reader.take stub) r =
      .ok r' := by
  induction bands generalizing r last cs line with
  | nil =>
    cases h
    rw [chunksFrom, trimmed_end, between_of_isHole hends.1 (by simp),
      foldlM_withText]
    rfl
  | cons band bands ih =>
    obtain ⟨r₁, hband, hbands⟩ := Option.bind_eq_some_iff.mp h
    obtain ⟨r₂, last₂, cs₂, hends₂, rfl, hreads⟩ :=
      readsOn_band (k := chunksFrom (line + 1) bands) hs hends hband
    rw [chunksFrom, hreads]
    exact ih hends₂ hbands

/-- A template of bands is read as the bands say. -/
theorem read_of_bands (hs : s.IsNeat) {bands : List Band} {source : String}
    (hsource : source.toList = bands.flatMap Band.spelled) (hclean : ∀ band ∈ bands, band.IsClean)
    (h : takeFrom? stub 1 bands .start = some r) (hframes : r.frames = []) :
    read s stub source = .ok ⟨stub, r.layout, r.nodes.reverse⟩ := by
  have hchunks : (chunks s source.toList).foldlM (Reader.take stub) .start = .ok r := by
    rw [chunks, if_pos hs.keeps, hsource, cut_bands hclean, ← withText_nil (chunksFrom 1 bands)]
    exact foldlM_chunksFrom hs ⟨isHole_none, .inl rfl⟩ (by rwa [push_nil])
  rw [read, hchunks]
  change (if r.frames.isEmpty then _ else _) = _
  rw [if_pos (by rw [hframes]; rfl)]
  rfl

end Reading

end Graft.Stub.Template
