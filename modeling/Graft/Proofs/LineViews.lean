-- The two views of a line. One gives out its characters in their order, each
-- with the byte at which it begins. The other takes slices of it by the bytes
-- between which they stand, and what takes slices breaks off where one would
-- begin or end inside a character. It does not where each byte is the number
-- of bytes that some first characters take.
import Graft.Proofs.SpelledLines

namespace Graft.Manifest

/-! ## Characters and their bytes -/

theorem byteCount_append (cs ds : List Char) :
    byteCount (cs ++ ds) = byteCount cs + byteCount ds := by
  induction cs with
  | nil => simp [byteCount]
  | cons c cs ih => rw [List.cons_append, byteCount, byteCount, ih, Nat.add_assoc]

theorem utf8ByteSize_ofList (cs : List Char) : (String.ofList cs).utf8ByteSize = byteCount cs := by
  induction cs with
  | nil => rfl
  | cons c cs ih =>
    rw [String.ofList_cons, String.utf8ByteSize_append, String.utf8ByteSize_singleton, ih,
      byteCount]

theorem utf8ByteSize_eq_byteCount (s : String) : s.utf8ByteSize = byteCount s.toList := by
  rw [← utf8ByteSize_ofList, String.ofList_toList]

/-- The characters that are still to be given out, each with the byte at which it begins. -/
abbrev Chars := List (Nat × Char)

/-- The characters with their bytes, the first of which begins at the byte. -/
def indices : Nat → List Char → Chars
  | _, [] => []
  | n, c :: cs => (n, c) :: indices (n + c.utf8Size) cs

/-- The byte at which the next character begins, or the line ends. -/
def position (line : String) : Chars → Nat
  | [] => line.utf8ByteSize
  | (n, _) :: _ => n

theorem indices_append (n : Nat) (cs ds : List Char) :
    indices n (cs ++ ds) = indices n cs ++ indices (n + byteCount cs) ds := by
  induction cs generalizing n with
  | nil => rfl
  | cons c cs ih => rw [List.cons_append, indices, ih, indices, byteCount, Nat.add_assoc]; rfl

theorem map_snd_indices (n : Nat) (cs : List Char) : (indices n cs).map Prod.snd = cs := by
  induction cs generalizing n with
  | nil => rfl
  | cons c cs ih => rw [indices, List.map_cons, ih]

theorem length_indices (n : Nat) (cs : List Char) : (indices n cs).length = cs.length := by
  rw [← List.length_map (f := Prod.snd), map_snd_indices]

theorem indices_ne_nil {n : Nat} {cs : List Char} (h : cs ≠ []) : indices n cs ≠ [] := by
  obtain ⟨c, ds, rfl⟩ := List.exists_cons_of_ne_nil h
  exact List.cons_ne_nil _ _

theorem position_indices {line : String} {before cs : List Char} (h : line.toList = before ++ cs) :
    position line (indices (byteCount before) cs) = byteCount before := by
  cases cs with
  | nil => rw [indices, position, utf8ByteSize_eq_byteCount, h, List.append_nil]
  | cons c cs => rfl

/-- The characters in front of a byte are those that end there. -/
theorem dropWhile_indices (n : Nat) (cs ds : List Char) :
    (indices n (cs ++ ds)).dropWhile (fun p => p.1 < n + byteCount cs) =
      indices (n + byteCount cs) ds := by
  induction cs generalizing n with
  | nil => cases ds <;> simp [indices, byteCount]
  | cons c cs ih =>
    -- Each character takes a byte at least, so its own byte stands in front of the next one.
    have hc := c.utf8Size_pos
    rw [List.cons_append, indices, byteCount, ← Nat.add_assoc,
      List.dropWhile_cons_of_pos (by simp; omega), ih]

/-! ## Slices -/

/-- A slice of a line: the byte of the line at which it begins, and what it says. -/
structure Slice where
  start : Nat
  text : String
  deriving DecidableEq

namespace Slice

/-- The byte of the line at which the slice ends. -/
def stop (s : Slice) : Nat := s.start + s.text.utf8ByteSize

/-- The slice of a slice between two bytes, counted from where it begins itself. There is none if
one of them is no boundary of characters, or if they are the wrong way round. -/
def slice? (s : Slice) (i j : Nat) : Option Slice :=
  if h : (String.Pos.Raw.mk i).IsValid s.text ∧ (String.Pos.Raw.mk j).IsValid s.text ∧ i ≤ j then
    some ⟨s.start + i, s.text.extract (s.text.pos ⟨i⟩ h.1) (s.text.pos ⟨j⟩ h.2.1)⟩
  else none

/-- Both ends of the slice are boundaries between characters of the line, and the slice says what
stands between them. -/
structure IsOf (s : Slice) (line : String) : Prop where
  start : (String.Pos.Raw.mk s.start).IsValid line
  stop : (String.Pos.Raw.mk s.stop).IsValid line
  bytes : s.text.toByteArray = line.toByteArray.extract s.start s.stop

/-- The characters of the slice stand in the line behind those that take the bytes in front of
it. -/
def StandsIn (s : Slice) (line : String) : Prop :=
  ∃ before after, line.toList = before ++ s.text.toList ++ after ∧ s.start = byteCount before

theorem eq_of_toList {s : String} {cs ds es : List Char} (h : s.toList = cs ++ ds ++ es) :
    s = String.ofList cs ++ String.ofList ds ++ String.ofList es := by
  rw [← String.ofList_append, ← String.ofList_append, ← h, String.ofList_toList]

theorem isValid_byteCount {s : String} {cs ds : List Char} (h : s.toList = cs ++ ds) :
    (String.Pos.Raw.mk (byteCount cs)).IsValid s := by
  refine String.Pos.Raw.isValid_iff_exists_append.mpr ⟨String.ofList cs, String.ofList ds, ?_, ?_⟩
  · rw [← String.ofList_append, ← h, String.ofList_toList]
  · rw [String.Pos.Raw.ext_iff, String.byteIdx_rawEndPos, utf8ByteSize_ofList]

theorem extract_toByteArray {s : String} {cs ds es : List Char} (h : s.toList = cs ++ ds ++ es) :
    s.toByteArray.extract (byteCount cs) (byteCount cs + byteCount ds) =
      (String.ofList ds).toByteArray := by
  have hbytes : s.toByteArray = (String.ofList cs).toByteArray ++ (String.ofList ds).toByteArray ++
      (String.ofList es).toByteArray := by
    rw [eq_of_toList h, String.toByteArray_append, String.toByteArray_append]
  rw [hbytes, ← utf8ByteSize_ofList, ← utf8ByteSize_ofList, ← String.size_toByteArray,
    ← String.size_toByteArray, ← ByteArray.size_append, ByteArray.extract_append_size_left]
  exact ByteArray.extract_append_eq_right rfl ByteArray.size_append

theorem StandsIn.isOf {s : Slice} {line : String} (h : s.StandsIn line) : s.IsOf line := by
  obtain ⟨before, after, hline, hstart⟩ := h
  have hstop : s.stop = byteCount (before ++ s.text.toList) := by
    rw [stop, hstart, utf8ByteSize_eq_byteCount, byteCount_append]
  refine ⟨?_, ?_, ?_⟩
  · rw [hstart]
    exact isValid_byteCount (hline.trans (List.append_assoc ..))
  · rw [hstop]
    exact isValid_byteCount hline
  · rw [hstop, hstart, byteCount_append, extract_toByteArray hline, String.ofList_toList]

theorem slice?_eq_some {s : Slice} {cs ds es : List Char} (h : s.text.toList = cs ++ ds ++ es) :
    s.slice? (byteCount cs) (byteCount cs + byteCount ds) =
      some ⟨s.start + byteCount cs, String.ofList ds⟩ := by
  have hstart := isValid_byteCount (h.trans (List.append_assoc ..))
  have hstop := isValid_byteCount h
  rw [byteCount_append] at hstop
  rw [slice?, dif_pos ⟨hstart, hstop, Nat.le_add_right _ _⟩]
  congr 2
  rw [← String.toByteArray_inj, String.toByteArray_extract]
  exact extract_toByteArray h

end Slice

/-! ## Taking slices -/

/-- What takes slices on its way to a result: it notes each slice that it takes, and breaks off
where there is none. -/
abbrev Slicing := StateT (List Slice) Option

/-- Takes the slice of a slice between two bytes. -/
def cut (s : Slice) (i j : Nat) : Slicing Slice := fun taken =>
  (s.slice? i j).map fun t => (t, taken ++ [t])

/-- It does not break off, whatever slices of the line were taken before; it takes slices of the
line only, and the result is as told. -/
def Gives {α : Type} (line : String) (m : Slicing α) (Q : α → Prop) : Prop :=
  ∀ taken : List Slice, (∀ s ∈ taken, s.StandsIn line) →
    ∃ a taken', m.run taken = some (a, taken') ∧ (∀ s ∈ taken', s.StandsIn line) ∧ Q a

namespace Gives

variable {α β : Type} {line : String}

theorem pure {a : α} {Q : α → Prop} (h : Q a) : Gives line (pure a) Q :=
  fun taken htaken => ⟨a, taken, rfl, htaken, h⟩

theorem bind {m : Slicing α} {f : α → Slicing β} {P : α → Prop} {Q : β → Prop}
    (hm : Gives line m P) (hf : ∀ a, P a → Gives line (f a) Q) : Gives line (m >>= f) Q := by
  intro taken htaken
  obtain ⟨a, taken', hrun, htaken', ha⟩ := hm taken htaken
  obtain ⟨b, taken'', hrun', htaken'', hb⟩ := hf a ha taken' htaken'
  refine ⟨b, taken'', ?_, htaken'', hb⟩
  rw [StateT.run_bind, hrun]
  exact hrun'

theorem cut {s : Slice} (cs ds es : List Char) (hs : s.StandsIn line)
    (h : s.text.toList = cs ++ ds ++ es) :
    Gives line (cut s (byteCount cs) (byteCount cs + byteCount ds)) fun t =>
      t = ⟨s.start + byteCount cs, String.ofList ds⟩ ∧ t.StandsIn line := by
  intro taken htaken
  obtain ⟨before, after, hline, hstart⟩ := hs
  have ht : (⟨s.start + byteCount cs, String.ofList ds⟩ : Slice).StandsIn line := by
    refine ⟨before ++ cs, es ++ after, ?_, by rw [hstart, byteCount_append]⟩
    rw [hline, h, String.toList_ofList]
    simp only [List.append_assoc]
  refine ⟨_, taken ++ [⟨s.start + byteCount cs, String.ofList ds⟩], ?_, ?_, rfl, ht⟩
  · show (s.slice? _ _).map _ = _
    rw [Slice.slice?_eq_some h]
    rfl
  · intro t hmem
    rcases List.mem_append.mp hmem with hmem | hmem
    · exact htaken t hmem
    · rwa [List.mem_singleton.mp hmem]

end Gives

/-- All of a line. -/
def whole (line : String) : Slice := ⟨0, line⟩

theorem standsIn_whole (line : String) : (whole line).StandsIn line :=
  ⟨[], [], by simp [whole], rfl⟩

/-- From a place on, a line has a slice. -/
theorem Gives.cutFrom {line : String} {before cs : List Char} (h : line.toList = before ++ cs) :
    Gives line (Manifest.cut (whole line) (byteCount before) line.utf8ByteSize) fun t =>
      t = ⟨byteCount before, String.ofList cs⟩ ∧ t.StandsIn line := by
  have hcut := Gives.cut before cs [] (standsIn_whole line) (by rw [List.append_nil]; exact h)
  rwa [← byteCount_append, ← h, ← utf8ByteSize_eq_byteCount, whole, Nat.zero_add] at hcut

/-- Up to a place of it, a slice has a slice. -/
theorem Gives.cutTo {line : String} {s : Slice} {cs ds : List Char} (hs : s.StandsIn line)
    (h : s.text.toList = cs ++ ds) :
    Gives line (Manifest.cut s 0 (byteCount cs)) fun t =>
      t = ⟨s.start, String.ofList cs⟩ ∧ t.StandsIn line := by
  have hcut := Gives.cut [] cs ds hs h
  rwa [byteCount, Nat.zero_add, Nat.add_zero] at hcut

end Graft.Manifest
