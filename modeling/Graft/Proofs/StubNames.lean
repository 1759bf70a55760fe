-- The version in the name of a stub. The name may have a `v` in front and the
-- ending of stubs behind, and numbers may be missing from the end of the
-- version. With the missing numbers as zeros it is read as a version, and only
-- as one that has this text.
import Graft.Proofs.VersionTexts
import Graft.Stub.Catalog

namespace Graft.Stub

open Version

variable {name mark core rest tail cs : List Char}

/-! ## The parts of a name -/

/-- The parts of a name: a `v` in front and the ending of stubs behind, where they are there, and
between them the numbers and what stands behind the numbers. -/
structure HasParts (name mark core rest tail : List Char) : Prop where
  whole : name = mark ++ (core ++ rest) ++ tail
  tail : tail = ending ∨ tail = [] ∧ ¬ ending <:+ name
  mark : mark = ['v'] ∨ mark = [] ∧ (core ++ rest).head? ≠ some 'v'
  core : ∀ c ∈ core, opensSuffix c = false
  rest : ∀ c ∈ rest.head?, opensSuffix c = true

theorem dropTail_append (cs tail : List Char) : dropTail tail (cs ++ tail) = cs := by
  have hsuffix : tail.isSuffixOf (cs ++ tail) = true :=
    List.isSuffixOf_iff_suffix.mpr (List.suffix_append cs tail)
  rw [dropTail, if_pos hsuffix, List.length_append, Nat.add_sub_cancel, List.take_left]

theorem dropTail_of_not_suffix (h : ¬ tail <:+ cs) : dropTail tail cs = cs :=
  if_neg fun hsuffix => h (List.isSuffixOf_iff_suffix.mp hsuffix)

theorem dropMark_of_head (h : cs.head? ≠ some 'v') : dropMark cs = cs := by
  unfold dropMark
  split
  · exact absurd rfl h
  · rfl

theorem HasParts.dropTail (h : HasParts name mark core rest tail) :
    dropTail ending name = mark ++ (core ++ rest) := by
  obtain htail | ⟨htail, hnot⟩ := h.tail
  · rw [h.whole, htail, dropTail_append]
  · rw [dropTail_of_not_suffix hnot, h.whole, htail, List.append_nil]

theorem HasParts.dropMark (h : HasParts name mark core rest tail) :
    dropMark (mark ++ (core ++ rest)) = core ++ rest := by
  obtain hmark | ⟨hmark, hhead⟩ := h.mark
  · rw [hmark]
    rfl
  · rw [hmark, List.nil_append, dropMark_of_head hhead]

/-- A name is read as its numbers, the missing ones as zeros, and what stands behind them. -/
theorem HasParts.versionText (h : HasParts name mark core rest tail) :
    versionText name = completed core ++ rest := by
  have hcore : ∀ c ∈ core, (!opensSuffix c) = true := fun c hc => by rw [h.core c hc]; rfl
  have hrest : Stops (fun c => !opensSuffix c) rest := fun c hc => by
    simp only [h.rest c hc, Bool.not_true]
  rw [Stub.versionText, h.dropTail, h.dropMark, takeWhile_append_of_stops hcore hrest,
    dropWhile_append_of_stops hcore hrest]

theorem exists_tail (name : List Char) : ∃ stem tail, name = stem ++ tail ∧
    (tail = ending ∨ tail = [] ∧ ¬ ending <:+ name) := by
  by_cases h : ending <:+ name
  · obtain ⟨stem, hstem⟩ := h
    exact ⟨stem, ending, hstem.symm, .inl rfl⟩
  · exact ⟨name, [], (List.append_nil name).symm, .inr ⟨rfl, h⟩⟩

theorem exists_mark (stem : List Char) : ∃ mark body, stem = mark ++ body ∧
    (mark = ['v'] ∨ mark = [] ∧ body.head? ≠ some 'v') := by
  by_cases h : stem.head? = some 'v'
  · obtain ⟨body, hbody⟩ := List.head?_eq_some_iff.mp h
    exact ⟨['v'], body, hbody, .inl rfl⟩
  · exact ⟨[], stem, rfl, .inr ⟨rfl, h⟩⟩

/-- Every name has parts. -/
theorem exists_hasParts (name : List Char) :
    ∃ mark core rest tail, HasParts name mark core rest tail := by
  obtain ⟨stem, tail, hname, htail⟩ := exists_tail name
  obtain ⟨mark, body, hstem, hmark⟩ := exists_mark stem
  let opens := fun c => !opensSuffix c
  have hsplit : body = body.takeWhile opens ++ body.dropWhile opens :=
    List.takeWhile_append_dropWhile.symm
  refine ⟨mark, body.takeWhile opens, body.dropWhile opens, tail, ?_, htail, ?_, ?_, ?_⟩
  · rw [← hsplit, ← hstem, hname]
  · rw [← hsplit]
    exact hmark
  · intro c hc
    simpa [opens] using List.all_eq_true.mp List.all_takeWhile c hc
  · intro c hc
    have hopens := List.head?_dropWhile_not opens body
    rw [hc] at hopens
    simpa [opens] using hopens

/-- A name is read as a version exactly if the version is valid and has the text that the parts of
the name make up. -/
theorem versionOf_eq_ok_iff {name : String} {v : Version} :
    versionOf name = .ok v ↔ v.IsValid ∧ ∃ mark core rest tail,
      HasParts name.toList mark core rest tail ∧ v.chars = completed core ++ rest := by
  have hread : versionOf name = .ok v ↔ parseChars (versionText name.toList) = .ok v := by
    rw [versionOf]
    split
    · rename_i u hu
      rw [hu, Except.ok.injEq, Except.ok.injEq]
    · rename_i e he
      rw [he]
      exact ⟨nofun, nofun⟩
  rw [hread, parseChars_eq_ok_iff]
  refine and_congr_right fun _ => ⟨fun htext => ?_, ?_⟩
  · obtain ⟨mark, core, rest, tail, hparts⟩ := exists_hasParts name.toList
    exact ⟨mark, core, rest, tail, hparts, htext.symm.trans hparts.versionText⟩
  · rintro ⟨mark, core, rest, tail, hparts, htext⟩
    exact hparts.versionText.trans htext.symm

/-! ## Numbers that are missing -/

/-- What stands behind the numbers of a version. -/
def suffixes (pre build : List (List Char)) : List Char := suffix '-' pre ++ suffix '+' build

theorem opens_suffixes (pre build : List (List Char)) :
    ∀ c ∈ (suffixes pre build).head?, opensSuffix c = true := by
  intro c hc
  rw [suffixes] at hc
  by_cases hpre : pre = []
  · subst hpre
    by_cases hbuild : build = []
    · subst hbuild
      cases hc
    · rw [suffix_of_ne_nil hbuild] at hc
      cases hc
      rfl
  · rw [suffix_of_ne_nil hpre] at hc
    cases hc
    rfl

/-- The characters of the numbers of a version. -/
def isCoreChar (c : Char) : Bool := c.isDigit || c == '.'

theorem opensSuffix_of_isCoreChar {c : Char} (h : isCoreChar c = true) :
    opensSuffix c = false := by
  rw [isCoreChar, Bool.or_eq_true, beq_iff_eq] at h
  rw [opensSuffix, Bool.or_eq_false_iff, beq_eq_false_iff_ne, beq_eq_false_iff_ne]
  constructor
  all_goals
    rintro rfl
    exact absurd h (by decide)

theorem isCoreChar_digits (n : Nat) : ∀ c ∈ digits n, isCoreChar c = true := fun c hc => by
  rw [isCoreChar, isDigit_of_mem_digits hc, Bool.true_or]

theorem isCoreChar_dot (hcore : ∀ c ∈ core, isCoreChar c = true) (n : Nat) :
    ∀ c ∈ digits n ++ '.' :: core, isCoreChar c = true := by
  intro c hc
  obtain hc | hc := List.mem_append.mp hc
  · exact isCoreChar_digits n c hc
  · obtain rfl | hc := List.mem_cons.mp hc
    · rfl
    · exact hcore c hc

theorem count_digits (n : Nat) : (digits n).count '.' = 0 :=
  List.count_eq_zero.mpr fun hdot => absurd (isDigit_of_mem_digits hdot) (by decide)

/-- The numbers are completed by zeros according to how many there are. -/
theorem completed_digits (m n p : Nat) :
    completed (digits m) = digits m ++ ".0.0".toList ∧
      completed (digits m ++ '.' :: digits n) = digits m ++ '.' :: (digits n ++ ".0".toList) ∧
      completed (digits m ++ '.' :: (digits n ++ '.' :: digits p)) =
        digits m ++ '.' :: (digits n ++ '.' :: digits p) := by
  refine ⟨?_, ?_, ?_⟩
  all_goals simp [completed, List.count_append, count_digits, List.replicate]

theorem toList_toString (n : Nat) : (toString n).toList = digits n := by
  rw [Nat.toString_eq_ofList_toDigits, String.toList_ofList]
  rfl

section Spelled

variable {v : Version} {m n : Nat} {pre build : List (List Char)} {mark : String}

/-- The text of a version without a patch number, with zero in its place. -/
theorem chars_of_patch_zero : chars ⟨m, n, 0, pre, build⟩ =
    digits m ++ '.' :: (digits n ++ ".0".toList) ++ suffixes pre build := by
  rw [chars_eq, suffixes]
  simp only [List.append_nil, List.append_assoc, List.cons_append]
  rfl

/-- Numbers behind an optional `v` and in front of what may stand behind them, with the ending of
stubs, are read as the version that has them as its completed numbers. -/
theorem versionOf_of_core {name : String} (hv : v.IsValid) (hmark : mark ∈ ["v", ""])
    (hne : core ≠ []) (hcore : ∀ c ∈ core, isCoreChar c = true)
    (htext : v.chars = completed core ++ suffixes v.pre v.build)
    (hname : name.toList = mark.toList ++ (core ++ suffixes v.pre v.build) ++ ending) :
    versionOf name = .ok v := by
  have hmarks : ∀ mark ∈ ["v", ""], mark.toList = ['v'] ∨ mark.toList = [] := by decide
  have hhead : (core ++ suffixes v.pre v.build).head? ≠ some 'v' := by
    cases core with
    | nil => exact absurd rfl hne
    | cons c core =>
      rintro ⟨⟩
      exact absurd (hcore 'v' List.mem_cons_self) (by decide)
  refine versionOf_eq_ok_iff.mpr ⟨hv, _, core, _, ending, ⟨hname, .inl rfl, ?_, ?_, ?_⟩, htext⟩
  · exact (hmarks mark hmark).imp_right fun h => ⟨h, hhead⟩
  · exact fun c hc => opensSuffix_of_isCoreChar (hcore c hc)
  · exact opens_suffixes v.pre v.build

theorem versionOf_text (hv : v.IsValid) (hmark : mark ∈ ["v", ""]) :
    versionOf (mark ++ v.text ++ ".go.stub") = .ok v := by
  have hcore := isCoreChar_dot (isCoreChar_dot (isCoreChar_digits v.patch) v.minor) v.major
  refine versionOf_of_core hv hmark (List.append_ne_nil_of_left_ne_nil (digits_ne_nil _) _)
    hcore ?_ ?_
  · rw [(completed_digits v.major v.minor v.patch).2.2, chars_eq, suffixes]
    simp only [List.append_nil, List.append_assoc, List.cons_append]
  · simp only [String.toList_append, text, String.toList_ofList, chars_eq, suffixes,
      List.append_nil, List.append_assoc, List.cons_append]
    rfl

theorem versionOf_two_numbers (hv : IsValid ⟨m, n, 0, pre, build⟩) (hmark : mark ∈ ["v", ""]) :
    versionOf (mark ++ toString m ++ "." ++ toString n ++ String.ofList (suffixes pre build) ++
      ".go.stub") = .ok ⟨m, n, 0, pre, build⟩ := by
  refine versionOf_of_core hv hmark (List.append_ne_nil_of_left_ne_nil (digits_ne_nil _) _)
    (isCoreChar_dot (isCoreChar_digits n) m) ?_ ?_
  · rw [(completed_digits m n 0).2.1, chars_of_patch_zero]
  · simp only [String.toList_append, toList_toString, String.toList_ofList, List.append_assoc]
    rfl

theorem versionOf_one_number (hv : IsValid ⟨m, 0, 0, pre, build⟩) (hmark : mark ∈ ["v", ""]) :
    versionOf (mark ++ toString m ++ String.ofList (suffixes pre build) ++ ".go.stub") =
      .ok ⟨m, 0, 0, pre, build⟩ := by
  refine versionOf_of_core hv hmark (digits_ne_nil m) (isCoreChar_digits m) ?_ ?_
  · rw [(completed_digits m 0 0).1, chars_of_patch_zero]
    rfl
  · simp only [String.toList_append, toList_toString, String.toList_ofList, List.append_assoc]
    rfl

end Spelled

/-- A stub that is named after a version, with a `v` in front or without, is the stub of this
version. Numbers that are missing from the end are zeros, whatever stands behind the numbers. A
name that is not completed to the text of a valid version is the name of no version. -/
theorem a_stub_is_named_after_its_version :
    (∀ v : Version, v.IsValid → ∀ mark ∈ ["v", ""],
      versionOf (mark ++ v.text ++ ".go.stub") = .ok v) ∧
    (∀ m n pre build, IsValid ⟨m, n, 0, pre, build⟩ → ∀ mark ∈ ["v", ""],
      let s := String.ofList (suffixes pre build)
      versionOf (mark ++ toString m ++ s ++ ".go.stub") = .ok ⟨m, 0, 0, pre, build⟩ ∧
        versionOf (mark ++ toString m ++ ".0" ++ s ++ ".go.stub") = .ok ⟨m, 0, 0, pre, build⟩ ∧
        versionOf (mark ++ toString m ++ "." ++ toString n ++ s ++ ".go.stub") =
          .ok ⟨m, n, 0, pre, build⟩) ∧
    ∀ name v, versionOf name = .ok v ↔ v.IsValid ∧ ∃ mark core rest tail,
      HasParts name.toList mark core rest tail ∧ v.chars = completed core ++ rest := by
  refine ⟨fun v hv mark hmark => versionOf_text hv hmark, ?_, fun _ _ => versionOf_eq_ok_iff⟩
  intro m n pre build hv mark hmark s
  -- The patch number is zero already, so its bound is that of the minor one, too.
  have hzero : IsValid ⟨m, 0, 0, pre, build⟩ := ⟨hv.major, hv.patch, hv.patch, hv.pre, hv.build⟩
  have hdot : ".0" = "." ++ toString 0 := rfl
  refine ⟨versionOf_one_number hzero hmark, ?_, versionOf_two_numbers hv hmark⟩
  rw [hdot, ← String.append_assoc]
  exact versionOf_two_numbers hzero hmark

namespace Sample

/-- A version with dots and hyphens behind its numbers, the build with a zero in front. -/
def candidate : Version :=
  ⟨4, 10, 0, ["rc-1".toList, "0".toList, "v-".toList], ["007".toList, "go".toList]⟩

theorem the_candidate_is_read_from_the_names_of_its_stub :
    candidate.IsValid ∧ versionOf "v4.10.0-rc-1.0.v-+007.go.go.stub" = .ok candidate ∧
      versionOf "4.10-rc-1.0.v-+007.go.go.stub" = .ok candidate ∧
      versionOf "v4-rc-1.0.v-+007.go.go.stub" = .ok ⟨4, 0, 0, candidate.pre, candidate.build⟩ := by
  have hvalid : candidate.IsValid := by decide
  obtain ⟨hwhole, hshort, -⟩ := a_stub_is_named_after_its_version
  have hparts := hshort 4 10 candidate.pre candidate.build hvalid
  exact ⟨hvalid, hwhole candidate hvalid "v" (by decide), (hparts "" (by decide)).2.2,
    (hparts "v" (by decide)).1⟩

end Sample
end Graft.Stub
