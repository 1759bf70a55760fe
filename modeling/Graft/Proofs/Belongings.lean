-- What belongs to a run: the files whose names it drew. No two suffixes share
-- a name, so whose a file is can be read off its path. A move minds what
-- belongs to others if it creates, removes and runs only what is its own, and
-- reads of the files of others at most the sources.
import Mathlib.Data.List.TakeWhile
import Graft.Proofs.PathNames
import Graft.Proofs.TemporaryNames
import Graft.Proofs.Watching

namespace Graft

/-! ## Names of a suffix -/

namespace Suffix

theorem dash_notMem_toString (n : Nat) : '-' ∉ (toString n).toList := fun h =>
  absurd (isDigit_of_mem_toString h) (by decide)

theorem toString_injective {m n : Nat} (h : (toString m).toList = (toString n).toList) : m = n := by
  rw [Nat.toString_eq_ofList_toDigits, Nat.toString_eq_ofList_toDigits, String.toList_ofList,
    String.toList_ofList] at h
  rw [← Nat.ofDigitChars_toDigits (b := 10) (n := m) (by decide) (by decide), h,
    Nat.ofDigitChars_toDigits (by decide) (by decide)]

/-- The dashes of the text part the numbers of the suffix. -/
theorem splitOn_text (s : Suffix) : Text.splitOn '-' s.text.toList =
    [(toString s.second).toList, (toString s.process).toList, (toString s.serial).toList] := by
  have htext : s.text.toList = (toString s.second).toList ++ '-' ::
      ((toString s.process).toList ++ '-' :: (toString s.serial).toList) := by
    unfold text
    simp only [String.toList_append, List.append_assoc]
    rfl
  rw [htext, Text.splitOn_append_cons, Text.splitOn_append_cons,
    Text.splitOn_of_not_mem (dash_notMem_toString _),
    Text.splitOn_of_not_mem (dash_notMem_toString _),
    Text.splitOn_of_not_mem (dash_notMem_toString _)]
  rfl

theorem text_injective {s t : Suffix} (h : s.text = t.text) : s = t := by
  have hsplit := s.splitOn_text
  rw [h, t.splitOn_text] at hsplit
  obtain ⟨hsecond, hrest⟩ := List.cons.inj hsplit
  obtain ⟨hprocess, hrest⟩ := List.cons.inj hrest
  obtain ⟨hserial, -⟩ := List.cons.inj hrest
  cases s
  cases t
  cases toString_injective hsecond
  cases toString_injective hprocess
  cases toString_injective hserial
  rfl

/-- The names of the injected file, of the artifact and of the answer with the suffix. -/
def names (s : Suffix) : List String :=
  [Injection.fileName s, Injection.artifactName s, Artifact.resultName s]

theorem names_nodup (s : Suffix) : s.names.Nodup := by
  simp [names, Injection.fileName_ne_artifactName, Injection.fileName_ne_resultName,
    Injection.artifactName_ne_resultName]

/-- No two suffixes share a name. -/
theorem eq_of_mem_names {s t : Suffix} {name : String} (hs : name ∈ s.names)
    (ht : name ∈ t.names) : s = t := by
  have hend : ∀ first last : String, first ++ s.text ++ last = first ++ t.text ++ last → s = t :=
    fun _ _ h => text_injective (by simpa [← String.toList_inj] using h)
  simp only [names, List.mem_cons, List.not_mem_nil, or_false] at hs ht
  obtain rfl | rfl | rfl := hs
  · obtain h | h | h := ht
    · exact hend _ _ h
    · exact absurd h (Injection.fileName_ne_artifactName s t)
    · exact absurd h (Injection.fileName_ne_resultName s t)
  · obtain h | h | h := ht
    · exact absurd h.symm (Injection.fileName_ne_artifactName t s)
    · exact hend "gyv-code-injection-" "" (congrArg (· ++ "") h)
    · exact absurd h (Injection.artifactName_ne_resultName s t)
  · obtain h | h | h := ht
    · exact absurd h.symm (Injection.fileName_ne_resultName t s)
    · exact absurd h.symm (Injection.artifactName_ne_resultName t s)
    · exact hend _ _ h

/-- The path ends in a name of the suffix. -/
def Marks (s : Suffix) (path : String) : Prop := ∃ name ∈ s.names, Path.EndsIn path name

end Suffix

theorem Path.EndsIn.fileName? {path name : String} (h : Path.EndsIn path name) :
    Path.fileName? path = some name := by
  obtain ⟨hn, base, rfl⟩ := h
  exact Path.fileName?_join hn base

namespace Suffix

/-- Whose a path is can be read off its end. -/
theorem Marks.unique {s t : Suffix} {path : String} (hs : s.Marks path) (ht : t.Marks path) :
    s = t := by
  obtain ⟨name, hname, hpath⟩ := hs
  obtain ⟨name', hname', hpath'⟩ := ht
  cases hpath.fileName?.symm.trans hpath'.fileName?
  exact eq_of_mem_names hname hname'

/-! ### Which of the names are names of sources -/

theorem dot_notMem_text (s : Suffix) : '.' ∉ s.text.toList := by
  have hnumber : ∀ n : Nat, '.' ∉ (toString n).toList := fun n h =>
    absurd (isDigit_of_mem_toString h) (by decide)
  unfold text
  simp only [String.toList_append, List.mem_append, hnumber, false_or, or_false]
  decide

theorem extension_artifactName (s : Suffix) :
    Path.extension? (Injection.artifactName s) = none := by
  have hdot : '.' ∉ (Injection.artifactName s).toList := by
    unfold Injection.artifactName
    simp [s.dot_notMem_text]
  have hall : (Injection.artifactName s).toList.reverse.takeWhile (· != '.')
      = (Injection.artifactName s).toList.reverse := by
    rw [List.takeWhile_eq_self_iff]
    intro c hc
    rw [bne_iff_ne]
    rintro rfl
    exact hdot (List.mem_reverse.mp hc)
  unfold Path.extension?
  dsimp only
  rw [hall]
  simp

theorem extension_resultName (s : Suffix) :
    Path.extension? (Artifact.resultName s) = some "json" := by
  unfold Path.extension? Artifact.resultName
  simp [String.toList_append]

end Suffix

/-! ## Moves among the files of others -/

/-- A path that may be read by whoever drew these suffixes: it leads to a source, a manifest or
settings, or it is their own. -/
def MayRead (own : List Suffix) (path : String) : Prop :=
  Look.IsSourcePath path ∨ Path.EndsIn path Manifest.fileName ∨ Path.EndsIn path Config.fileName ∨
    ∃ s ∈ own, s.Marks path

/-- What is run is an own artifact that answers in an own file, or a build tool that is asked
to build no other than an own artifact. -/
def Launch.Minds (own : List Suffix) (l : Launch) : Prop :=
  (∃ s ∈ own, ∃ t ∈ own, ∃ artifact directory symbol result,
    l = Artifact.runFor artifact directory symbol result ∧
      Path.EndsIn artifact (Injection.artifactName s) ∧
      Path.EndsIn result (Artifact.resultName t)) ∨
  ∃ (t : Toolchain) (c : ToolCall), l.arguments = t.arguments c ∧ l.environment = [] ∧
    ∀ path, c = .build path → ∃ s ∈ own, Path.EndsIn path (Injection.artifactName s)

namespace Move

/-- The move of a run that drew these suffixes minds what belongs to others. Besides its own
files the run writes only to its outputs. -/
def Minds (output : String → Prop) (own : List Suffix) : Move → Prop
  | find path => MayRead own path
  | create path _ => ∃ s ∈ own, Path.EndsIn path (Injection.fileName s)
  | write path _ => output path
  | remove path => ∃ s ∈ own, s.Marks path
  | launch l => l.Minds own
  | ask _ _ _ => False
  | _ => True

/-- The suffix that the move draws, if it draws one. -/
def drawn : (m : Move) → m.Answer → List Suffix
  | draw, s => [s]
  | _, _ => []

variable {output : String → Prop} {own own' : List Suffix}

/-- Who draws more suffixes minds the same. -/
theorem Minds.mono {m : Move} (hm : m.Minds output own) (h : own ⊆ own') :
    m.Minds output own' := by
  have hmore : ∀ {P : Suffix → Prop}, (∃ s ∈ own, P s) → ∃ s ∈ own', P s :=
    fun ⟨s, hs, hp⟩ => ⟨s, h hs, hp⟩
  cases m with
  | find path => exact Or.imp_right (Or.imp_right (Or.imp_right hmore)) hm
  | create path bytes => exact hmore hm
  | remove path => exact hmore hm
  | launch l =>
    obtain ⟨s, hs, t, ht, hl⟩ | ⟨t, c, harguments, hplain, hc⟩ := hm
    · exact .inl ⟨s, h hs, t, h ht, hl⟩
    · exact .inr ⟨t, c, harguments, hplain, fun path hpath => hmore (hc path hpath)⟩
  | ask tool directory c => exact hm
  | write path bytes => exact hm
  | _ => trivial

end Move

/-- The watch for moves that mind what belongs to others. Its states are the suffixes that were
drawn so far. -/
def minding (output : String → Prop) : Watch (List Suffix) where
  allows own m := m.Minds output own
  after own m x own' := own' = own ++ m.drawn x

/-- Moves that mind what belongs to others, whatever is drawn meanwhile. -/
theorem Routine.Only.minds {ε α : Type} {r : Routine ε α} {output : String → Prop}
    {base own : List Suffix} (hr : r.Only (Move.Minds output base)) (hb : base ⊆ own) :
    r.Follows (minding output) own fun _ own' => own ⊆ own' :=
  hr.follows (I := (own ⊆ ·)) (fun _ _ hs hm => ⟨Move.Minds.mono hm (List.Subset.trans hb hs),
    fun _ _ ha => ha ▸ List.subset_append_of_subset_left _ hs⟩) (List.Subset.refl own)

end Graft
