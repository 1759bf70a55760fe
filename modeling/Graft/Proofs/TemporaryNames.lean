-- The names of the temporary files of an injection. Each is the name of a
-- file whatever its suffix, and the injected file, the artifact and the
-- answers never bear the same name.
import Graft.Injection
import Graft.Proofs.FilesAtPaths

namespace Graft

/-! ## Suffixes -/

theorem isDigit_of_mem_toString {n : Nat} {c : Char} (h : c ∈ (toString n).toList) :
    c.isDigit = true := by
  rw [Nat.toString_eq_ofList_toDigits, String.toList_ofList] at h
  exact Nat.isDigit_of_mem_toDigits (by decide) (by decide) h

theorem slash_notMem_toString (n : Nat) : '/' ∉ (toString n).toList := by
  intro h
  exact absurd (isDigit_of_mem_toString h) (by decide)

theorem Suffix.slash_notMem_text (s : Suffix) : '/' ∉ s.text.toList := by
  unfold text
  simp only [String.toList_append, List.mem_append, slash_notMem_toString, false_or, or_false]
  decide

/-- A text is the name of a file if it opens with another character than a dot, and no
slash is in it. -/
theorem Path.isName_of_take {name : String} {n : Nat} {c : Char} {cs : List Char}
    (h : name.toList.take (n + 1) = c :: cs) (hc : c ≠ '.') (hs : '/' ∉ name.toList) :
    Path.IsName name := by
  have hdot : ∀ more, name.toList ≠ '.' :: more := by
    intro more hd
    rw [hd, List.take_succ_cons] at h
    exact hc (List.cons.inj h).1.symm
  refine ⟨?_, hs, hdot [], hdot ['.']⟩
  intro hn
  rw [hn] at h
  cases h

/-! ## The three names -/

namespace Artifact

theorem take_resultName (s : Suffix) : (resultName s).toList.take 5 = "gyv-i".toList := by
  unfold resultName
  rw [String.toList_append, String.toList_append]
  rfl

theorem isName_resultName (s : Suffix) : Path.IsName (resultName s) := by
  refine Path.isName_of_take (take_resultName s) (by decide) ?_
  unfold resultName
  rw [String.toList_append, String.toList_append]
  simp [s.slash_notMem_text]

theorem endsIn_resultPath (tempDir : String) (s : Suffix) :
    Path.EndsIn (resultPath tempDir s) (resultName s) :=
  Path.endsIn_join (isName_resultName s) tempDir

end Artifact

namespace Injection

theorem take_fileName (s : Suffix) : (fileName s).toList.take 5 = "zz_gy".toList := by
  unfold fileName
  rw [String.toList_append, String.toList_append]
  rfl

theorem take_artifactName (s : Suffix) : (artifactName s).toList.take 5 = "gyv-c".toList := by
  unfold artifactName
  rw [String.toList_append]
  rfl

theorem isName_fileName (s : Suffix) : Path.IsName (fileName s) := by
  refine Path.isName_of_take (take_fileName s) (by decide) ?_
  unfold fileName
  rw [String.toList_append, String.toList_append]
  simp [s.slash_notMem_text]

theorem isName_artifactName (s : Suffix) : Path.IsName (artifactName s) := by
  refine Path.isName_of_take (take_artifactName s) (by decide) ?_
  unfold artifactName
  rw [String.toList_append]
  simp [s.slash_notMem_text]

theorem endsIn_filePath (p : Project) (s : Suffix) : Path.EndsIn (filePath p s) (fileName s) :=
  Path.endsIn_join (isName_fileName s) p.directory

theorem endsIn_artifactPath (tempDir : String) (s : Suffix) :
    Path.EndsIn (artifactPath tempDir s) (artifactName s) :=
  Path.endsIn_join (isName_artifactName s) tempDir

theorem fileName_ne_artifactName (s t : Suffix) : fileName s ≠ artifactName t := by
  intro h
  have ht := take_artifactName t
  rw [← h, take_fileName] at ht
  exact absurd ht (by decide)

theorem fileName_ne_resultName (s t : Suffix) : fileName s ≠ Artifact.resultName t := by
  intro h
  have ht := Artifact.take_resultName t
  rw [← h, take_fileName] at ht
  exact absurd ht (by decide)

theorem artifactName_ne_resultName (s t : Suffix) : artifactName s ≠ Artifact.resultName t := by
  intro h
  have ht := Artifact.take_resultName t
  rw [← h, take_artifactName] at ht
  exact absurd ht (by decide)

end Injection
end Graft
