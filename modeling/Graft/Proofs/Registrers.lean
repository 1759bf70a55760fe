-- The references that the analysis finds: a name, a name selected from a
-- name, or a call of one of those. Each opens with a word, and the import
-- that it carries provides that word.
import Graft.Proofs.Steps
import Graft.Proofs.Words
import Graft.Resolve

namespace Graft

/-! ## References -/

/-- The import gives the name, or it gives none and its path ends with it. -/
def Go.Import.Provides (i : Go.Import) (name : String) : Prop :=
  i.name = some name ∨ i.name = none ∧ endsWith i.path name = true

theorem provides_of_providerOf {imports : List Go.Import} {name : String} {i : Go.Import}
    (h : providerOf imports name = some i) : i.Provides name := by
  unfold providerOf at h
  split at h
  · next j hj =>
    cases h
    have hi := List.find?_some hj
    exact .inl (eq_of_beq hi)
  · have hi := List.find?_some h
    rw [Bool.and_eq_true, Option.isNone_iff_eq_none] at hi
    exact .inr hi

namespace Reference

/-- The name that the reference opens with. -/
def lead (r : Reference) : String := String.ofList (Go.firstWord r.value.toList)

/-- What can follow the word that a reference opens with: a selected name, a call. -/
def IsTail (tail : String) : Prop :=
  ∃ field, tail ∈ ["", "()", "." ++ field, "." ++ field ++ "()"]

/-- A reference that can be written into another file: it opens with a word, has one of four
shapes, and the import that it carries provides the word. -/
structure IsPortable (r : Reference) : Prop where
  word : Go.IsWord r.lead.toList
  shape : ∃ tail, IsTail tail ∧ r.value = r.lead ++ tail
  provided : ∀ i, r.package = some i → i.Provides r.lead

theorem isWordPart_head_of_isTail {tail : String} (h : IsTail tail) :
    ∀ c ∈ tail.toList.head?, Text.isWordPart c = false := by
  have hdot : Text.isWordPart '.' = false := by decide
  have hparen : Text.isWordPart '(' = false := by decide
  obtain ⟨field, hf⟩ := h
  intro c hc
  simp only [List.mem_cons, List.not_mem_nil, or_false] at hf
  rcases hf with rfl | rfl | rfl | rfl
  · cases hc
  · cases hc
    exact hparen
  · rw [String.toList_append] at hc
    cases hc
    exact hdot
  · rw [String.toList_append, String.toList_append] at hc
    cases hc
    exact hdot

theorem isPortable_of_value {r : Reference} {name tail : String} (hv : r.value = name ++ tail)
    (hw : Go.IsWord name.toList) (ht : IsTail tail)
    (hp : ∀ i, r.package = some i → i.Provides name) : r.IsPortable := by
  have hlead : r.lead = name := by
    unfold lead
    rw [hv, String.toList_append, Go.firstWord_append hw (isWordPart_head_of_isTail ht),
      String.ofList_toList]
  exact ⟨hlead ▸ hw, ⟨tail, ht, hlead ▸ hv⟩, hlead ▸ hp⟩

theorem value_of_ofName? {imports : List Go.Import} {e : Go.Expr} {r : Reference}
    (h : ofName? imports e = some r) (hw : e.LeadsWithWord) :
    ∃ name, Go.IsWord name.toList ∧ (∀ i, r.package = some i → i.Provides name) ∧
      (r.value = name ∨ ∃ field, r.value = name ++ ("." ++ field)) := by
  unfold ofName? at h
  split at h
  · next name =>
    cases h
    exact ⟨name, hw name rfl, fun i hi => (Option.some_ne_none i hi.symm).elim, .inl rfl⟩
  · next base field =>
    cases h
    exact ⟨base, hw base rfl, fun i hi => provides_of_providerOf hi,
      .inr ⟨field, String.append_assoc ..⟩⟩
  · cases h

theorem isPortable_of_ofName? {imports : List Go.Import} {e : Go.Expr} {r : Reference}
    (h : ofName? imports e = some r) (hw : e.LeadsWithWord) : r.IsPortable := by
  obtain ⟨name, hname, hp, hv | ⟨field, hv⟩⟩ := value_of_ofName? h hw
  · exact isPortable_of_value (by rw [hv, String.append_empty]) hname ⟨"", by simp⟩ hp
  · exact isPortable_of_value hv hname ⟨field, by simp⟩ hp

theorem isPortable_of_ofExpr? {imports : List Go.Import} {e : Go.Expr} {r : Reference}
    (h : ofExpr? imports e = some r) (hw : e.LeadsWithWord) : r.IsPortable := by
  unfold ofExpr? at h
  split at h
  · next callee =>
    obtain ⟨q, hq, rfl⟩ := Option.map_eq_some_iff.mp h
    obtain ⟨name, hname, hp, hv | ⟨field, hv⟩⟩ := value_of_ofName? hq hw
    · exact isPortable_of_value (congrArg (· ++ "()") hv) hname ⟨"", by simp⟩ hp
    · have hcalled : q.value ++ "()" = name ++ ("." ++ field ++ "()") := by
        rw [hv, String.append_assoc]
      exact isPortable_of_value hcalled hname ⟨field, by simp⟩ hp
  · exact isPortable_of_ofName? h hw

end Reference

/-! ## The start call -/

namespace Scan

variable {α : Type} {v : Files.View} {f : Go.Source → List α}

theorem mem_of_advance {directory : String} {paths : List String} {x : α} {rest : Stream α}
    (h : Stream.advance v f directory paths = (some (.ok x), rest)) :
    ∃ path s, readSource v path = .ok s ∧ x ∈ f s := by
  induction paths with
  | nil => cases h
  | cons path more ih =>
    unfold Stream.advance at h
    split at h
    · cases h
    · next s hs =>
      split at h
      · exact ih h
      · next y ys hy =>
        cases h
        exact ⟨path, s, hs, hy ▸ List.mem_cons_self⟩

theorem mem_of_next_start {directory : String} {x : α} {rest : Stream α}
    (h : Stream.next v f (.start directory) = (some (.ok x), rest)) :
    ∃ path s, readSource v path = .ok s ∧ x ∈ f s := by
  unfold Stream.next Stream.start at h
  dsimp only at h
  rw [if_neg Bool.false_ne_true] at h
  split at h
  · cases h
  · exact mem_of_advance h

/-- The first file of a directory gives the first result of a scan, if it has one. -/
theorem next_start_of_first {directory path text : String} {more : List String}
    {s : Go.Source} {x : α} {xs : List α} (hl : sourceFiles v directory = .ok (path :: more))
    (ht : v.readText path = .ok text) (hs : Go.Source.parse path text = .ok s)
    (hx : f s = x :: xs) : (Stream.next v f (.start directory)).1 = some (.ok x) := by
  unfold Stream.next Stream.start
  dsimp only
  rw [if_neg Bool.false_ne_true, hl]
  unfold Stream.advance readSource
  dsimp only
  rw [ht]
  dsimp only
  rw [hs]
  dsimp only
  rw [hx]

end Scan

namespace Resolve

theorem isPortable_of_ofSite {v : Files.View} {q : Scan.Question} {path : String}
    {s : Go.Source} {site : Scan.Site} {r : Reference} (hs : Scan.readSource v path = .ok s)
    (hsite : site ∈ Scan.sitesIn q s) (h : ofSite site = .ok r) : r.IsPortable := by
  obtain ⟨c, hc, rfl⟩ := List.mem_map.mp hsite
  have hcall := (List.mem_filter.mp hc).1
  unfold Scan.readSource at hs
  split at hs
  · cases hs
  · next text htext =>
    split at hs
    · next s' hparse =>
      cases hs
      unfold ofSite at h
      split at h
      · next arg args hargs =>
        have harg : arg ∈ c.args := by
          dsimp only at hargs
          rw [hargs]
          exact List.mem_cons_self
        have hword := Go.Source.leadsWithWord_of_mem_args hparse hcall harg
        split at h
        · next found hfound =>
          cases h
          exact Reference.isPortable_of_ofExpr? hfound hword
        · cases h
      · cases h
    · cases hs

/-- The first start call of the project counts, and another one is only reported. -/
theorem result_routeRegistrer (directory importPath : String) (h : Host) (w : World) :
    ((routeRegistrer directory importPath).perform h w).1 =
      match (Scan.Stream.next w.view (Scan.sitesIn (startsFramework importPath))
        (.start directory)).1 with
      | none => .error (.noStartCall directory)
      | some (.error e) => .error (.scan e)
      | some (.ok site) => ofSite site := by
  unfold routeRegistrer
  rw [Act.perform_bind_of_ok (Act.perform_view h w)]
  dsimp only
  rcases Scan.Stream.next w.view (Scan.sitesIn (startsFramework importPath))
    (.start directory) with ⟨_ | e | site, rest⟩
  · rfl
  · rfl
  · dsimp only
    split
    · rw [Act.perform_bind_of_ok (Act.perform_warn h w _)]
      rfl
    · rfl

/-- Whatever reference the analysis of a project finds is portable. -/
theorem isPortable_of_routeRegistrer {directory importPath : String} {h : Host} {w : World}
    {r : Reference} (hr : ((routeRegistrer directory importPath).perform h w).1 = .ok r) :
    r.IsPortable := by
  rw [result_routeRegistrer] at hr
  rcases hn : Scan.Stream.next w.view (Scan.sitesIn (startsFramework importPath))
    (.start directory) with ⟨_ | e | site, rest⟩
  · rw [hn] at hr
    cases hr
  · rw [hn] at hr
    cases hr
  · rw [hn] at hr
    obtain ⟨path, s, hs, hsite⟩ := Scan.mem_of_next_start hn
    exact isPortable_of_ofSite hs hsite hr

end Resolve
end Graft
