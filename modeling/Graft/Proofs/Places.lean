-- Where paths lead. A path that ends in a name leads to a place with this
-- name, and files that come and go do not change where paths lead: only
-- directories and links do.
import Graft.Files.Store

namespace Graft

/-! ## Names at the end of paths -/

namespace Text

theorem splitOn_ne_nil {α : Type} [BEq α] (sep : α) (xs : List α) : splitOn sep xs ≠ [] := by
  cases xs with
  | nil => exact List.cons_ne_nil _ _
  | cons x xs =>
    unfold splitOn
    split
    · exact List.cons_ne_nil _ _
    · split <;> exact List.cons_ne_nil _ _

variable {α : Type} [BEq α] [LawfulBEq α]

theorem splitOn_of_not_mem {sep : α} {xs : List α} (h : sep ∉ xs) : splitOn sep xs = [xs] := by
  induction xs with
  | nil => rfl
  | cons x xs ih =>
    rw [List.mem_cons, not_or] at h
    have hx : (x == sep) = false := beq_false_of_ne (Ne.symm h.1)
    simp [splitOn, hx, ih h.2]

theorem splitOn_append_cons (sep : α) (xs ys : List α) :
    splitOn sep (xs ++ sep :: ys) = splitOn sep xs ++ splitOn sep ys := by
  induction xs with
  | nil => simp [splitOn]
  | cons x xs ih =>
    rw [List.cons_append, splitOn, splitOn, ih]
    split
    · rfl
    · cases hp : splitOn sep xs with
      | nil => exact absurd hp (splitOn_ne_nil sep xs)
      | cons p ps => rfl

theorem splitOn_append {sep : α} {ys : List α} (h : sep ∉ ys) (xs : List α) :
    ∃ p ps, splitOn sep (xs ++ sep :: ys) = p :: (ps ++ [ys]) := by
  obtain ⟨p, ps, hp⟩ := List.exists_cons_of_ne_nil (splitOn_ne_nil sep xs)
  exact ⟨p, ps, by rw [splitOn_append_cons, splitOn_of_not_mem h, hp, List.cons_append]⟩

end Text

namespace Path

/-- The text can be the name of a file: it is no way to a directory. -/
structure IsName (name : String) : Prop where
  nonempty : name.toList ≠ []
  no_slash : '/' ∉ name.toList
  not_dot : name.toList ≠ ['.']
  not_up : name.toList ≠ ['.', '.']

theorem isAbsolute_of_name {name : String} (h : IsName name) : isAbsolute name = false := by
  unfold isAbsolute
  cases hl : name.toList with
  | nil => rfl
  | cons c cs =>
    have hc : c ≠ '/' := by
      rintro rfl
      exact h.no_slash (by simp [hl])
    simp [hc]

theorem toList_join {name : String} (h : IsName name) (base : String) :
    (join base name).toList = name.toList ∨
      ∃ lead, (join base name).toList = lead ++ '/' :: name.toList := by
  unfold join
  rw [isAbsolute_of_name h]
  simp only [Bool.false_eq_true, if_false]
  split
  · rename_i hb
    simp only [Bool.or_eq_true, beq_iff_eq] at hb
    rcases hb with hb | hb
    · left
      simp [String.isEmpty_iff.mp hb]
    · right
      obtain ⟨lead, hlead⟩ := List.getLast?_eq_some_iff.mp hb
      exact ⟨lead, by simp [hlead]⟩
  · right
    exact ⟨base.toList, by simp⟩

theorem takeWhile_reverse {body : List Char} (h : '/' ∉ body) (more : List Char) :
    (body.reverse ++ more).takeWhile (· != '/') =
      body.reverse ++ more.takeWhile (· != '/') := by
  apply List.takeWhile_append_of_pos
  intro c hc
  simp only [bne_iff_ne, ne_eq]
  rintro rfl
  exact h (List.mem_reverse.mp hc)

theorem lastPart_of_not_mem {body : List Char} (h : '/' ∉ body) : (lastPart body).1 = body := by
  have ht := takeWhile_reverse h []
  simp only [List.append_nil, List.takeWhile_nil] at ht
  simp [lastPart, ht]

theorem lastPart_append {body : List Char} (h : '/' ∉ body) (lead : List Char) :
    (lastPart (lead ++ '/' :: body)).1 = body := by
  have ht := takeWhile_reverse h ('/' :: lead.reverse)
  simp [lastPart, ht]

theorem lastPart_join {name : String} (h : IsName name) (base : String) :
    (lastPart (join base name).toList).1 = name.toList := by
  rcases toList_join h base with hj | ⟨lead, hj⟩ <;> rw [hj]
  · exact lastPart_of_not_mem h.no_slash
  · exact lastPart_append h.no_slash lead

theorem wantsDirectory_join {name : String} (h : IsName name) (base : String) :
    wantsDirectory (join base name) = false := by
  unfold wantsDirectory
  rw [lastPart_join h]
  split
  · rename_i hn
    exact absurd hn h.nonempty
  · simpa using h.not_dot

theorem getLast?_parts_join {name : String} (h : IsName name) (base : String) :
    (parts (join base name)).getLast? = some name := by
  have hkeep : (!name.toList.isEmpty && name.toList != ['.']) = true := by
    simp [h.nonempty, h.not_dot]
  unfold parts
  rcases toList_join h base with hj | ⟨lead, hj⟩ <;> rw [hj]
  · rw [Text.splitOn_of_not_mem h.no_slash]
    simp [hkeep]
  · obtain ⟨p, ps, hp⟩ := Text.splitOn_append h.no_slash lead
    rw [hp, ← List.cons_append, List.filter_append, List.map_append]
    simp [hkeep]

theorem isEmpty_join {name : String} (h : IsName name) (base : String) :
    (join base name).isEmpty = false := by
  rw [Bool.eq_false_iff]
  intro he
  have hl := lastPart_join h base
  rw [String.isEmpty_iff.mp he] at hl
  exact h.nonempty hl.symm

end Path
/-! ## Trees of files -/

namespace Files.Store

variable {s t : Store} {p q : Place} {e : Entry}

theorem ne_root_of_at? (h : s.at? p = none) : p ≠ [] := by
  rintro rfl
  simp [at?] at h

@[simp] theorem at?_put_self (h : p ≠ []) : (s.put p e).at? p = some e := by
  simp [at?, put, h]

theorem at?_put_of_ne (h : q ≠ p) : (s.put p e).at? q = s.at? q := by
  unfold at? put
  split
  · rfl
  · rw [List.find?_cons_of_neg (by simpa using Ne.symm h), List.find?_filter]
    congr 2
    funext x
    by_cases hx : x.1 = q
    · simp [hx, h]
    · simp [hx]

@[simp] theorem at?_erase_self (h : p ≠ []) : (s.erase p).at? p = none := by
  simp [at?, erase, h]

theorem at?_erase_of_ne (h : q ≠ p) : (s.erase p).at? q = s.at? q := by
  unfold at? erase
  split
  · rfl
  · rw [List.find?_filter]
    congr 2
    funext x
    by_cases hx : x.1 = q
    · simp [hx, h]
    · simp [hx]

/-- A file that is put where nothing stood leaves no trace once it is gone. -/
theorem erase_put (h : s.at? p = none) : (s.put p e).erase p = s := by
  have hp : ∀ x ∈ s.entries, (x.1 != p) = true := by
    intro x hx
    simp only [at?, ne_root_of_at? h, if_false, Option.map_eq_none_iff, List.find?_eq_none] at h
    simpa using h x hx
  unfold erase put
  rw [List.filter_cons_of_neg (by simp), List.filter_filter]
  simp only [Bool.and_self]
  rw [List.filter_eq_self.mpr hp]

/-- What a path can go through at a place: a directory or a link. -/
def way (s : Store) (p : Place) : Option Entry :=
  match s.at? p with
  | some (.file _ _) => none
  | found => found

/-- A file can stand at the place, or stands there. -/
def IsOpen (s : Store) (p : Place) : Prop := s.way p = none

theorem isOpen_iff : s.IsOpen p ↔ s.at? p = none ∨ ∃ bytes x, s.at? p = some (.file bytes x) := by
  unfold IsOpen way
  rcases s.at? p with _ | e
  · simp
  · cases e <;> simp

/-- The trees have the same directories and links. -/
def SameWays (s t : Store) : Prop := ∀ p, s.way p = t.way p

theorem SameWays.symm (h : SameWays s t) : SameWays t s := fun p => (h p).symm

theorem sameWays_put (bytes : List UInt8) (x : Bool) (h : s.IsOpen p) :
    SameWays s (s.put p (.file bytes x)) := by
  intro q
  by_cases hq : q = p
  · subst hq
    have hne : q ≠ [] := by
      rintro rfl
      simp [IsOpen, way, at?] at h
    rw [h, way, at?_put_self hne]
  · rw [way, way, at?_put_of_ne hq]

theorem sameWays_erase (h : s.IsOpen p) : SameWays s (s.erase p) := by
  intro q
  by_cases hq : q = p
  · subst hq
    have hne : q ≠ [] := by
      rintro rfl
      simp [IsOpen, way, at?] at h
    rw [h, way, at?_erase_self hne]
  · rw [way, way, at?_erase_of_ne hq]

/-! ## Following names -/

theorem at?_of_way (h : s.way p = some e) : s.at? p = some e := by
  unfold way at h
  split at h
  · cases h
  · exact h

theorem SameWays.link (hw : SameWays s t) {target : String}
    (h : s.at? p = some (.link target)) : t.at? p = some (.link target) := by
  apply at?_of_way
  rw [← hw p]
  simp [way, h]

theorem SameWays.isOpen (hw : SameWays s t) (h : s.IsOpen p) : t.IsOpen p := (hw p).symm.trans h

/-- The last name leads to the place of a file, or to a place where one can stand. -/
theorem walk_last {name : String} (hn : name ≠ "..") {here : Place}
    (h : s.IsOpen (here ++ [name])) (follow : Bool) (links : Nat) :
    s.walk follow links here [name] = .ok (here ++ [name]) := by
  unfold walk
  rw [if_neg hn]
  rcases isOpen_iff.mp h with hp | ⟨bytes, x, hp⟩
  · simp [hp]
  · simp [hp]

/-- A walk leads on to the same place in a tree that has all the ways of the first, where it can
end there too, and whether links are followed or not, unless it ends at one. -/
theorem walk_of_ways {follow follow' : Bool}
    (hways : ∀ {r w}, s.way r = some w → t.way r = some w) (hend : s.IsOpen q → t.IsOpen q)
    (hkeep : follow = true → follow' = true) (hstop : follow' = true → follow = true ∨ s.IsOpen q)
    {links : Nat} {here : Place} {names : List String}
    (h : s.walk follow links here names = .ok q) : t.walk follow' links here names = .ok q := by
  have hdirectory : ∀ {r}, s.at? r = some .directory → t.at? r = some .directory :=
    fun hr => at?_of_way (hways (by simp [way, hr]))
  have hlink : ∀ {r target}, s.at? r = some (.link target) → t.at? r = some (.link target) :=
    fun hr => at?_of_way (hways (by simp [way, hr]))
  fun_induction walk s follow links here names with
  | case1 => rw [walk]; exact h
  | case2 links here rest ih =>
    rw [walk, if_pos rfl]
    exact ih h
  | case3 links here name rest hn hp hrest =>
    cases h
    rw [List.isEmpty_iff.mp hrest, walk_last hn (hend (isOpen_iff.mpr (.inl hp)))]
  | case4 | case7 | case9 => cases h
  | case5 links here name rest hn hp ih =>
    rw [walk, if_neg hn, hdirectory hp]
    exact ih h
  | case6 links here name rest hn bytes x hp hrest =>
    cases h
    rw [List.isEmpty_iff.mp hrest, walk_last hn (hend (isOpen_iff.mpr (.inr ⟨bytes, x, hp⟩)))]
  | case8 links here name rest hn target hp hrest =>
    cases h
    -- The walk ends at a link, so links are followed in neither tree.
    obtain ⟨hlast, hnot⟩ := Bool.and_eq_true_iff.mp hrest
    have hstays : follow' = false := by
      cases follow' with
      | false => rfl
      | true =>
        rcases hstop rfl with hfollow | ho
        · simp [hfollow] at hnot
        · simp [IsOpen, way, hp] at ho
    rw [walk, if_neg hn, hlink hp]
    simp only [hlast, hstays, Bool.not_false, Bool.and_self, if_true]
  | case10 here name rest hn target hp hrest n ih =>
    have hgoes : (rest.isEmpty && !follow') = false := by
      cases hlast : rest.isEmpty with
      | false => rfl
      | true => simp [hkeep (by simpa [hlast] using hrest)]
    rw [walk, if_neg hn, hlink hp]
    simp only [hgoes, if_false, Bool.false_eq_true]
    exact ih h

/-- Trees with the same directories and links lead the same names to the same place. -/
theorem walk_of_sameWays (hw : SameWays s t) {follow : Bool} {links : Nat} {here : Place}
    {names : List String} (h : s.walk follow links here names = .ok q) :
    t.walk follow links here names = .ok q :=
  walk_of_ways (fun hr => (hw _).symm.trans hr) hw.isOpen id .inl h

/-- Where a link at the end is not followed, the place bears the last name. -/
theorem getLast?_of_walk {name : String} (hn : name ≠ "..") {links : Nat} {here : Place}
    {names : List String} (hl : names.getLast? = some name)
    (h : s.walk false links here names = .ok q) : q.getLast? = some name := by
  have hend : ∀ (here : Place) (first : String) (rest : List String), rest.isEmpty = true →
      (first :: rest).getLast? = some name → (here ++ [first]).getLast? = some name := by
    intro here first rest hrest hlast
    rw [List.isEmpty_iff.mp hrest] at hlast
    simpa using hlast
  have hmore : ∀ (first : String) (rest : List String), rest ≠ [] →
      (first :: rest).getLast? = some name → rest.getLast? = some name := by
    intro first rest hrest hlast
    obtain ⟨r, rs, rfl⟩ := List.exists_cons_of_ne_nil hrest
    simpa using hlast
  fun_induction walk s false links here names with
  | case1 => simp at hl
  | case2 links here rest ih =>
    refine ih (hmore _ _ ?_ hl) h
    rintro rfl
    simp at hl
    exact hn hl.symm
  | case3 links here first rest _ hp hrest =>
    cases h
    exact hend _ _ _ hrest hl
  | case4 | case7 | case9 => cases h
  | case5 links here first rest _ hp ih =>
    by_cases hrest : rest = []
    · subst hrest
      rw [walk] at h
      cases h
      exact hend _ _ _ rfl hl
    · exact ih (hmore _ _ hrest hl) h
  | case6 links here first rest _ bytes x hp hrest =>
    cases h
    exact hend _ _ _ hrest hl
  | case8 links here first rest _ target hp hrest =>
    cases h
    exact hend _ _ _ (by simpa using hrest) hl
  | case10 here first rest _ target hp hrest n ih =>
    have hne : rest ≠ [] := by simpa using hrest
    refine ih ?_ h
    rw [List.getLast?_append, hmore _ _ hne hl]
    rfl

/-- Once a place is empty, a path that led to it leads to no other place. -/
theorem eq_of_walk_erase (hne : p ≠ []) {follow : Bool} {links : Nat} {here : Place}
    {names : List String} (h : s.walk false links here names = .ok p)
    (hq : (s.erase p).walk follow links here names = .ok q) : q = p := by
  have hgone : ∀ (first : String) (rest : List String) (here : Place) (links : Nat),
      first ≠ ".." → here ++ [first] = p →
      (s.erase p).walk follow links here (first :: rest) = .ok q → q = p := by
    intro first rest here links hf hp hw
    rw [walk, if_neg hf, hp, at?_erase_self hne] at hw
    by_cases hrest : rest.isEmpty = true
    · simp only [hrest, if_true] at hw
      cases hw
      rfl
    · simp only [hrest, if_false, Bool.false_eq_true] at hw
      cases hw
  fun_induction walk s false links here names with
  | case1 =>
    rw [walk] at hq
    cases h
    cases hq
    rfl
  | case2 links here rest ih =>
    rw [walk, if_pos rfl] at hq
    exact ih h hq
  | case3 links here first rest hf hp hrest =>
    cases h
    exact hgone _ _ _ _ hf rfl hq
  | case4 | case7 | case9 => cases h
  | case5 links here first rest hf hp ih =>
    by_cases hhere : here ++ [first] = p
    · exact hgone _ _ _ _ hf hhere hq
    · rw [walk, if_neg hf, at?_erase_of_ne hhere, hp] at hq
      exact ih h hq
  | case6 links here first rest hf bytes x hp hrest =>
    cases h
    exact hgone _ _ _ _ hf rfl hq
  | case8 links here first rest hf target hp hrest =>
    cases h
    exact hgone _ _ _ _ hf rfl hq
  | case10 here first rest hf target hp hrest n ih =>
    by_cases hhere : here ++ [first] = p
    · exact hgone _ _ _ _ hf hhere hq
    · have hne' : rest ≠ [] := by simpa using hrest
      rw [walk, if_neg hf, at?_erase_of_ne hhere, hp] at hq
      simp only [List.isEmpty_eq_false_iff.mpr hne', Bool.false_and, Bool.false_eq_true,
        if_false] at hq
      exact ih h hq

end Files.Store
end Graft
