-- The names on a path. However a path is written, it says whether it starts at
-- the root and which names it goes through. Joining paths puts their names one
-- behind the other, and going up drops the last name, until none is left.
import Graft.Proofs.Places

namespace Graft

namespace Path

/-! ## The names of a path -/

/-- What stands between slashes and is a name: it is neither empty nor a dot. -/
def isPart (piece : List Char) : Bool := !piece.isEmpty && piece != ['.']

def names (path : List Char) : List (List Char) := (Text.splitOn '/' path).filter isPart

theorem parts_eq (path : String) : parts path = (names path.toList).map String.ofList := rfl

theorem names_append_cons (xs ys : List Char) : names (xs ++ '/' :: ys) = names xs ++ names ys := by
  unfold names
  rw [Text.splitOn_append_cons, List.filter_append]

theorem names_of_not_mem {piece : List Char} (h : '/' ∉ piece) :
    names piece = if isPart piece then [piece] else [] := by
  unfold names
  rw [Text.splitOn_of_not_mem h, List.filter_cons]
  rfl

@[simp] theorem names_slash (cs : List Char) : names ('/' :: cs) = names cs :=
  names_append_cons [] cs

@[simp] theorem names_dot_slash (cs : List Char) : names ('.' :: '/' :: cs) = names cs :=
  names_append_cons ['.'] cs

/-- The text before the last part and the slash in front of it. -/
def beforeLast (path : List Char) : List Char :=
  path.take (path.length - (lastPart (path.drop (leadLength path))).2)

/-- A text without a slash is its own last part. Any other text is cut at its last slash. -/
theorem lastPart_cases (body : List Char) :
    ('/' ∉ body ∧ lastPart body = (body, body.length)) ∨
      ∃ front part, body = front ++ '/' :: part ∧ '/' ∉ part ∧
        lastPart body = (part, part.length + 1) := by
  by_cases hs : '/' ∈ body
  · right
    obtain ⟨back, front, hcut, hback⟩ := List.eq_append_cons_of_mem (List.mem_reverse.mpr hs)
    have hbody : body = front.reverse ++ '/' :: back.reverse := by
      rw [← List.reverse_reverse body, hcut]
      simp
    have hpart : '/' ∉ back.reverse := by simpa using hback
    refine ⟨front.reverse, back.reverse, hbody, hpart, ?_⟩
    have hlast := lastPart_append hpart front.reverse
    rw [← hbody] at hlast
    refine Prod.ext hlast ?_
    have hsecond : (lastPart body).2 = (lastPart body).1.length + 1 := by
      unfold lastPart
      simp [hs]
    rw [hsecond, hlast]
  · left
    have hlast := lastPart_of_not_mem hs
    refine ⟨hs, Prod.ext hlast ?_⟩
    have hsecond : (lastPart body).2 = (lastPart body).1.length := by
      unfold lastPart
      simp [hs]
    rw [hsecond, hlast]

/-- The lead of a path is its root slash or its dot, and all else is the body. -/
theorem lead_cases (path : List Char) :
    (∃ body, path = '/' :: body ∧ leadLength path = 1) ∨
      (∃ body, path = '.' :: body ∧ leadLength path = 1 ∧ (body = [] ∨ body.head? = some '/')) ∨
      (path.head? ≠ some '/' ∧ leadLength path = 0) := by
  unfold leadLength
  split
  · exact .inl ⟨_, rfl, rfl⟩
  · exact .inr (.inl ⟨_, rfl, rfl, .inl rfl⟩)
  · exact .inr (.inl ⟨_, rfl, rfl, .inr rfl⟩)
  · rename_i hroot hdot hstep
    refine .inr (.inr ⟨?_, rfl⟩)
    cases path with
    | nil => simp
    | cons c cs =>
      intro hc
      exact hroot cs (by rw [Option.some.inj hc])

/-- A path that starts at the root has its slash in the lead. -/
theorem leadLength_of_slash {path : List Char} (h : path.head? = some '/') :
    leadLength path = 1 := by
  rcases lead_cases path with ⟨body, -, hlead⟩ | ⟨body, rfl, hlead, -⟩ | ⟨hne, -⟩
  · exact hlead
  · exact hlead
  · exact absurd h hne

/-- What is cut off at the end is the last part, and the root stays. -/
theorem beforeLast_spec {path : List Char} (hb : path.drop (leadLength path) ≠ []) :
    names path =
        names (beforeLast path) ++ names (lastPart (path.drop (leadLength path))).1 ∧
      '/' ∉ (lastPart (path.drop (leadLength path))).1 ∧
      ((beforeLast path).head? = some '/' ↔ path.head? = some '/') := by
  unfold beforeLast
  rcases lastPart_cases (path.drop (leadLength path)) with ⟨hs, hlast⟩ | ⟨front, part, hcut, hs, hlast⟩
  · rw [hlast]
    dsimp only
    rcases lead_cases path with ⟨rest, rfl, hlead⟩ | ⟨rest, rfl, hlead, hrest⟩ | ⟨hne, hlead⟩
    · rw [hlead] at hs ⊢
      refine ⟨?_, hs, ?_⟩
      · simp [@names_of_not_mem [], isPart]
      · simp
    · rw [hlead] at hb hs
      rcases hrest with rfl | hrest
      · exact absurd rfl hb
      · exact absurd (List.mem_of_mem_head? hrest) hs
    · rw [hlead] at hs ⊢
      refine ⟨?_, hs, ?_⟩
      · simp [@names_of_not_mem [], isPart]
      · simpa using hne
  · rw [hlast]
    dsimp only
    obtain ⟨start, hstart, hpath⟩ : ∃ start, start = path.take (leadLength path) ++ front ∧
        path = start ++ '/' :: part :=
      ⟨_, rfl, by rw [List.append_assoc, ← hcut, List.take_append_drop]⟩
    have htake : path.take (path.length - (part.length + 1)) = start := by
      rw [hpath]
      simp
    refine ⟨?_, hs, ?_⟩
    · rw [htake, ← names_append_cons, ← hpath]
    · rw [htake]
      cases start with
      | nil =>
        have hlead := leadLength_of_slash (show path.head? = some '/' by rw [hpath]; rfl)
        rw [hlead, hpath] at hstart
        cases hstart
      | cons c cs =>
        rw [hpath]
        rfl

/-! ## Going up -/

/-- A root, a dot or nothing, or a name stands at the end of the path. -/
def IsTrimmed (path : List Char) : Prop :=
  path.drop (leadLength path) = [] ∨ isPart (lastPart (path.drop (leadLength path))).1 = true

theorem trimTail_spec (path : List Char) :
    names (trimTail path) = names path ∧
      ((trimTail path).head? = some '/' ↔ path.head? = some '/') ∧ IsTrimmed (trimTail path) := by
  fun_induction trimTail path with
  | case1 path lead body last h ih =>
    obtain ⟨hn, hs, hr⟩ := beforeLast_spec h.1
    have hdropped : names last.1 = [] := by
      rcases h.2 with hlast | hlast
      · rw [hlast]
        rfl
      · rw [hlast]
        rfl
    obtain ⟨hn', hr', ht⟩ := ih
    refine ⟨?_, hr'.trans hr, ht⟩
    rw [hn]
    exact hn'.trans ((List.append_nil _).symm.trans (congrArg _ hdropped.symm))
  | case2 path lead body last h =>
    refine ⟨rfl, Iff.rfl, ?_⟩
    by_cases hb : body = []
    · exact .inl hb
    · right
      have hlast : ¬ (last.1 = [] ∨ last.1 = ['.']) := fun hlast => h ⟨hb, hlast⟩
      rw [not_or] at hlast
      simpa [isPart] using hlast

/-- A path has nothing above it, or it is a directory from where paths start, or the path
above it has all names but the last. -/
theorem parent?_cases (path : String) :
    (parts path = [] ∧ (parent? path = none ∨ parent? path = some "" ∧ isAbsolute path = false)) ∨
      ∃ up, parent? path = some up ∧ isAbsolute up = isAbsolute path ∧ parts path ≠ [] ∧
        parts up = (parts path).dropLast := by
  obtain ⟨hn, hr, ht⟩ := trimTail_spec path.toList
  unfold parent?
  dsimp only
  generalize trimTail path.toList = trimmed at hn hr ht ⊢
  rw [parts_eq, ← hn]
  by_cases hb : trimmed.drop (leadLength trimmed) = []
  · left
    rw [hb]
    rcases lead_cases trimmed with ⟨body, rfl, hlead⟩ | ⟨body, rfl, hlead, -⟩ | ⟨-, hlead⟩
    · rw [hlead] at hb
      obtain rfl : body = [] := hb
      exact ⟨rfl, .inl rfl⟩
    · rw [hlead] at hb
      obtain rfl : body = [] := hb
      refine ⟨rfl, .inr ⟨rfl, ?_⟩⟩
      unfold isAbsolute
      rw [beq_eq_false_iff_ne]
      exact fun hslash => absurd (hr.mpr hslash) (by simp)
    · rw [hlead] at hb
      obtain rfl : trimmed = [] := hb
      exact ⟨rfl, .inl rfl⟩
  · right
    obtain ⟨hcut, hs, hroot⟩ := beforeLast_spec hb
    have hpart : isPart (lastPart (trimmed.drop (leadLength trimmed))).1 = true :=
      ht.resolve_left hb
    rw [names_of_not_mem hs, if_pos hpart] at hcut
    obtain ⟨hn', hr', -⟩ := trimTail_spec (beforeLast trimmed)
    rw [if_neg (by simpa using hb)]
    refine ⟨_, rfl, ?_, ?_, ?_⟩
    · unfold isAbsolute
      rw [String.toList_ofList, Bool.eq_iff_iff, beq_iff_eq, beq_iff_eq]
      exact hr'.trans (hroot.trans hr)
    · rw [hcut]
      simp
    · rw [parts_eq, String.toList_ofList, hcut, List.map_append]
      rw [show names (trimTail (trimmed.take _)) = names (beforeLast trimmed) from hn']
      simp

theorem ancestors_empty (n : Nat) : ancestors (n + 1) "" = [""] := by
  have hnone : parent? "" = none := by
    unfold parent?
    rw [show "".toList = [] from rfl, trimTail]
    simp [leadLength]
  unfold ancestors
  rw [hnone]

/-- The names, without the last, without the last two, and so on until none is left. -/
def upwards (names : List String) : List (List String) :=
  (List.range (names.length + 1)).map fun n => names.take (names.length - n)

@[simp] theorem upwards_nil : upwards [] = [[]] := rfl

theorem upwards_of_ne_nil {names : List String} (h : names ≠ []) :
    upwards names = names :: upwards names.dropLast := by
  have hpos := List.length_pos_iff.mpr h
  unfold upwards
  rw [List.range_succ_eq_map, List.map_cons, List.map_map, Nat.sub_zero, List.take_length,
    List.length_dropLast, Nat.sub_add_cancel hpos]
  congr 1
  apply List.map_congr_left
  intro n hn
  rw [List.mem_range] at hn
  simp only [Function.comp_apply]
  rw [List.dropLast_eq_take, List.take_take]
  congr 1
  omega

/-- The first path upwards that gives something is the first number of names that does. -/
theorem findSome?_ancestors {β : Type} (f : Bool → List String → Option β) (n : Nat)
    (path : String) :
    (ancestors n path).findSome? (fun dir => f (isAbsolute dir) (parts dir)) =
      ((upwards (parts path)).take n).findSome? (f (isAbsolute path)) := by
  induction n generalizing path with
  | zero => rfl
  | succ n ih =>
    unfold ancestors
    rw [List.findSome?_cons]
    rcases parent?_cases path with ⟨hnames, hup | ⟨hup, habsolute⟩⟩ | ⟨up, hup, habsolute, hne, hparts⟩
    · rw [hup, hnames]
      cases hf : f (isAbsolute path) [] <;> simp [hf]
    · rw [hup, hnames, habsolute]
      have hagain : (ancestors n "").findSome? (fun dir => f (isAbsolute dir) (parts dir)) =
          if n = 0 then none else f false [] := by
        cases n with
        | zero => rfl
        | succ n =>
          rw [ancestors_empty]
          cases hf : f false [] <;> simp [isAbsolute, parts, Text.splitOn, hf]
      dsimp only
      rw [hagain]
      cases hf : f false [] <;> simp [hf]
    · rw [hup]
      dsimp only
      rw [ih up, hparts, habsolute, upwards_of_ne_nil hne, List.take_succ_cons,
        List.findSome?_cons]

/-! ## Joining -/

theorem toList_join_of_relative {path : String} (h : isAbsolute path = false) (base : String) :
    base = "" ∧ join base path = path ∨
      ∃ front, (join base path).toList = front ++ '/' :: path.toList ∧
        (base.toList = front ++ ['/'] ∨ base.toList = front ∧ front ≠ []) := by
  unfold join
  rw [h]
  simp only [Bool.false_eq_true, if_false]
  by_cases hempty : base = ""
  · left
    subst hempty
    exact ⟨rfl, by simp⟩
  · right
    have hisEmpty : base.isEmpty = false := by simpa [String.isEmpty_iff] using hempty
    rw [hisEmpty, Bool.false_or]
    split
    · rename_i hlast
      obtain ⟨front, hfront⟩ := List.getLast?_eq_some_iff.mp (beq_iff_eq.mp hlast)
      exact ⟨front, by simp [hfront], .inl hfront⟩
    · refine ⟨base.toList, by simp, .inr ⟨rfl, ?_⟩⟩
      simpa using hempty

theorem isAbsolute_join {path : String} (h : isAbsolute path = false) (base : String) :
    isAbsolute (join base path) = isAbsolute base := by
  rcases toList_join_of_relative h base with ⟨rfl, hjoin⟩ | ⟨front, hjoin, hbase | ⟨hbase, hne⟩⟩
  · rw [hjoin, h]
    rfl
  · unfold isAbsolute
    rw [hjoin, hbase]
    cases front <;> rfl
  · unfold isAbsolute
    rw [hjoin, hbase]
    cases front with
    | nil => exact absurd rfl hne
    | cons c cs => rfl

theorem parts_join {path : String} (h : isAbsolute path = false) (base : String) :
    parts (join base path) = parts base ++ parts path := by
  rw [parts_eq, parts_eq, parts_eq, ← List.map_append]
  rcases toList_join_of_relative h base with ⟨rfl, hjoin⟩ | ⟨front, hjoin, hbase | ⟨hbase, -⟩⟩
  · rw [hjoin]
    rfl
  · rw [hjoin, hbase, names_append_cons, names_append_cons]
    simp [names, Text.splitOn, isPart]
  · rw [hjoin, hbase, names_append_cons]

/-- Behind the lead, a path that ends in a name still ends in it. -/
theorem lastPart_drop_join {name : String} (h : IsName name) (base : String) :
    (lastPart ((join base name).toList.drop (leadLength (join base name).toList))).1 =
      name.toList := by
  rcases toList_join h base with hj | ⟨front, hj⟩ <;> rw [hj]
  · rcases lead_cases name.toList with ⟨body, hname, -⟩ | ⟨body, hname, -, hbody⟩ | ⟨-, hlead⟩
    · exact absurd (by simp [hname]) h.no_slash
    · rcases hbody with rfl | hbody
      · exact absurd hname h.not_dot
      · exact absurd (by simp [hname, List.mem_of_mem_head? hbody]) h.no_slash
    · rw [hlead]
      exact lastPart_of_not_mem h.no_slash
  · cases front with
    | nil =>
      rw [leadLength_of_slash rfl]
      exact lastPart_of_not_mem h.no_slash
    | cons c cs =>
      rcases lead_cases (c :: cs ++ '/' :: name.toList) with ⟨-, -, hlead⟩ | ⟨-, -, hlead, -⟩ |
        ⟨-, hlead⟩
      · rw [hlead]
        exact lastPart_append h.no_slash cs
      · rw [hlead]
        exact lastPart_append h.no_slash cs
      · rw [hlead]
        exact lastPart_append h.no_slash (c :: cs)

theorem fileName?_join {name : String} (h : IsName name) (base : String) :
    fileName? (join base name) = some name := by
  have hlast := lastPart_drop_join h base
  have hkept : trimTail (join base name).toList = (join base name).toList := by
    rw [trimTail, dif_neg]
    rintro ⟨-, hend | hend⟩
    · exact h.nonempty (hlast.symm.trans hend)
    · exact h.not_dot (hlast.symm.trans hend)
  unfold fileName?
  dsimp only
  rw [hkept, hlast]
  simp [h.nonempty, h.not_up]

end Path
end Graft
