-- Which import a name stands for. An import that gives the name itself counts
-- before all others. Where none does, the ends of the paths are compared
-- letter by letter: an import whose path has the name as its last part is
-- found unless another one in front of it merely ends with the same letters.
import Graft.Proofs.Registrers

namespace Graft

/-! ## The first that fits -/

section First

variable {α : Type} {P Q : α → Prop} {xs : List α} {x y : α}

/-- The first in a list that fits. -/
def IsFirst (P : α → Prop) (xs : List α) (x : α) : Prop :=
  ∃ before after, xs = before ++ x :: after ∧ P x ∧ ∀ y ∈ before, ¬ P y

theorem isFirst_iff_find? {p : α → Bool} (h : ∀ x, p x = true ↔ P x) :
    IsFirst P xs x ↔ xs.find? p = some x := by
  rw [List.find?_eq_some_iff_append]
  constructor
  · rintro ⟨before, after, rfl, hx, hbefore⟩
    refine ⟨(h x).mpr hx, before, after, rfl, fun y hy => ?_⟩
    rw [Bool.not_eq_true', ← Bool.not_eq_true, h]
    exact hbefore y hy
  · rintro ⟨hx, before, after, rfl, hbefore⟩
    refine ⟨before, after, rfl, (h x).mp hx, fun y hy => ?_⟩
    rw [← h, Bool.not_eq_true]
    exact (Bool.not_eq_true' _).mp (hbefore y hy)

theorem IsFirst.fits (h : IsFirst P xs x) : P x := by
  obtain ⟨_, _, _, hx, _⟩ := h
  exact hx

theorem IsFirst.mem (h : IsFirst P xs x) : x ∈ xs := by
  obtain ⟨before, after, rfl, _, _⟩ := h
  exact List.mem_append_right _ List.mem_cons_self

/-- Where something fits, something is the first that does. -/
theorem exists_isFirst (h : ∃ x ∈ xs, P x) : ∃ x, IsFirst P xs x := by
  induction xs with
  | nil =>
    obtain ⟨x, hx, _⟩ := h
    cases hx
  | cons y ys ih =>
    by_cases hy : P y
    · exact ⟨y, [], ys, rfl, hy, fun _ hz => nomatch hz⟩
    · have hrest : ∃ x ∈ ys, P x := by
        obtain ⟨x, hx, hp⟩ := h
        rcases List.mem_cons.mp hx with rfl | hx
        · exact absurd hp hy
        · exact ⟨x, hx, hp⟩
      obtain ⟨x, before, after, rfl, hp, hbefore⟩ := ih hrest
      refine ⟨x, y :: before, after, rfl, hp, fun z hz => ?_⟩
      rcases List.mem_cons.mp hz with rfl | hz
      · exact hy
      · exact hbefore z hz

/-- Only what fits counts: another property that holds of the same has the same first. -/
theorem isFirst_congr (h : ∀ x ∈ xs, P x ↔ Q x) : IsFirst P xs x ↔ IsFirst Q xs x := by
  constructor
  · rintro ⟨before, after, rfl, hx, hbefore⟩
    exact ⟨before, after, rfl, (h x (by simp)).mp hx,
      fun y hy hq => hbefore y hy ((h y (by simp [hy])).mpr hq)⟩
  · rintro ⟨before, after, rfl, hx, hbefore⟩
    exact ⟨before, after, rfl, (h x (by simp)).mpr hx,
      fun y hy hp => hbefore y hy ((h y (by simp [hy])).mp hp)⟩

end First

/-! ## Names and paths -/

namespace Go.Import

/-- The import gives no name, and the name is the last part of its path. -/
def IsCalledLast (i : Import) (name : String) : Prop := i.name = none ∧ i.lastSegment = name

/-- The import gives no name, and its path ends with the letters of the name. -/
def EndsIn (i : Import) (name : String) : Prop := i.name = none ∧ endsWith i.path name = true

theorem endsWith_lastSegment (i : Import) : endsWith i.path i.lastSegment = true := by
  unfold endsWith lastSegment
  rw [String.toList_ofList, List.isSuffixOf_iff_suffix, ← List.reverse_prefix,
    List.reverse_reverse]
  exact List.takeWhile_prefix _

theorem IsCalledLast.endsIn {i : Import} {name : String} (h : i.IsCalledLast name) :
    i.EndsIn name :=
  ⟨h.1, h.2 ▸ i.endsWith_lastSegment⟩

end Go.Import

open Go

variable {imports : List Import} {name : String} {i : Import}

theorem providerOf_of_given (h : IsFirst (fun i => i.name = some name) imports i) :
    providerOf imports name = some i := by
  unfold providerOf
  rw [(isFirst_iff_find? fun _ => beq_iff_eq).mp h]

/-- Where no import gives the name, the letters of the paths decide. -/
theorem providerOf_of_not_given (h : ∀ i ∈ imports, i.name ≠ some name) :
    providerOf imports name = some i ↔ IsFirst (·.EndsIn name) imports i := by
  have hnone : imports.find? (fun i => i.name == some name) = none := by
    rw [List.find?_eq_none]
    intro i hi hname
    exact h i hi (eq_of_beq hname)
  unfold providerOf
  rw [hnone]
  refine (isFirst_iff_find? fun j => ?_).symm
  rw [Bool.and_eq_true, Option.isNone_iff_eq_none]
  exact Iff.rfl

/-- An import that is called by the last part of its path is found if no other one in front of
it ends with the same letters. -/
theorem providerOf_calledLast {before after : List Import}
    (h : ∀ j ∈ before ++ i :: after, j.name ≠ some name) (hi : i.IsCalledLast name)
    (hbefore : ∀ j ∈ before, ¬ j.IsCalledLast name) :
    providerOf (before ++ i :: after) name = some i ↔ ∀ j ∈ before, ¬ j.EndsIn name := by
  rw [providerOf_of_not_given h]
  constructor
  · intro hfirst j hj hends
    obtain ⟨k, before', after', hsplit, hk, hbefore'⟩ :=
      exists_isFirst (P := fun k => k.EndsIn name) ⟨j, hj, hends⟩
    have hfirst' : IsFirst (·.EndsIn name) (before ++ i :: after) k := by
      refine ⟨before', after' ++ i :: after, ?_, hk, hbefore'⟩
      rw [hsplit, List.append_assoc, List.cons_append]
    have hsame : i = k := by
      rw [← providerOf_of_not_given h] at hfirst hfirst'
      exact Option.some.inj (hfirst.symm.trans hfirst')
    exact hbefore i (hsame ▸ hsplit ▸ by simp) hi
  · intro hnone
    exact ⟨before, after, rfl, hi.endsIn, hnone⟩

/-- An import that gives the name comes first. Without one, the first import that gives none and
whose path ends with the letters of the name is found; it is the first whose last part is the
name exactly if none in front of that one merely ends with the letters. So where no path merely
ends with the letters, the import that is found is the first one that provides the name. -/
theorem a_name_is_provided_by_itself_or_by_its_letters (imports : List Import) (name : String) :
    (∀ i, IsFirst (fun i => i.name = some name) imports i → providerOf imports name = some i) ∧
    ((∀ i ∈ imports, i.name ≠ some name) →
      (∀ i, providerOf imports name = some i ↔ IsFirst (·.EndsIn name) imports i) ∧
      ∀ before i after, imports = before ++ i :: after → i.IsCalledLast name →
        (∀ j ∈ before, ¬ j.IsCalledLast name) →
        (providerOf imports name = some i ↔ ∀ j ∈ before, ¬ j.EndsIn name)) ∧
    ((∀ i ∈ imports, i.EndsIn name → i.IsCalledLast name) →
      ∀ i, providerOf imports name = some i ↔
        IsFirst (fun i => i.name = some name) imports i ∨
          (∀ j ∈ imports, j.name ≠ some name) ∧ IsFirst (·.IsCalledLast name) imports i) := by
  refine ⟨fun i => providerOf_of_given, fun h => ⟨fun i => providerOf_of_not_given h, ?_⟩, ?_⟩
  · rintro before i after rfl hi hbefore
    exact providerOf_calledLast h hi hbefore
  · intro h i
    by_cases hgiven : ∃ j ∈ imports, j.name = some name
    · obtain ⟨j, hj⟩ := exists_isFirst hgiven
      rw [providerOf_of_given hj]
      constructor
      · intro hi
        exact .inl (Option.some.inj hi ▸ hj)
      · rintro (hi | ⟨hnone, _⟩)
        · rw [← providerOf_of_given hj, providerOf_of_given hi]
        · exact absurd hj.fits (hnone j hj.mem)
    · have hnone : ∀ j ∈ imports, j.name ≠ some name := fun j hj hname => hgiven ⟨j, hj, hname⟩
      have hsame : ∀ j ∈ imports, j.EndsIn name ↔ j.IsCalledLast name :=
        fun j hj => ⟨h j hj, Import.IsCalledLast.endsIn⟩
      rw [providerOf_of_not_given hnone, isFirst_congr hsame]
      constructor
      · exact fun hi => .inr ⟨hnone, hi⟩
      · rintro (hi | ⟨_, hi⟩)
        · exact absurd hi.fits (hnone i hi.mem)
        · exact hi

namespace Sample

/-- Two packages of the shop whose paths end with the same letters. -/
def routePackages : List Import := [⟨none, "shop/subroute"⟩, ⟨none, "shop/route"⟩]

/-- The second package is called by the last part of its path, and the first one, which is not,
is taken for it. -/
theorem a_path_that_merely_ends_with_the_name_is_taken :
    (∀ i ∈ routePackages, i.name ≠ some "route") ∧
      IsFirst (·.IsCalledLast "route") routePackages ⟨none, "shop/route"⟩ ∧
      providerOf routePackages "route" = some ⟨none, "shop/subroute"⟩ ∧
      ¬ Import.IsCalledLast ⟨none, "shop/subroute"⟩ "route" := by
  have hlast : ¬ Import.IsCalledLast ⟨none, "shop/subroute"⟩ "route" := by
    rintro ⟨-, h⟩
    exact absurd h (by decide)
  refine ⟨by decide, ⟨[⟨none, "shop/subroute"⟩], [], rfl, ⟨rfl, by decide⟩, ?_⟩, by decide, hlast⟩
  rintro i hi
  rwa [List.mem_singleton.mp hi]

/-- An import with a name of its own, one that is called by the last part of its path, and a
name that none of them provides. -/
theorem the_shop_imports_its_routes :
    providerOf [⟨none, "shop/http/route"⟩, ⟨some "r", "shop/http/router"⟩] "r" =
        some ⟨some "r", "shop/http/router"⟩ ∧
      providerOf [⟨none, "shop/http/route"⟩, ⟨some "r", "shop/http/router"⟩] "route" =
        some ⟨none, "shop/http/route"⟩ := by
  constructor
  · exact (a_name_is_provided_by_itself_or_by_its_letters _ _).1 _
      ⟨[⟨none, "shop/http/route"⟩], [], rfl, rfl, by simp⟩
  · refine ((a_name_is_provided_by_itself_or_by_its_letters _ _).2.1 (by decide)).2 [] _ _ rfl
      ⟨rfl, by decide⟩ (fun _ h => nomatch h) |>.mpr fun _ h => nomatch h

end Sample
end Graft
