-- The choice of a stub. The table is gone through once, and what is kept has the greatest version
-- that is not above the wanted one and is the first of that version. So the order of the table
-- matters between stubs of the same version only, and a later version never gets an older stub.
import Graft.Proofs.Steps
import Graft.Proofs.VersionOrder
import Graft.Stub.Catalog

namespace Graft.Stub

/-! ## Stubs that are named after versions -/

/-- The name is that of a file which lies directly in the category and is not its default. -/
def LiesIn (category name file : String) : Prop :=
  name = category ++ "/" ++ file ∧ '/' ∉ file.toList ∧ file ≠ "default.go.stub"

/-- The stub of this name lies directly in the category and is named after the version. -/
def NamedAfter (category name : String) (v : Version) : Prop :=
  ∃ file, LiesIn category name file ∧ versionOf file = .ok v

theorem within?_eq_some_iff {category name : String} {cs : List Char} :
    within? category name = some cs ↔ name = category ++ "/" ++ String.ofList cs := by
  have hname : name = category ++ "/" ++ String.ofList cs ↔
      name.toList = (category.toList ++ ['/']) ++ cs := by
    simp only [← String.toList_inj, String.toList_append, String.toList_ofList]
    exact Iff.rfl
  rw [hname, within?]
  split
  · rename_i hlead
    obtain ⟨rest, hrest⟩ := List.isPrefixOf_iff_prefix.mp hlead
    rw [← hrest, List.drop_left, Option.some.injEq, List.append_right_inj]
  · rename_i hlead
    refine ⟨fun h => (Option.some_ne_none _ h.symm).elim, fun h => absurd ?_ hlead⟩
    exact List.isPrefixOf_iff_prefix.mpr ⟨cs, h.symm⟩

theorem versionedFile?_eq_some_iff {category name file : String} :
    versionedFile? category name = some file ↔ LiesIn category name file := by
  have hdefault : ∀ cs, cs = defaultFile ↔ String.ofList cs = "default.go.stub" := fun cs => by
    rw [← String.toList_inj, String.toList_ofList]
    exact Iff.rfl
  unfold versionedFile? LiesIn
  constructor
  · intro h
    split at h
    · rename_i cs hcs
      split at h
      · cases h
      · rename_i hplain
        cases h
        rw [Bool.or_eq_true, decide_eq_true_iff, not_or, List.contains_iff_mem] at hplain
        rw [String.toList_ofList]
        exact ⟨within?_eq_some_iff.mp hcs, hplain.2, fun h => hplain.1 ((hdefault cs).mpr h)⟩
    · cases h
  · rintro ⟨hname, hslash, hfile⟩
    rw [← String.ofList_toList (s := file)] at hname hfile
    rw [within?_eq_some_iff.mpr hname]
    have hplain : ¬ (decide (file.toList = defaultFile) || file.toList.contains '/') = true := by
      rw [Bool.or_eq_true, decide_eq_true_iff, not_or, List.contains_iff_mem]
      exact ⟨fun h => hfile ((hdefault _).mp h), hslash⟩
    dsimp only
    rw [if_neg hplain, String.ofList_toList]

/-- The version that the stub of this name in the category is named after, if it is. -/
def version? (category name : String) : Option Version :=
  (versionedFile? category name).bind fun file => (versionOf file).toOption

theorem version?_eq_some_iff {category name : String} {v : Version} :
    version? category name = some v ↔ NamedAfter category name v := by
  rw [version?, Option.bind_eq_some_iff]
  exact exists_congr fun file => and_congr versionedFile?_eq_some_iff
    ⟨eq_ok_of_toOption, fun h => congrArg Except.toOption h⟩

/-- A stub is named after one version at most. -/
theorem NamedAfter.version_unique {category name : String} {u v : Version}
    (hu : NamedAfter category name u) (hv : NamedAfter category name v) : u = v :=
  Option.some.inj ((version?_eq_some_iff.mpr hu).symm.trans (version?_eq_some_iff.mpr hv))

theorem not_namedAfter_default {category : String} {v : Version} :
    ¬ NamedAfter category (defaultName category) v := by
  rintro ⟨file, ⟨hname, -, hfile⟩, -⟩
  have hdefault : defaultName category = category ++ "/" ++ "default.go.stub" := by
    rw [defaultName, String.append_assoc]
    rfl
  exact hfile ((String.append_right_inj _).mp (hname.symm.trans hdefault))

/-! ## The best stub -/

section

variable {names seen : List String} {category name n : String} {wanted u v : Version}

/-- Among the names this is the stub to take: it has the greatest version that is not above the
wanted one, and those of the same version stand behind it. -/
structure Leads (names : List String) (category : String) (wanted : Version) (name : String)
    (v : Version) : Prop where
  named : NamedAfter category name v
  le : v ≤ wanted
  split : ∃ before after, names = before ++ name :: after ∧
    (∀ n ∈ before, ∀ u, NamedAfter category n u → u ≤ wanted → u < v) ∧
    ∀ n ∈ after, ∀ u, NamedAfter category n u → u ≤ wanted → u ≤ v

/-- Each stub of the category that is named after a version is above the wanted one. -/
def Lacks (names : List String) (category : String) (wanted : Version) : Prop :=
  ∀ n ∈ names, ∀ u, NamedAfter category n u → wanted < u

theorem Leads.mem (h : Leads names category wanted name v) : name ∈ names := by
  obtain ⟨before, after, rfl, -⟩ := h.split
  exact List.mem_append_cons_self

theorem Leads.le_of_mem (h : Leads names category wanted name v) (hn : n ∈ names)
    (hu : NamedAfter category n u) (hle : u ≤ wanted) : u ≤ v := by
  obtain ⟨before, after, rfl, hbefore, hafter⟩ := h.split
  rcases List.mem_append.mp hn with hn | hn
  · exact le_of_lt (hbefore n hn u hu hle)
  rcases List.mem_cons.mp hn with rfl | hn
  · exact le_of_eq (hu.version_unique h.named)
  · exact hafter n hn u hu hle

theorem Leads.not_lacks (h : Leads names category wanted name v) :
    ¬ Lacks names category wanted := fun hlacks =>
  absurd (hlacks name h.mem v h.named) h.le.not_gt

theorem Leads.name_unique {name' : String} {v' : Version}
    (h : Leads names category wanted name v) (h' : Leads names category wanted name' v') :
    name = name' := by
  have hv : v = v' := le_antisymm (h'.le_of_mem h.mem h.named h.le)
    (h.le_of_mem h'.mem h'.named h'.le)
  subst hv
  obtain ⟨before, after, rfl, hbefore, -⟩ := h.split
  obtain ⟨before', after', hsplit, hbefore', -⟩ := h'.split
  -- The one that stands in front of the other would be less.
  rcases List.append_eq_append_iff.mp hsplit with ⟨between, rfl, htail⟩ | ⟨between, rfl, htail⟩
  · cases between with
    | nil => exact (List.cons.inj htail).1
    | cons m ms =>
      obtain ⟨rfl, -⟩ := List.cons.inj htail
      exact absurd (hbefore' name (by simp) v h.named h.le) (lt_irrefl v)
  · cases between with
    | nil => exact (List.cons.inj htail).1.symm
    | cons m ms =>
      obtain ⟨rfl, -⟩ := List.cons.inj htail
      exact absurd (hbefore name' (by simp) v h'.named h'.le) (lt_irrefl v)

/-- What the best one is among the names. -/
def IsBest (names : List String) (category : String) (wanted : Version) :
    Option Candidate → Prop
  | none => Lacks names category wanted
  | some b => Leads names category wanted b.1 b.2

/-! ## Going through the table -/

theorem Leads.concat (h : Leads names category wanted name v)
    (hn : ∀ u, NamedAfter category n u → u ≤ wanted → u ≤ v) :
    Leads (names ++ [n]) category wanted name v := by
  obtain ⟨before, after, rfl, hbefore, hafter⟩ := h.split
  refine ⟨h.named, h.le, before, after ++ [n], by simp, hbefore, ?_⟩
  intro m hm
  rcases List.mem_append.mp hm with hm | hm
  · exact hafter m hm
  · obtain rfl := List.mem_singleton.mp hm
    exact hn

theorem Lacks.concat (h : Lacks names category wanted)
    (hn : ∀ u, NamedAfter category n u → wanted < u) : Lacks (names ++ [n]) category wanted := by
  intro m hm
  rcases List.mem_append.mp hm with hm | hm
  · exact h m hm
  · obtain rfl := List.mem_singleton.mp hm
    exact hn

/-- The last of the names leads if its version is greater than those in front of it. -/
theorem leads_concat (hn : NamedAfter category n v) (hle : v ≤ wanted)
    (hlt : ∀ m ∈ names, ∀ u, NamedAfter category m u → u ≤ wanted → u < v) :
    Leads (names ++ [n]) category wanted n v :=
  ⟨hn, hle, names, [], rfl, hlt, fun _ hm => absurd hm List.not_mem_nil⟩

variable {best : Option Candidate}

theorem IsBest.skip (h : IsBest seen category wanted best)
    (hn : ∀ u, NamedAfter category n u → u ≤ wanted → ∃ b, best = some b ∧ u ≤ b.2) :
    IsBest (seen ++ [n]) category wanted best := by
  cases best with
  | none =>
    refine Lacks.concat h fun u hu => lt_of_not_ge fun hle => ?_
    obtain ⟨b, hb, -⟩ := hn u hu hle
    cases hb
  | some b =>
    refine Leads.concat h fun u hu hle => ?_
    obtain ⟨b', hb', hub⟩ := hn u hu hle
    cases hb'
    exact hub

/-- One more name is taken into account. -/
theorem IsBest.better (h : IsBest seen category wanted best) (hn : NamedAfter category n v) :
    IsBest (seen ++ [n]) category wanted (better wanted best n v) := by
  unfold Stub.better
  split
  · rename_i habove
    refine h.skip fun u hu hle => absurd hle ?_
    rw [hu.version_unique hn]
    exact (Version.before_iff_lt.mp habove).not_ge
  rename_i hbelow
  have hle : v ≤ wanted := le_of_not_gt fun hlt => hbelow (Version.before_iff_lt.mpr hlt)
  cases best with
  | none => exact leads_concat hn hle fun m hm u hu hule => absurd hule (h m hm u hu).not_ge
  | some b =>
    dsimp only
    split
    · rename_i hlt
      exact leads_concat hn hle fun m hm u hu hule =>
        lt_of_le_of_lt (Leads.le_of_mem h hm hu hule) (Version.before_iff_lt.mp hlt)
    · rename_i hge
      refine h.skip fun u hu _ => ⟨b, rfl, ?_⟩
      rw [hu.version_unique hn]
      exact le_of_not_gt fun hlt => hge (Version.before_iff_lt.mpr hlt)

/-- The names of the files that lie in the category tell their versions. -/
def Versioned (names : List String) (category : String) : Prop :=
  ∀ name ∈ names, ∀ file, LiesIn category name file → ∃ v, versionOf file = .ok v

/-- Going on from the best one so far, the best one of all the names is found. -/
theorem exists_bestFrom (hnamed : Versioned names category)
    (h : IsBest seen category wanted best) :
    ∃ best', bestFrom category wanted best names = .ok best' ∧
      IsBest (seen ++ names) category wanted best' := by
  induction names generalizing seen best with
  | nil => exact ⟨best, rfl, by rwa [List.append_nil]⟩
  | cons name more ih =>
    have hmore : Versioned more category := fun m hm => hnamed m (List.mem_cons_of_mem _ hm)
    rw [List.append_cons]
    cases hfile : versionedFile? category name with
    | none =>
      rw [bestFrom, hfile]
      refine ih hmore (h.skip fun u ⟨file, hlies, _⟩ => ?_)
      cases hfile.symm.trans (versionedFile?_eq_some_iff.mpr hlies)
    | some file =>
      have hlies := versionedFile?_eq_some_iff.mp hfile
      obtain ⟨v, hv⟩ := hnamed name List.mem_cons_self file hlies
      rw [bestFrom, hfile]
      dsimp only
      rw [hv]
      exact ih hmore (h.better ⟨file, hlies, hv⟩)

theorem selectAmong_cases (hnamed : Versioned names category) (wanted : Version) :
    (∃ name v, Leads names category wanted name v ∧
      selectAmong names category wanted = .ok name) ∨
    Lacks names category wanted ∧ selectAmong names category wanted =
      if defaultName category ∈ names then .ok (defaultName category)
      else .error (.notFound (defaultName category)) := by
  have hstart : IsBest [] category wanted none := fun n hn => absurd hn List.not_mem_nil
  obtain ⟨best, hbest, his⟩ := exists_bestFrom hnamed hstart
  rw [List.nil_append] at his
  unfold selectAmong
  rw [hbest]
  cases best with
  | none =>
    refine .inr ⟨his, ?_⟩
    dsimp only
    simp only [List.contains_iff_mem]
  | some b => exact .inl ⟨b.1, b.2, his, rfl⟩

/-- What is chosen is the stub that leads, and the default where there is none. -/
theorem selectAmong_eq_ok_iff (hnamed : Versioned names category) (wanted : Version)
    (name : String) : selectAmong names category wanted = .ok name ↔
      (∃ v, Leads names category wanted name v) ∨
        Lacks names category wanted ∧ name = defaultName category ∧ name ∈ names := by
  rcases selectAmong_cases hnamed wanted with ⟨leader, u, hleads, hchosen⟩ | ⟨hlacks, hchosen⟩
  · rw [hchosen, Except.ok.injEq]
    constructor
    · rintro rfl
      exact .inl ⟨u, hleads⟩
    · rintro (⟨v, hv⟩ | ⟨hlacks, -⟩)
      · exact hleads.name_unique hv
      · exact absurd hlacks hleads.not_lacks
  · rw [hchosen]
    constructor
    · intro h
      split at h
      · rename_i hmem
        cases h
        exact .inr ⟨hlacks, rfl, hmem⟩
      · cases h
    · rintro (⟨v, hv⟩ | ⟨-, rfl, hmem⟩)
      · exact absurd hlacks hv.not_lacks
      · exact if_pos hmem

/-- The only error is that there is no default where it is needed. -/
theorem selectAmong_eq_error_iff (hnamed : Versioned names category) (wanted : Version)
    (e : Error) : selectAmong names category wanted = .error e ↔
      Lacks names category wanted ∧ defaultName category ∉ names ∧
        e = .notFound (defaultName category) := by
  rcases selectAmong_cases hnamed wanted with ⟨leader, u, hleads, hchosen⟩ | ⟨hlacks, hchosen⟩
  · rw [hchosen]
    exact ⟨fun h => (by cases h), fun h => absurd h.1 hleads.not_lacks⟩
  · rw [hchosen]
    constructor
    · intro h
      split at h
      · cases h
      · rename_i habsent
        cases h
        exact ⟨hlacks, habsent, rfl⟩
    · rintro ⟨-, habsent, rfl⟩
      exact if_neg habsent

/-! ## Other orders of the table -/

/-- No two stubs of the category are named after the same version. -/
def Distinct (names : List String) (category : String) : Prop :=
  ∀ n ∈ names, ∀ m ∈ names, ∀ v, NamedAfter category n v → NamedAfter category m v → n = m

theorem Leads.eq_of_mem_iff {names' : List String} {name' : String} {v' : Version}
    (h : Leads names category wanted name v) (h' : Leads names' category wanted name' v')
    (hdistinct : Distinct names category) (hmem : ∀ n, n ∈ names' ↔ n ∈ names) :
    name = name' := by
  have hv : v = v' := le_antisymm (h'.le_of_mem ((hmem _).mpr h.mem) h.named h.le)
    (h.le_of_mem ((hmem _).mp h'.mem) h'.named h'.le)
  subst hv
  exact hdistinct name h.mem name' ((hmem _).mp h'.mem) v h.named h'.named

theorem selectAmong_of_mem_iff {names' : List String} (hnamed : Versioned names category)
    (hdistinct : Distinct names category) (hmem : ∀ n, n ∈ names' ↔ n ∈ names)
    (wanted : Version) :
    selectAmong names' category wanted = selectAmong names category wanted := by
  have hnamed' : Versioned names' category := fun n hn => hnamed n ((hmem n).mp hn)
  have hlacks_iff : Lacks names' category wanted ↔ Lacks names category wanted :=
    forall_congr' fun n => by rw [hmem]
  rcases selectAmong_cases hnamed wanted with ⟨name, v, hleads, hchosen⟩ | ⟨hlacks, hchosen⟩ <;>
    rcases selectAmong_cases hnamed' wanted with
      ⟨name', v', hleads', hchosen'⟩ | ⟨hlacks', hchosen'⟩
  · rw [hchosen, hchosen', hleads.eq_of_mem_iff hleads' hdistinct hmem]
  · exact absurd (hlacks_iff.mp hlacks') hleads.not_lacks
  · exact absurd (hlacks_iff.mpr hlacks) hleads'.not_lacks
  · simp only [hchosen, hchosen', hmem]

/-! ## Later versions -/

/-- The second stub is named after a version at least as great as the first one; a default, which
is named after none, is the oldest. -/
def NotOlder (category name name' : String) : Prop :=
  ∀ u, NamedAfter category name u → ∃ u', NamedAfter category name' u' ∧ u ≤ u'

theorem exists_selectAmong_of_le {later : Version} (hnamed : Versioned names category)
    (hle : wanted ≤ later) (h : selectAmong names category wanted = .ok name) :
    ∃ name', selectAmong names category later = .ok name' ∧ NotOlder category name name' := by
  rcases (selectAmong_eq_ok_iff hnamed wanted name).mp h with ⟨v, hleads⟩ | ⟨-, rfl, hmem⟩
  · rcases selectAmong_cases hnamed later with ⟨name', v', hleads', hchosen⟩ | ⟨hlacks, -⟩
    · refine ⟨name', hchosen, fun u hu => ⟨v', hleads'.named, ?_⟩⟩
      rw [hu.version_unique hleads.named]
      exact hleads'.le_of_mem hleads.mem hleads.named (le_trans hleads.le hle)
    · have habove := hlacks name hleads.mem v hleads.named
      exact absurd (lt_of_le_of_lt (le_trans hleads.le hle) habove) (lt_irrefl v)
  · have hdefault : ∀ name', NotOlder category (defaultName category) name' :=
      fun _ u hu => absurd hu not_namedAfter_default
    rcases selectAmong_cases hnamed later with ⟨name', v', -, hchosen⟩ | ⟨-, hchosen⟩
    · exact ⟨name', hchosen, hdefault name'⟩
    · exact ⟨_, hchosen.trans (if_pos hmem), hdefault _⟩

/-! ## The law -/

/-- Where each stub of a category tells its version, the one that is chosen is the first of those
with the greatest version not above the wanted one, or the default if there is none, and just a
missing default is an error. If the versions are distinct the order of the table does not matter,
and a later version gets a stub that is not older. -/
theorem the_greatest_version_not_above_is_chosen (hnamed : Versioned names category) :
    (∀ wanted,
      (∀ name, selectAmong names category wanted = .ok name ↔
        (∃ v, Leads names category wanted name v) ∨
          Lacks names category wanted ∧ name = defaultName category ∧ name ∈ names) ∧
      ∀ e, selectAmong names category wanted = .error e ↔
        Lacks names category wanted ∧ defaultName category ∉ names ∧
          e = .notFound (defaultName category)) ∧
    (Distinct names category → ∀ names', names.Perm names' → ∀ wanted,
      selectAmong names' category wanted = selectAmong names category wanted) ∧
    ∀ wanted later name, wanted ≤ later → selectAmong names category wanted = .ok name →
      ∃ name', selectAmong names category later = .ok name' ∧ NotOlder category name name' :=
  ⟨fun wanted => ⟨selectAmong_eq_ok_iff hnamed wanted, selectAmong_eq_error_iff hnamed wanted⟩,
    fun hdistinct _ hperm wanted =>
      selectAmong_of_mem_iff hnamed hdistinct (fun _ => hperm.mem_iff.symm) wanted,
    fun _ _ _ hle h => exists_selectAmong_of_le hnamed hle h⟩

end

namespace Sample

/-- The stubs of the shop, two of them of the same version, and some in other categories. -/
def table : List String :=
  ["shop/default.go.stub", "shops/v4.0.1.go.stub", "shop/v4.0.0-rc1.go.stub", "shop/v4.go.stub",
    "shop/admin/latest.go.stub", "shop/v4.0.0.go.stub", "shop/v4.1.0.go.stub"]

theorem versioned_of_version? {names : List String} {category : String}
    (h : ∀ name ∈ names, versionedFile? category name = none ∨ (version? category name).isSome) :
    Versioned names category := by
  intro name hname file hlies
  have hfile := versionedFile?_eq_some_iff.mpr hlies
  rcases h name hname with hnone | hsome
  · cases hfile.symm.trans hnone
  · obtain ⟨v, hv⟩ := Option.isSome_iff_exists.mp hsome
    obtain ⟨file', hlies', hversion⟩ := version?_eq_some_iff.mp hv
    cases hfile.symm.trans (versionedFile?_eq_some_iff.mpr hlies')
    exact ⟨v, hversion⟩

theorem forall_namedAfter {names : List String} {category : String} {P : Version → Prop}
    (h : ∀ n ∈ names, ∀ u ∈ version? category n, P u) :
    ∀ n ∈ names, ∀ u, NamedAfter category n u → P u :=
  fun n hn u hu => h n hn u (version?_eq_some_iff.mpr hu)

/-- The shop gets the first of two stubs of the same version, and a category without stubs gets
none. The middleware gets the same in the reversed table, and nothing older for the release than
for its pre-release. -/
theorem the_stubs_of_the_shop_are_chosen :
    selectAmong table "shop" (.release 4 0 9) = .ok "shop/v4.go.stub" ∧
    selectAmong table "view" (.release 4 0 9) = .error (.notFound "view/default.go.stub") ∧
    selectAmong names.reverse "middleware" (.release 4 0 0) =
      selectAmong names "middleware" (.release 4 0 0) ∧
    ∃ name', selectAmong names "middleware" (.release 4 0 0) = .ok name' ∧
      NotOlder "middleware" "middleware/v4.0.0-rc1.go.stub" name' := by
  have hshop : Versioned table "shop" := versioned_of_version? (by decide +kernel)
  have hview : Versioned table "view" := versioned_of_version? (by decide +kernel)
  have hmiddleware : Versioned names "middleware" := versioned_of_version? (by decide +kernel)
  obtain ⟨-, horder, hlater⟩ := the_greatest_version_not_above_is_chosen hmiddleware
  refine ⟨?_, ?_, ?_, ?_⟩
  · have hleads : Leads table "shop" (.release 4 0 9) "shop/v4.go.stub" (.release 4 0 0) :=
      ⟨version?_eq_some_iff.mp (by decide +kernel), by decide +kernel, table.take 3, table.drop 4,
        rfl, forall_namedAfter (by decide +kernel), forall_namedAfter (by decide +kernel)⟩
    exact (((the_greatest_version_not_above_is_chosen hshop).1 _).1 _).mpr (.inl ⟨_, hleads⟩)
  · have hlacks : Lacks table "view" (.release 4 0 9) := forall_namedAfter (by decide +kernel)
    exact (((the_greatest_version_not_above_is_chosen hview).1 _).2 _).mpr
      ⟨hlacks, by decide +kernel, rfl⟩
  · have hdistinct : Distinct names "middleware" := by
      have hcheck : ∀ n ∈ names, ∀ m ∈ names, ∀ v ∈ version? "middleware" n,
          v ∈ version? "middleware" m → n = m := by decide +kernel
      exact fun n hn m hm v hv hv' => hcheck n hn m hm v (version?_eq_some_iff.mpr hv)
        (version?_eq_some_iff.mpr hv')
    exact horder hdistinct _ (List.reverse_perm names).symm _
  · exact hlater ⟨4, 0, 0, ["rc1".toList], []⟩ _ _ (by decide +kernel)
      (eq_ok_of_toOption (by decide +kernel))

end Sample

end Graft.Stub
