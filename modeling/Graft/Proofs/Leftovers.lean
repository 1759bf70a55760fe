-- What a run of the artifact leaves behind. The file of an answer is removed
-- once it was read as text. So an answer that is no text stays, and it is the
-- only thing that a call or a load leaves behind at the path of its answer.
import Graft.Proofs.CleaningUp

namespace Graft

open Act Deed

/-! ## What a removal takes away -/

namespace Files

namespace Store

variable {s : Store} {p q : Place} {e : Entry}

theorem at?_of_at?_erase (h : (s.erase p).at? q = some e) : s.at? q = some e := by
  by_cases hq : q = p
  · subst hq
    by_cases hroot : q = []
    · subst hroot
      exact h
    · rw [at?_erase_self hroot] at h
      cases h
  · rw [at?_erase_of_ne hq] at h
    exact h

/-- What still stands after a removal is found where it was found before. -/
theorem walk_of_walk_erase {links : Nat} {here : Place} {names : List String}
    (h : (s.erase p).walk false links here names = .ok q) (hq : (s.erase p).at? q = some e) :
    s.walk false links here names = .ok q := by
  refine walk_of_ways (fun hr => ?_) (fun ho => ?_) id .inl h
  · have hat := at?_of_at?_erase (at?_of_way hr)
    rw [way, at?_of_way hr] at hr
    rwa [way, hat]
  · rcases isOpen_iff.mp ho with hnone | ⟨bytes, x, hfile⟩
    · cases hnone.symm.trans hq
    · exact isOpen_iff.mpr (.inr ⟨bytes, x, at?_of_at?_erase hfile⟩)

/-- Where names lead to a file through links, they lead to a file or a link without following
the last one. -/
theorem exists_walk_unfollowed {links : Nat} {here : Place} {names : List String}
    {bytes : List UInt8} {x : Bool} (h : s.walk true links here names = .ok q)
    (hq : s.at? q = some (.file bytes x)) :
    ∃ r e, s.walk false links here names = .ok r ∧ s.at? r = some e ∧ e ≠ .directory := by
  fun_induction walk s true links here names with
  | case1 =>
    cases h
    exact ⟨_, _, by rw [walk], hq, by simp⟩
  | case2 links here rest ih =>
    rw [walk, if_pos rfl]
    exact ih h
  | case3 links here name rest hn hp hrest =>
    cases h
    cases hp.symm.trans hq
  | case4 | case7 | case9 => cases h
  | case5 links here name rest hn hp ih =>
    rw [walk, if_neg hn, hp]
    exact ih h
  | case6 links here name rest hn bytes' x' hp hrest =>
    cases h
    refine ⟨_, _, ?_, hq, by simp⟩
    rw [walk, if_neg hn, hp]
    simp only [hrest, if_true]
  | case8 links here name rest hn target hp hrest => simp at hrest
  | case10 here name rest hn target hp hrest n ih =>
    rw [walk, if_neg hn, hp]
    by_cases hlast : rest.isEmpty = true
    · simp only [hlast, Bool.not_false, Bool.and_self, if_true]
      exact ⟨_, _, rfl, hp, by simp⟩
    · simp only [hlast, Bool.false_and, Bool.false_eq_true, if_false]
      exact ih h

end Store

namespace View

variable {v : View} {path name text : String} {q : Place} {e : Entry}

theorem stands?_eq_some_iff : v.stands? path = some e ↔ ∃ q, v.Has path q (some e) := by
  unfold stands? Has Leads
  cases hp : v.store.place v.cwd false path with
  | error fault => simp
  | ok q => simp

/-- Something stands at the path, and it is no file that reads as text. -/
def IsIllegible (v : View) (path : String) : Prop :=
  v.stands? path ≠ none ∧ ∀ text, v.readText path ≠ .ok text

/-- A file is illegible if its bytes are no text. -/
theorem Has.isIllegible_iff {bytes : List UInt8} {x : Bool}
    (hq : v.Has path q (some (.file bytes x))) (hn : Path.EndsIn path name) :
    v.IsIllegible path ↔ decode? bytes = none := by
  have hfind := hq.1.find hn (Store.isOpen_iff.mpr (.inr ⟨bytes, x, hq.2⟩))
  have hstands : v.stands? path ≠ none := by
    rw [hq.1.stands?, hq.2]
    simp
  unfold IsIllegible readText readBytes
  rw [hfind, hq.2]
  dsimp only [Option.elim]
  cases decode? bytes <;> simp [hstands]

/-- What reads as text can be removed. -/
theorem exists_has_of_readText (hn : Path.EndsIn path name) (ht : v.readText path = .ok text) :
    ∃ q e, v.Has path q (some e) ∧ e ≠ .directory := by
  unfold readText readBytes find at ht
  rw [Store.place_of_endsIn hn] at ht
  split at ht
  · cases ht
  · rename_i bytes hbytes
    split at hbytes
    · rename_i bytes' x hfind
      split at hfind
      · cases hfind
      · rename_i p hp
        split at hfind
        · rename_i e he
          cases hfind
          obtain ⟨q, e, hq, he, hd⟩ := Store.exists_walk_unfollowed hp he
          refine ⟨q, e, ⟨?_, he⟩, hd⟩
          rw [Leads, Store.place_of_endsIn hn]
          exact hq
        · cases hfind
    · cases hbytes
    · cases hbytes

theorem Leads.stands?_erase (hq : v.Leads path q) (hn : Path.EndsIn path name) :
    View.stands? ⟨v.store.erase q, v.cwd⟩ path = none := by
  have hroot := hq.ne_root hn
  rw [Leads, Store.place_of_endsIn hn] at hq
  unfold View.stands?
  rw [Store.place_of_endsIn hn]
  split
  · rename_i p hp
    rw [Store.eq_of_walk_erase hroot hq hp, Store.at?_erase_self hroot]
  · rfl

theorem stands?_of_stands?_erase {p : Place} (hn : Path.EndsIn path name)
    (h : stands? ⟨v.store.erase p, v.cwd⟩ path = some e) : v.stands? path = some e := by
  obtain ⟨q, hq, he⟩ := stands?_eq_some_iff.mp h
  rw [Leads, Store.place_of_endsIn hn] at hq
  refine stands?_eq_some_iff.mpr ⟨q, ?_, Store.at?_of_at?_erase he⟩
  rw [Leads, Store.place_of_endsIn hn]
  exact Store.walk_of_walk_erase hq he

end View
end Files

open Files

namespace Deed

variable {path name other : String} {h : Host} {w : World}

/-- A removal puts nothing anywhere. -/
theorem stands?_of_stands?_removed (hn : Path.EndsIn path name) {e : Entry}
    (he : (removed other h w).after.view.stands? path = some e) :
    w.view.stands? path = some e := by
  unfold removed ofStep at he
  dsimp only at he
  rcases perform_removeFile_cases h w other with ⟨fault, -, hv⟩ | ⟨-, p, e', hp, he', hd, hv⟩
  · rw [hv] at he
    exact he
  · rw [hv] at he
    exact View.stands?_of_stands?_erase (v := w.view) hn he

/-- What reads as text is gone once it was to be removed. -/
theorem stands?_removed_of_readText {text : String} (hn : Path.EndsIn path name)
    (hr : ∀ n, h.refusesRemoval n path = none) (ht : w.view.readText path = .ok text) :
    (removed path h w).after.view.stands? path = none := by
  obtain ⟨q, e, ⟨hq, he⟩, hd⟩ := View.exists_has_of_readText hn ht
  obtain ⟨-, hv⟩ := perform_removeFile_of_at? h w hr hq he hd
  unfold removed ofStep
  dsimp only
  rw [hv]
  exact View.Leads.stands?_erase (v := w.view) hq hn

end Deed

/-! ## What a run of the artifact leaves -/

namespace Artifact

variable (h : Host) (path directory symbol : String) (w : World)

/-- The file that takes the answer of the next run. -/
def nextResult (h : Host) (w : World) : String := resultPath h.tempDir (w.nextSuffix h)

theorem endsIn_nextResult : Path.EndsIn (nextResult h w) (resultName (w.nextSuffix h)) :=
  endsIn_resultPath _ _

theorem view_execute :
    ((execute path directory symbol).perform h w).2.view =
      if (firstDeed h path directory symbol w).succeeded &&
          ((firstDeed h path directory symbol w).after.view.readText (nextResult h w)).toBool then
        (removed (nextResult h w) h (firstDeed h path directory symbol w).after).after.view
      else (firstDeed h path directory symbol w).after.view := by
  have hchain := chain_executeDeeds h path directory symbol w
  unfold executeDeeds at hchain
  unfold nextResult
  dsimp only at hchain
  cases hchain with
  | next _ hrest =>
    split at hrest
    · rename_i hread
      rw [if_pos hread]
      cases hrest with
      | next _ hend =>
        cases hend with
        | done hu => exact hu.view
    · rename_i hread
      rw [if_neg hread]
      cases hrest with
      | done hu => exact hu.view

/-- An artifact that cannot be run changes nothing. -/
theorem view_firstDeed_of_failed (hd : (firstDeed h path directory symbol w).succeeded = false) :
    (firstDeed h path directory symbol w).after.view = w.view := by
  unfold firstDeed ran ofStep launch at hd ⊢
  rw [perform_ofFunction] at hd ⊢
  dsimp only at hd ⊢
  split
  · rfl
  · rename_i outcome hl
    rw [hl] at hd
    cases hd

/-- An artifact that is run leaves the files as the host says. -/
theorem view_firstDeed_of_ok {h : Host} {path directory symbol : String} {w : World}
    {outcome : Outcome}
    (hl : ∀ n, h.launch n (runFor path directory symbol (nextResult h w)) w.view = .ok outcome) :
    (firstDeed h path directory symbol w).after.view = ⟨outcome.store, w.cwd⟩ := by
  unfold firstDeed ran ofStep launch
  rw [perform_ofFunction]
  dsimp only
  split
  · rename_i fault hfault
    cases hfault.symm.trans (hl _)
  · rename_i found hfound
    cases hfound.symm.trans (hl _)
    rfl

/-- A run leaves something at the path of its answer exactly if the artifact left something
there that is no text. -/
theorem remains_execute_iff (hr : ∀ n file, h.refusesRemoval n file = none)
    (hv : w.view.stands? (nextResult h w) = none) :
    ((execute path directory symbol).perform h w).2.view.stands? (nextResult h w) ≠ none ↔
      (firstDeed h path directory symbol w).after.view.IsIllegible (nextResult h w) := by
  rw [view_execute]
  cases ht : (firstDeed h path directory symbol w).after.view.readText (nextResult h w) with
  | ok text =>
    have hlegible : ¬ (firstDeed h path directory symbol w).after.view.IsIllegible
        (nextResult h w) := fun hi => hi.2 text ht
    refine iff_of_false (fun hstays => hstays ?_) hlegible
    split
    · exact stands?_removed_of_readText (endsIn_nextResult h w) (fun n => hr n _) ht
    · rename_i hread
      have hfailed : (firstDeed h path directory symbol w).succeeded = false := by
        simpa [Except.toBool] using hread
      rw [view_firstDeed_of_failed h path directory symbol w hfailed]
      exact hv
  | error fault =>
    simp only [Except.toBool, Bool.and_false, Bool.false_eq_true, if_false]
    unfold View.IsIllegible
    rw [ht]
    simp

/-- Loading leaves what the run of the artifact left, except for the file of an artifact that
it discards. -/
theorem view_load_cases :
    ((load path directory).perform h w).2.view =
        ((execute path directory tableSymbol).perform h w).2.view ∨
      ((load path directory).perform h w).2.view =
        (removed path h ((execute path directory tableSymbol).perform h w).2).after.view := by
  rw [perform_load]
  cases loaded path ((execute path directory tableSymbol).perform h w).1 with
  | ok symbols => exact .inl rfl
  | error e =>
    have hd := perform_removeOrWarn (ε := SymbolError) h
      ((execute path directory tableSymbol).perform h w).2
      "Could not delete compiled artifact at " path
    exact .inr hd.2.view

/-- Whatever is at the path of the answer after a load was there after the run. -/
theorem stands?_execute_of_load {e : Entry}
    (he : ((load path directory).perform h w).2.view.stands? (nextResult h w) = some e) :
    ((execute path directory tableSymbol).perform h w).2.view.stands? (nextResult h w) =
      some e := by
  rcases view_load_cases h path directory w with hv | hv
  · rw [hv] at he
    exact he
  · rw [hv] at he
    exact stands?_of_stands?_removed (endsIn_nextResult h w) he

/-- A load that discards an artifact leaves the answer of the artifact where it is. -/
theorem stands?_load {s : Suffix} (hn : Path.EndsIn path (Injection.artifactName s))
    (hl : ((execute path directory tableSymbol).perform h w).2.view.HasNoLink path) :
    ((load path directory).perform h w).2.view.stands? (nextResult h w) =
      ((execute path directory tableSymbol).perform h w).2.view.stands? (nextResult h w) := by
  rcases view_load_cases h path directory w with hv | hv
  · rw [hv]
  · rw [hv]
    exact stands?_removed (endsIn_nextResult h w) hn
      (Ne.symm (Injection.artifactName_ne_resultName s _)) hl

theorem view_execute_of_isIllegible
    (hi : (firstDeed h path directory symbol w).after.view.IsIllegible (nextResult h w)) :
    ((execute path directory symbol).perform h w).2.view =
      (firstDeed h path directory symbol w).after.view := by
  rw [view_execute]
  cases ht : (firstDeed h path directory symbol w).after.view.readText (nextResult h w) with
  | ok text => exact absurd ht (hi.2 text)
  | error fault => simp [Except.toBool]

end Artifact

/-- Where files can be removed and nothing was at the path of the answer, a call of a symbol
leaves something there exactly if the artifact left something there that does not read as
text: a file whose bytes are no text, a directory, or a link that leads to no text. Loading an
artifact leaves nothing else either, and if no link stands in place of the artifact, it leaves
this. -/
theorem an_answer_remains_exactly_if_it_is_no_text (h : Host)
    (hr : ∀ n file, h.refusesRemoval n file = none) (w : World)
    (hv : w.view.stands? (Artifact.nextResult h w) = none) :
    (∀ f : BoundSymbol,
        (f.call.perform h w).2.view.stands? (Artifact.nextResult h w) ≠ none ↔
          (Artifact.firstDeed h f.artifact.path f.artifact.directory f.name w).after.view.IsIllegible
            (Artifact.nextResult h w)) ∧
      ∀ path directory,
        let run := Artifact.firstDeed h path directory Artifact.tableSymbol w
        let after := ((Artifact.load path directory).perform h w).2
        (after.view.stands? (Artifact.nextResult h w) ≠ none →
            run.after.view.IsIllegible (Artifact.nextResult h w)) ∧
          ∀ s, Path.EndsIn path (Injection.artifactName s) → run.after.view.HasNoLink path →
            run.after.view.IsIllegible (Artifact.nextResult h w) →
              after.view.stands? (Artifact.nextResult h w) ≠ none := by
  refine ⟨?_, ?_⟩
  · intro f
    rw [BoundSymbol.perform_call]
    exact Artifact.remains_execute_iff h _ _ _ w hr hv
  · intro path directory
    have hiff := Artifact.remains_execute_iff h path directory Artifact.tableSymbol w hr hv
    refine ⟨?_, ?_⟩
    · intro hstays
      apply hiff.mp
      intro hgone
      obtain ⟨e, he⟩ := Option.ne_none_iff_exists'.mp hstays
      have hexecute := Artifact.stands?_execute_of_load h path directory w he
      rw [hgone] at hexecute
      cases hexecute
    · intro s hn hl hi
      have hview := Artifact.view_execute_of_isIllegible h path directory Artifact.tableSymbol w hi
      rw [← hview] at hl
      rw [Artifact.stands?_load h path directory w hn hl]
      exact hiff.mpr hi

namespace Sample

/-- A host on which the artifact answers with a byte that is no text. -/
def garbling : Host :=
  { host with
    launch := fun _ l v =>
      match l.environment.find? fun e => e.1 == Artifact.resultVariable with
      | some e => (v.create e.2 [0xff]).map fun store => ⟨store, .code 0, []⟩
      | none => .error .notFound }

/-- The migrations of the shop. -/
def migrations : BoundSymbol := ⟨⟨"/tmp/shop", "/shop", [("Migrate", "func() error")]⟩, "Migrate",
  .nothing⟩

/-- The place of the first answer in the shop. -/
def answer : Place := ["tmp", "gyv-inject-result-1000-7-0.json"]

theorem has_answer : world.view.Has (Artifact.nextResult garbling world) answer none := by
  have hparts : Path.parts (Artifact.nextResult garbling world) = answer := by decide
  have habsolute : Path.isAbsolute (Artifact.nextResult garbling world) = true := by
    decide
  have hnone : world.view.store.at? answer = none := by decide
  exact ⟨View.leads_of_parts (Artifact.endsIn_nextResult garbling world) habsolute hparts
    (by decide) (by decide) (Store.isOpen_iff.mpr (.inl hnone)), hnone⟩

theorem launch_garbling (n : Nat) (artifact directory symbol result : String) (v : View) :
    garbling.launch n (Artifact.runFor artifact directory symbol result) v =
      (v.create result [0xff]).map fun store => ⟨store, .code 0, []⟩ := by
  unfold garbling Artifact.runFor
  dsimp only
  rw [List.find?_cons_of_neg (by simp [Artifact.symbolVariable, Artifact.resultVariable]),
    List.find?_cons_of_pos (by simp)]

theorem isIllegible_migrations :
    (Artifact.firstDeed garbling migrations.artifact.path migrations.artifact.directory
      migrations.name world).after.view.IsIllegible (Artifact.nextResult garbling world) := by
  have hcreate : world.view.create (Artifact.nextResult garbling world) [0xff] =
      .ok (world.store.put answer (.file [0xff] false)) :=
    View.create_eq_ok_iff.mpr ⟨answer, has_answer.1, has_answer.2, rfl⟩
  have hview : (Artifact.firstDeed garbling migrations.artifact.path
      migrations.artifact.directory migrations.name world).after.view =
        ⟨world.store.put answer (.file [0xff] false), world.cwd⟩ := by
    refine @Artifact.view_firstDeed_of_ok _ _ _ _ _ ⟨_, .code 0, []⟩ fun n => ?_
    rw [launch_garbling, hcreate]
    rfl
  have hways := Store.sameWays_put [0xff] false (Store.isOpen_iff.mpr (.inl has_answer.2))
  have hhas : View.Has ⟨world.store.put answer (.file [0xff] false), world.cwd⟩
      (Artifact.nextResult garbling world) answer (some (.file [0xff] false)) :=
    ⟨has_answer.1.of_sameWays (Artifact.endsIn_nextResult garbling world) hways,
      Store.at?_put_self (by simp [answer])⟩
  rw [hview]
  exact (hhas.isIllegible_iff (Artifact.endsIn_nextResult garbling world)).mpr (by decide)

theorem stands?_answer : world.view.stands? (Artifact.nextResult garbling world) = none := by
  rw [has_answer.1.stands?]
  exact has_answer.2

theorem the_answer_of_the_shop_remains_exactly_if_it_is_no_text :
    (∀ n file, garbling.refusesRemoval n file = none) ∧
      world.view.stands? (Artifact.nextResult garbling world) = none ∧
      ((migrations.call.perform garbling world).2.view.stands?
          (Artifact.nextResult garbling world) ≠ none ↔
        (Artifact.firstDeed garbling "/tmp/shop" "/shop" "Migrate" world).after.view.IsIllegible
          (Artifact.nextResult garbling world)) :=
  ⟨fun _ _ => rfl, stands?_answer,
    (an_answer_remains_exactly_if_it_is_no_text garbling (fun _ _ => rfl) world stands?_answer).1
      migrations⟩

/-- Nothing hinders a removal, but the answer that is no text remains. -/
theorem the_garbled_answer_of_the_shop_remains :
    (∀ n file, garbling.refusesRemoval n file = none) ∧
      world.view.stands? (Artifact.nextResult garbling world) = none ∧
      (migrations.call.perform garbling world).2.view.stands?
        (Artifact.nextResult garbling world) ≠ none := by
  refine ⟨fun _ _ => rfl, stands?_answer, ?_⟩
  rw [BoundSymbol.perform_call]
  exact (Artifact.remains_execute_iff garbling _ _ _ world (fun _ _ => rfl) stands?_answer).mpr
    isIllegible_migrations

end Sample
end Graft
