-- Stubs are rendered as their pages say. Every stub is a template under the
-- settings of the catalog, and it is filled as its page is.
import Graft.Proofs.PageFilling

namespace Graft.Stub

open Template

/-! ## The pages are spelled plainly -/

theorem isName_of_mem_params : ∀ p ∈ [Param.packageName, .name, .goyaveImportPath,
    .modelImportPath, .seederImportPath, .seederPackage, .seeders, .routeRegistrer,
    .routeRegistrerImport, .symbolEnv, .resultEnv, .listSymbol], p.IsName := by
  simp only [List.forall_mem_cons, List.not_mem_nil, false_implies, implies_true, and_true]
  refine ⟨?_, ?_, ?_, ?_, ?_, ?_, ?_, ?_, ?_, ?_, ?_, ?_⟩
  all_goals exact ⟨by decide, by decide, by decide⟩

section Plain

variable {cs : List Char} {pieces : List Piece} {items : List Item}

theorem arePlain_last (h : '\n' ∉ cs ∧ isQuiet '\n' cs = true) :
    ArePlain [.text (String.ofList cs)] := by
  rw [← String.toList_ofList (l := cs)] at h
  exact ⟨h, trivial⟩

theorem arePlain_text {p : Piece} (h : '\n' ∉ cs ∧ isQuiet '\x7b' cs = true)
    (hrest : ArePlain (p :: pieces)) : ArePlain (.text (String.ofList cs) :: p :: pieces) := by
  rw [← String.toList_ofList (l := cs)] at h
  exact ⟨h, hrest⟩

theorem arePlain_say (h : '\n' ∉ cs ∧ isQuiet '\n' cs = true) (hrest : ∀ i ∈ items, i.IsPlain) :
    ∀ i ∈ say (String.ofList cs) :: items, i.IsPlain :=
  List.forall_mem_cons.mpr ⟨⟨arePlain_last h, by simp⟩, hrest⟩

theorem arePlain_gap (hrest : ∀ i ∈ items, i.IsPlain) : ∀ i ∈ gap :: items, i.IsPlain :=
  List.forall_mem_cons.mpr ⟨⟨trivial, by simp⟩, hrest⟩

theorem isPlain_whole (h : ∀ i ∈ items, i.IsPlain) (hslots : (slotsOf items).Nodup) :
    Content.IsPlain (.whole items) := ⟨h, hslots⟩

theorem isPlain_filling {imports symbols body : List Item} (himports : ∀ i ∈ imports, i.IsPlain)
    (hsymbols : ∀ i ∈ symbols, i.IsPlain) (hbody : ∀ i ∈ body, i.IsPlain)
    (hslots : slotsOf imports ++ slotsOf symbols ++ slotsOf body = []) :
    Content.IsPlain (.filling imports symbols body) := by
  simp only [List.append_eq_nil_iff] at hslots
  obtain ⟨⟨hfirst, hsecond⟩, hthird⟩ := hslots
  intro items hitems
  simp only [List.mem_cons, List.not_mem_nil, or_false] at hitems
  rcases hitems with rfl | rfl | rfl
  · exact ⟨himports, hfirst⟩
  · exact ⟨hsymbols, hsecond⟩
  · exact ⟨hbody, hthird⟩

end Plain

/-- No text of a stub opens a tag, so what is read of it is what its page spells. -/
theorem pages_plain : ∀ p ∈ pages, p.content.IsPlain := by
  simp only [pages, List.forall_mem_cons, List.not_mem_nil, false_implies, implies_true, and_true]
  refine ⟨?_, ?_, ?_, ?_, ?_, ?_, ?_, ?_, ?_, ?_, ?_⟩
  all_goals repeat first
    | refine isPlain_whole ?_ (by decide)
    | refine isPlain_filling ?_ ?_ ?_ (by decide)
    | refine arePlain_say (by decide) ?_
    | refine arePlain_gap ?_
    | refine List.forall_mem_cons.mpr ⟨⟨?_, by decide⟩, ?_⟩
    | refine List.forall_mem_cons.mpr ⟨⟨isName_of_mem_params _ (by simp), ?_, by decide⟩, ?_⟩
    | refine List.forall_mem_cons.mpr ⟨⟨isName_of_mem_params _ (by simp), ?_⟩, ?_⟩
    | refine List.forall_mem_cons.mpr ⟨trivial, ?_⟩
    | exact fun _ h => absurd h List.not_mem_nil
    | exact arePlain_last (by decide)
    | refine arePlain_text (by decide) ?_
    | refine ⟨isName_of_mem_params _ (by simp), ?_⟩
    | trivial

/-! ## Rendering -/

theorem isNeat_settings : settings.IsNeat := ⟨rfl, rfl, rfl⟩

/-- Every stub is a template: the one of its page. -/
theorem environment_eq : environment = .ok (pages.map Page.template) := by
  have hread : ∀ ps : List Page, (∀ p ∈ ps, p ∈ pages) →
      (ps.map Page.entry).mapM (fun e => (read settings e.name e.source).mapError
        (Error.malformed e.name)) = .ok (ps.map Page.template) := by
    intro ps hps
    induction ps with
    | nil => rfl
    | cons p ps ih =>
      have hp := p.read_source isNeat_settings (pages_plain p (hps p List.mem_cons_self))
      rw [List.map_cons, List.mapM_cons, show p.entry.name = p.name from rfl, hp,
        ih fun q hq => hps q (List.mem_cons_of_mem p hq)]
      rfl
  rw [environment, catalog_eq]
  exact hread pages fun p hp => hp

theorem Page.name_template (p : Page) : p.template.name = p.name := by
  obtain ⟨name, content⟩ := p
  cases content <;> rfl

/-- A page is found by its name. -/
theorem find?_template {ps : List Page} (hnodup : (ps.map Page.name).Nodup) {p : Page}
    (hp : p ∈ ps) :
    (ps.map Page.template).find? (fun t => t.name == p.name) = some p.template := by
  induction ps with
  | nil => cases hp
  | cons q ps ih =>
    obtain ⟨hq, hps⟩ := List.nodup_cons.mp hnodup
    rw [List.map_cons]
    rcases List.mem_cons.mp hp with rfl | hp
    · exact List.find?_cons_of_pos (by simp [Page.name_template])
    · rw [List.find?_cons_of_neg, ih hps hp]
      rw [Page.name_template, beq_iff_eq]
      exact fun h => hq (h ▸ List.mem_map_of_mem hp)

theorem nodup_pages : (pages.map Page.name).Nodup := by decide +kernel

theorem layout_mem : (⟨layoutName, .whole layout⟩ : Page) ∈ pages :=
  List.mem_of_getElem? (i := 6) rfl

/-- A stub is rendered as its page is filled. -/
theorem render_of_mem {p : Page} (hp : p ∈ pages) (d : Data) :
    render p.name d = (p.fill d).mapError (.undefined p.name) := by
  have hfill := Page.fill_template (d := d) (pages_plain p hp) (pages_plain _ layout_mem)
    (find?_template nodup_pages layout_mem)
  have hrender : render p.name d =
      (p.template.fill .strict .none d (pages.map Page.template) []).mapError (stopped p.name) := by
    rw [render, environment_eq]
    dsimp only [bind, Except.bind]
    rw [find?_template nodup_pages hp]
    rfl
  rw [hrender, hfill]
  cases p.fill d <;> rfl

theorem render_of_fill {p : Page} (hp : p ∈ pages) {d : Data} {text : String}
    (h : p.fill d = .ok text) : render p.name d = .ok text := by
  rw [render_of_mem hp, h]
  rfl

/-! ## Stubs that are for all versions -/

theorem bestFrom_of_unversioned {category : String} {names : List String}
    (h : ∀ n ∈ names, versionedFile? category n = none) (wanted : Version)
    (best : Option Candidate) : bestFrom category wanted best names = .ok best := by
  induction names with
  | nil => rfl
  | cons n ns ih =>
    unfold bestFrom
    rw [h n List.mem_cons_self]
    exact ih fun m hm => h m (List.mem_cons_of_mem _ hm)

/-- A category without versioned stubs gives its default one to every version. -/
theorem select_of_unversioned {category : String}
    (hnone : ∀ n ∈ names, versionedFile? category n = none)
    (hdefault : names.contains (defaultName category) = true) (wanted : Version) :
    select category wanted = .ok (defaultName category) := by
  unfold select selectAmong
  rw [bestFrom_of_unversioned hnone]
  dsimp only
  rw [if_pos hdefault]

end Graft.Stub
