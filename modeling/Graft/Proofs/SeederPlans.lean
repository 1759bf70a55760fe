-- The plans to run seeders. A plan is made exactly if all that is asked for is
-- among the functions that a scan of the seeders finds, and a plan that is made
-- can always be filled in: the injected file imports the package of the seeders
-- and calls them in the order in which they were asked for.
import Graft.Proofs.Capture

namespace Graft

/-! ## Seeders that exist -/

namespace Seeder

/-- The first that does not exist comes behind others that do. -/
theorem validate_eq_error_iff {requested available : List String} {u : Unknown} :
    validate requested available = .error u ↔ u.available = available ∧
      ∃ before after, requested = before ++ u.name :: after ∧
        (∀ name ∈ before, name ∈ available) ∧ u.name ∉ available := by
  unfold validate
  cases hfind : requested.find? fun name => !available.contains name with
  | none =>
    have hall : ∀ name ∈ requested, name ∈ available := by simpa using hfind
    refine ⟨fun h => (nomatch h), ?_⟩
    rintro ⟨-, before, after, rfl, -, hnot⟩
    exact absurd (hall _ (by simp)) hnot
  | some name =>
    obtain ⟨hname, before, after, hsplit, hbefore⟩ := List.find?_eq_some_iff_append.mp hfind
    have hbefore : ∀ n ∈ before, n ∈ available := by simpa using hbefore
    have hname : name ∉ available := by simpa using hname
    constructor
    · rintro ⟨⟩
      exact ⟨rfl, before, after, hsplit, hbefore, hname⟩
    · rintro ⟨havailable, before', after', hsplit', hbefore', hnot⟩
      have hfirst : (requested.find? fun name => !available.contains name) = some u.name := by
        refine List.find?_eq_some_iff_append.mpr ⟨by simpa using hnot, before', after', hsplit', ?_⟩
        simpa using hbefore'
      cases hfirst.symm.trans hfind
      rw [← havailable]

theorem validate_eq_ok_iff {requested available : List String} :
    validate requested available = .ok () ↔ ∀ name ∈ requested, name ∈ available := by
  unfold validate
  cases hfind : requested.find? fun name => !available.contains name with
  | none => simpa using hfind
  | some name =>
    have hname := List.find?_some hfind
    have hmem := List.mem_of_find?_eq_some hfind
    refine ⟨fun h => (nomatch h), fun hall => ?_⟩
    have hin := hall name hmem
    simp [hin] at hname

/-- What is put first is neither lost nor doubled. -/
theorem ordered_perm (names : List String) : (ordered names).Perm names :=
  List.filter_append_perm (· == defaultName) names

theorem mem_ordered {names : List String} {name : String} : name ∈ ordered names ↔ name ∈ names :=
  (ordered_perm names).mem_iff

/-- All that is asked for exists, whatever comes first among what exists. -/
theorem validate_ordered_eq_ok_iff {requested found : List String} :
    validate requested (ordered found) = .ok () ↔ ∀ name ∈ requested, name ∈ found := by
  rw [validate_eq_ok_iff]
  simp only [mem_ordered]

end Seeder

/-! ## What is planned -/

namespace Task

variable {v : Files.View} {p : Project} {requested : List String}

/-- The functions that a scan of the seeders finds. -/
def scanned (v : Files.View) (p : Project) : Except Scan.Error (List String) :=
  Scan.collect (Scan.exportedFunctions v (seederDirectory p))

/-- The seeders are what the scan found, if it found anything. -/
theorem seeders_eq_ok_iff {available : List String} :
    Resolve.seeders v (seederDirectory p) = .ok available ↔
      ∃ found, scanned v p = .ok found ∧ found ≠ [] ∧ available = Seeder.ordered found := by
  unfold Resolve.seeders scanned
  cases Scan.collect (Scan.exportedFunctions v (seederDirectory p)) with
  | error e => simp
  | ok found => cases found <;> simp [eq_comm]

theorem seeders_ne_unknown {u : Seeder.Unknown} :
    Resolve.seeders v (seederDirectory p) ≠ .error (.unknownSeeder u) := by
  unfold Resolve.seeders
  split
  · exact fun h => nomatch h
  · split <;> exact fun h => nomatch h

/-- The plan is refused for a seeder that does not exist exactly if the scan finds functions, and
not all that are asked for are among them. -/
theorem seedPlan_eq_unknown_iff {u : Seeder.Unknown} :
    seedPlan v p requested = .error (.resolve (.unknownSeeder u)) ↔
      ∃ found, scanned v p = .ok found ∧ found ≠ [] ∧
        Seeder.validate requested (Seeder.ordered found) = .error u := by
  unfold seedPlan Project.modulePath
  simp only [bind_eq_error_iff, mapError_eq_error_iff, mapError_eq_ok_iff, seeders_eq_ok_iff]
  constructor
  · rintro (⟨e, he, hu⟩ | ⟨_, ⟨found, hscan, hne, rfl⟩, h⟩)
    · cases hu
      exact absurd he seeders_ne_unknown
    rcases h with ⟨e, he, hu⟩ | ⟨_, -, ⟨e, -, hu⟩ | ⟨module, -, ⟨e, -, hu⟩ | ⟨stated, -, hu⟩⟩⟩
    · cases hu
      exact ⟨found, hscan, hne, he⟩
    -- What is asked for later fails in other ways.
    all_goals cases hu
  · rintro ⟨found, hscan, hne, hvalidate⟩
    exact .inr ⟨_, ⟨found, hscan, hne, rfl⟩, .inl ⟨u, hvalidate, rfl⟩⟩

/-- The plan of running seeders of a package that is imported from the path. -/
def seedPlanOf (path package : String) (requested : List String) : Plan :=
  ⟨"inject/seed",
    [(.seederImportPath, .text path), (.seederPackage, .text package),
      (.seeders, .list requested)], []⟩

/-- A plan is made exactly if the scan finds all that are asked for, and the module has a name
and the package can be asked for its own. -/
theorem seedPlan_eq_ok_iff {plan : Plan} :
    seedPlan v p requested = .ok plan ↔
      ∃ found module stated, scanned v p = .ok found ∧ found ≠ [] ∧
        (∀ name ∈ requested, name ∈ found) ∧ p.modulePath = .ok module ∧
        Scan.packageName v (seederDirectory p) = .ok stated ∧
        plan = seedPlanOf (packageImportPath module p.config.seeders)
          (stated.getD (baseName (packageImportPath module p.config.seeders))) requested := by
  unfold seedPlan
  simp only [bind_eq_ok_iff, mapError_eq_ok_iff, seeders_eq_ok_iff]
  constructor
  · rintro ⟨_, ⟨found, hscan, hne, rfl⟩, _, hvalidate, module, hmodule, stated, hstated, hplan⟩
    cases hplan
    have hall := Seeder.validate_ordered_eq_ok_iff.mp hvalidate
    exact ⟨found, module, stated, hscan, hne, hall, hmodule, hstated, rfl⟩
  · rintro ⟨found, module, stated, hscan, hne, hall, hmodule, hstated, rfl⟩
    have hvalidate := Seeder.validate_ordered_eq_ok_iff.mpr hall
    exact ⟨_, ⟨found, hscan, hne, rfl⟩, (), hvalidate, module, hmodule, stated, hstated, rfl⟩

end Task

/-! ## The stub that is filled -/

namespace Stub

/-- A repeated line stands once for each entry, in their order. -/
theorem fillEach_eq {d : Data} {place : Undefined} {pieces : List Piece} {text : String → String}
    (h : ∀ entry, fillLine d entry place pieces = .ok (text entry)) (entries : List String) :
    fillEach d place pieces entries = .ok (inLines (entries.map text)) := by
  induction entries with
  | nil => rfl
  | cons entry more ih =>
    unfold fillEach
    rw [h, ih]
    rfl

/-- The line that calls a seeder of a package. -/
def seedCall (package name : String) : String := "\t" ++ (package ++ ("." ++ (name ++ "()")))

/-- The function that calls the seeders of a package, one after the other. -/
def seeding (package : String) (seeders : List String) : String :=
  inLines
    ["",
     "// Seed runs the selected seeders in order.",
     "func Seed() error \x7b",
     "\tif err := gyvconfig.Load(); err != nil \x7b",
     "\t\treturn err",
     "\t\x7d",
     "\tdefer gyvdatabase.Close()",
     ""] ++
  (inLines (seeders.map (seedCall package)) ++ inLines ["\treturn nil", "\x7d"])

theorem functions_of_seed {d : Data} {imports symbols body : List Item}
    (h : Injection.seed = .filling imports symbols body) {package : String}
    {seeders : List String} (hpackage : d.get? .seederPackage = some (.text package))
    (hseeders : d.get? .seeders = some (.list seeders)) (stub : String) :
    fillBlock d stub imports symbols body .body = .ok (seeding package seeders) := by
  have hcalls : ∀ place, fillEach d place
      [.text "\t", .hole .seederPackage, .text ".", .entry, .text "()"] seeders =
        .ok (inLines (seeders.map (seedCall package))) := by
    intro place
    refine fillEach_eq (fun entry => ?_) seeders
    simp only [fillLine, Piece.fill, hpackage, pure, Except.pure, bind, Except.bind, Value.shown,
      seedCall, String.append_empty]
  unfold Injection.seed at h
  cases h
  simp only [fillBlock, fillItems, Item.fill, fillLine, Piece.fill, say, gap, hseeders,
    Value.entries, hcalls, pure, Except.pure, bind, Except.bind, seeding, inLines, endLine,
    String.append_assoc, String.append_empty, String.empty_append]

end Stub

namespace Task

/-- The stub that runs the seeders. -/
def seedStub : Stub.Page := ⟨"inject/seed/default.go.stub", Stub.Injection.seed⟩

theorem select_seedStub (wanted : Version) :
    Stub.select "inject/seed" wanted = .ok seedStub.name :=
  Stub.select_of_unversioned (by decide) (by decide) wanted

theorem seedStub_mem : seedStub ∈ Stub.pages := List.mem_of_getElem? (i := 8) rfl

/-- The parameters that the stub and the layout around it use. -/
def seedParams : List Stub.Param :=
  [.goyaveImportPath, .symbolEnv, .resultEnv, .listSymbol, .seederImportPath, .seederPackage,
   .seeders]

theorem mem_seedParams {imports symbols body : List Stub.Item}
    (h : Stub.Injection.seed = .filling imports symbols body) :
    ∀ q ∈ Stub.paramsAround imports symbols body, q ∈ seedParams := by
  unfold Stub.Injection.seed at h
  cases h
  decide

theorem seedImport_standsIn {imports symbols body : List Stub.Item}
    (h : Stub.Injection.seed = .filling imports symbols body) {d : Stub.Data}
    {package path goyave : String} (hg : d.get? .goyaveImportPath = some (.text goyave))
    (hpackage : d.get? .seederPackage = some (.text package))
    (hpath : d.get? .seederImportPath = some (.text path)) {stub imported : String}
    (hf : Stub.fillBlock d stub imports symbols body .imports = .ok imported) :
    StandsIn (importLine ⟨some package, path⟩) imported := by
  unfold Stub.Injection.seed at h
  cases h
  simp only [Stub.fillBlock, Stub.fillItems, Stub.Item.fill, Stub.fillLine, Stub.Piece.fill,
    hg, hpackage, hpath, Pure.pure, Except.pure, Bind.bind, Except.bind, Stub.Value.shown,
    Stub.endLine, String.append_empty] at hf
  cases hf
  refine StandsIn.append_left ?_ _
  refine StandsIn.append_left ?_ _
  refine ⟨"", "", ?_⟩
  rw [String.empty_append, String.append_empty]
  simp only [importLine, Go.Import.display, String.append_assoc]

theorem gives_seedPlanOf (p : Project) (path package : String) (seeders : List String) :
    (Injection.commonData p ++ (seedPlanOf path package seeders).data).Gives seedParams := by
  intro q hq
  simp only [seedParams, List.mem_cons, List.not_mem_nil, or_false] at hq
  rcases hq with rfl | rfl | rfl | rfl | rfl | rfl | rfl <;> exact ⟨_, rfl⟩

/-- The injected file imports the package of the seeders, and holds the function that calls
them. -/
theorem source_seedPlanOf (p : Project) (path package : String) (seeders : List String) :
    ∃ text, Injection.source p (seedPlanOf path package seeders) = .ok text ∧
      StandsIn (importLine ⟨some package, path⟩) text ∧
      StandsIn (Stub.seeding package seeders) text := by
  obtain ⟨imports, symbols, body, hseed⟩ : ∃ imports symbols body,
      Stub.Injection.seed = .filling imports symbols body := ⟨_, _, _, rfl⟩
  obtain ⟨head, imported, between, functions, tail, himported, hfunctions, htext⟩ :=
    Stub.fill_around (e := seedStub) hseed
      ((gives_seedPlanOf p path package seeders).mono (mem_seedParams hseed))
  have hstands : StandsIn (importLine ⟨some package, path⟩) imported :=
    seedImport_standsIn hseed rfl rfl rfl himported
  rw [Stub.functions_of_seed hseed rfl rfl] at hfunctions
  cases hfunctions
  refine ⟨_, ?_, (((hstands.append_left head).append_right between).append_right
    _).append_right tail, head ++ imported ++ between, tail, rfl⟩
  exact Injection.source_of_fill seedStub_mem (select_seedStub _) htext

end Task

end Graft
