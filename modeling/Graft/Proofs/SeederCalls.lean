-- What the injected calls of seeders refer to. A seeder that is asked for is
-- declared in the directory as a function without parameters and results. But
-- the names are taken from all sources there, those of tests and of other
-- packages too, and from functions with type parameters, while the package is
-- taken from the first source that is no test. So a call may refer to nothing
-- that the build tool finds.
import Graft.Proofs.Seeding

namespace Graft

/-! ## Declarations of functions -/

namespace Go

namespace Tree

/-- The tree declares a function of this name without a receiver, parameters and results. -/
structure DeclaresPlain (t : Tree) (name : String) : Prop where
  kind : t.kind = .functionDeclaration
  named : (t.child? .name).map text = some name
  noParameters : ∃ parameters, t.child? .parameters = some parameters ∧ parameters.items = []
  noResult : t.child? .result = none

/-- The declared function has type parameters. -/
def IsGeneric (t : Tree) : Prop := ∃ c ∈ t.children, c.kind = .typeParameterList

theorem plainFunction?_eq_some_iff {t : Tree} {name : String} :
    t.plainFunction? = some name ↔ t.DeclaresPlain name := by
  unfold plainFunction?
  constructor
  · intro h
    split at h
    · rename_i hkind
      rw [Bool.and_eq_true, decide_eq_true_eq, Option.isNone_iff_eq_none] at hkind
      split at h
      · rename_i parameters hparameters
        split at h
        · rename_i hitems
          exact ⟨hkind.1, h, ⟨parameters, hparameters, List.isEmpty_iff.mp hitems⟩, hkind.2⟩
        · cases h
      · cases h
    · cases h
  · rintro ⟨hkind, hnamed, ⟨parameters, hparameters, hitems⟩, hresult⟩
    simp [hkind, hresult, hparameters, hitems, hnamed]

theorem mem_exportedFunctions {root : Tree} {name : String} :
    name ∈ root.exportedFunctions ↔
      isExported name = true ∧ ∃ t ∈ root.children, t.DeclaresPlain name := by
  unfold exportedFunctions
  rw [List.mem_filter, List.mem_filterMap, and_comm]
  simp only [plainFunction?_eq_some_iff]

end Tree

namespace Source

/-- The build tool compiles the source into the package: it is no test, and its clause names the
package. -/
structure IsOf (s : Source) (package : String) : Prop where
  noTest : Scan.isTest s.path = false
  clause : s.packageName = some package

end Source

/-- A call of the name in the package, without arguments, means a function of the sources. -/
def IsCallable (sources : List Source) (package name : String) : Prop :=
  ∃ s ∈ sources, s.IsOf package ∧
    ∃ t ∈ s.tree.children, t.DeclaresPlain name ∧ ¬ t.IsGeneric

/-- A call means nothing if each declaration of its name is one of a test, of another package,
or of a function with type parameters. -/
theorem not_isCallable_iff {sources : List Source} {package name : String} :
    ¬ IsCallable sources package name ↔
      ∀ s ∈ sources, ∀ t ∈ s.tree.children, t.DeclaresPlain name →
        Scan.isTest s.path = true ∨ s.packageName ≠ some package ∨ t.IsGeneric := by
  constructor
  · intro hnot s hs t ht hplain
    by_cases htest : Scan.isTest s.path = true
    · exact .inl htest
    by_cases hclause : s.packageName = some package
    · by_cases hgeneric : t.IsGeneric
      · exact .inr (.inr hgeneric)
      · exact absurd ⟨s, hs, ⟨by simpa using htest, hclause⟩, t, ht, hplain, hgeneric⟩ hnot
    · exact .inr (.inl hclause)
  · rintro hflawed ⟨s, hs, hof, t, ht, hplain, hgeneric⟩
    rcases hflawed s hs t ht hplain with htest | hclause | hgeneric'
    · rw [hof.noTest] at htest
      cases htest
    · exact hclause hof.clause
    · exact hgeneric hgeneric'

end Go

/-! ## The package that is called -/

namespace Scan

open Go

variable {v : Files.View} {directory : String} {sources : List Source}

/-- Where no source is a test and all are of one package, this is the one that is called. -/
theorem statedBy_of_all {package : String} (h : ∀ s ∈ sources, s.IsOf package)
    (hne : sources ≠ []) : statedBy sources = some package := by
  cases sources with
  | nil => exact absurd rfl hne
  | cons s more =>
    obtain ⟨htest, hclause⟩ := h s List.mem_cons_self
    unfold statedBy
    rw [List.filter_cons_of_pos (by simp [htest]), List.findSome?_cons, hclause]

end Scan

/-! ## The seeders that are called -/

/-- When the running of seeders is planned, each seeder that is called is declared in a source of
the scanned directory, exported and without receiver, parameters and results. Its call means no
function of the package exactly if each such declaration is one of a test, of another package or
with type parameters. Where there are none of these, all calls mean functions of the package. -/
theorem the_seeders_that_are_called_are_declared {v : Files.View} {p : Project}
    {requested : List String} {plan : Plan} (h : Task.seedPlan v p requested = .ok plan) :
    ∃ sources module path package text, Scan.Reads v (Task.seederDirectory p) sources ∧
      p.modulePath = .ok module ∧ path = packageImportPath module p.config.seeders ∧
      package = (Scan.statedBy sources).getD (baseName path) ∧
      Injection.source p plan = .ok text ∧
      StandsIn (Task.importLine ⟨some package, path⟩) text ∧
      StandsIn (Stub.seeding package requested) text ∧
      (∀ name ∈ requested, Go.isExported name = true ∧
        ∃ s ∈ sources, ∃ t ∈ s.tree.children, t.DeclaresPlain name) ∧
      (∀ name ∈ requested, ¬ Go.IsCallable sources package name ↔
        ∀ s ∈ sources, ∀ t ∈ s.tree.children, t.DeclaresPlain name →
          Scan.isTest s.path = true ∨ s.packageName ≠ some package ∨ t.IsGeneric) ∧
      (∀ stated, (∀ s ∈ sources, s.IsOf stated) →
        (∀ s ∈ sources, ∀ t ∈ s.tree.children, ∀ name ∈ requested, t.DeclaresPlain name →
          ¬ t.IsGeneric) →
        package = stated ∧ ∀ name ∈ requested, Go.IsCallable sources package name) := by
  obtain ⟨found, module, stated, hscan, hne, hall, hmodule, hstated, rfl⟩ :=
    Task.seedPlan_eq_ok_iff.mp h
  obtain ⟨sources, hreads, rfl⟩ := Scan.collect_results_eq_ok_iff.mp hscan
  cases hreads.packageName.symm.trans hstated
  obtain ⟨text, htext, himport, hcalls⟩ := Task.source_seedPlanOf p _ _ _
  have hdeclared : ∀ name ∈ requested, Go.isExported name = true ∧
      ∃ s ∈ sources, ∃ t ∈ s.tree.children, t.DeclaresPlain name := by
    intro name hname
    obtain ⟨s, hs, hin⟩ := List.mem_flatMap.mp (hall name hname)
    obtain ⟨hexported, hdeclared⟩ := Go.Tree.mem_exportedFunctions.mp hin
    exact ⟨hexported, s, hs, hdeclared⟩
  refine ⟨sources, module, _, _, text, hreads, hmodule, rfl, rfl, htext, himport, hcalls,
    hdeclared, fun _ _ => Go.not_isCallable_iff, ?_⟩
  intro stated hof hplain
  have hsources : sources ≠ [] := by
    rintro rfl
    exact hne rfl
  have hpackage := Scan.statedBy_of_all hof hsources
  rw [hpackage]
  refine ⟨rfl, fun name hname => ?_⟩
  obtain ⟨-, s, hs, t, ht, hdeclares⟩ := hdeclared name hname
  exact ⟨s, hs, hof s hs, t, ht, hdeclares, hplain s hs t ht name hname hdeclares⟩

namespace Sample

open Files

/-- No declaration of the source has type parameters. -/
def hasNoGenerics (root : Go.Tree) : Bool :=
  root.children.all fun t => t.children.all fun c => c.kind != .typeParameterList

theorem hasNoGenerics_seeder {tree : Go.Tree} (htree : Go.parse seederText.toList = .ok tree) :
    ∀ t ∈ tree.children, ¬ t.IsGeneric := by
  have hnone : ((Go.parse seederText.toList).toOption.map hasNoGenerics) = some true := by
    decide +kernel
  rw [htree] at hnone
  have hall : hasNoGenerics tree = true := Option.some.inj hnone
  rintro t ht ⟨c, hc, hkind⟩
  have hplain := List.all_eq_true.mp (List.all_eq_true.mp hall t ht) c hc
  simp [hkind] at hplain

theorem the_seeder_of_the_shop_is_declared :
    Task.seedPlan seeded.view (seeding "./seeders/") ["Run"] = .ok (seederPlan "./seeders/") ∧
    ∃ sources text, Scan.Reads seeded.view (Task.seederDirectory (seeding "./seeders/")) sources ∧
      Injection.source (seeding "./seeders/") (seederPlan "./seeders/") = .ok text ∧
      StandsIn (Stub.seeding "seeder" ["Run"]) text ∧
      Go.IsCallable sources "seeder" "Run" := by
  have hplan : Task.seedPlan seeded.view (seeding "./seeders/") ["Run"] =
      .ok (seederPlan "./seeders/") :=
    seedPlan_seeded (by decide) (by decide)
  refine ⟨hplan, ?_⟩
  obtain ⟨sources, module, path, package, text, hreads, -, -, -, htext, -, hcalls, -, -, hplain⟩ :=
    the_seeders_that_are_called_are_declared hplan
  obtain ⟨tree, htree, -, hname⟩ := parse_seeder
  cases hreads.unique (reads_seeding (by decide) (by decide) htree)
  obtain ⟨rfl, hcallable⟩ := hplain "seeder" (by
      intro s hs
      rw [List.mem_singleton.mp hs]
      refine ⟨?_, hname⟩
      unfold Scan.isTest
      rw [fileName?_seederFile]
      decide) (by
      intro s hs t ht _ _ _
      rw [List.mem_singleton.mp hs] at ht
      exact hasNoGenerics_seeder htree t ht)
  exact ⟨_, text, hreads, htext, hcalls, hcallable "Run" (by simp)⟩

def genericText : String := "package seeder\n\nfunc Run[T any]() \x7b\x7d\n"

def testText : String := "package seeder\n\nfunc Users() \x7b\x7d\n"

/-- The shop with one seeder that takes a type and another that stands in a test. -/
def uncallable : World :=
  { seeded with
    store := ⟨[(["shop"], .directory), (["shop", "seeders"], .directory),
      (["shop", "seeders", "seeder.go"], .file (View.encode genericText) false),
      (["shop", "seeders", "users_test.go"], .file (View.encode testText) false)]⟩ }

theorem place_uncallable :
    uncallable.view.store.place uncallable.view.cwd true "/shop/seeders" =
      .ok ["shop", "seeders"] := by
  have hparts : Path.parts "/shop/seeders" = ["shop", "seeders"] := by decide
  have habsolute : Path.isAbsolute "/shop/seeders" = true := by decide
  rw [Store.place_eq_walk (by decide) (by decide), hparts, habsolute]
  simp [Store.walk, Store.at?, World.view, uncallable]

theorem sourceFiles_uncallable : Scan.sourceFiles uncallable.view "/shop/seeders" =
    .ok ["/shop/seeders/seeder.go", "/shop/seeders/users_test.go"] := by
  have hnames : uncallable.view.store.namesIn ["shop", "seeders"] =
      ["seeder.go", "users_test.go"] := by
    have hfound : uncallable.view.store.entries.filterMap
        (fun e => Store.nameIn? ["shop", "seeders"] e.1) = ["seeder.go", "users_test.go"] := rfl
    have hle : Store.nameLe "seeder.go" "users_test.go" = true := by decide +kernel
    unfold Store.namesIn
    rw [hfound]
    simp [List.mergeSort, hle]
  have hseeder : Scan.namesSource uncallable.store "/shop/seeders" ["shop", "seeders"]
      "seeder.go" = true := by decide +kernel
  have husers : Scan.namesSource uncallable.store "/shop/seeders" ["shop", "seeders"]
      "users_test.go" = true := by decide +kernel
  have hjoin : Path.join "/shop/seeders" "seeder.go" = "/shop/seeders/seeder.go" := by
    decide +kernel
  have hjoin' : Path.join "/shop/seeders" "users_test.go" = "/shop/seeders/users_test.go" := by
    decide +kernel
  rw [Scan.sourceFiles_of_directory place_uncallable rfl, hnames]
  simp [hseeder, husers, hjoin, hjoin']

theorem find_uncallable :
    uncallable.view.find "/shop/seeders/seeder.go" =
        .ok (.file (View.encode genericText) false) ∧
      uncallable.view.find "/shop/seeders/users_test.go" =
        .ok (.file (View.encode testText) false) := by
  have hparts : Path.parts "/shop/seeders/seeder.go" = ["shop", "seeders", "seeder.go"] := by
    decide
  have hparts' : Path.parts "/shop/seeders/users_test.go" =
      ["shop", "seeders", "users_test.go"] := by decide
  have habsolute : Path.isAbsolute "/shop/seeders/seeder.go" = true := by decide
  have habsolute' : Path.isAbsolute "/shop/seeders/users_test.go" = true := by decide
  unfold View.find
  rw [Store.place_eq_walk (by decide) (by decide), Store.place_eq_walk (by decide) (by decide),
    hparts, hparts', habsolute, habsolute']
  constructor <;> simp [Store.walk, Store.at?, World.view, uncallable]

/-- What the analysis finds in the two sources. -/
theorem parse_uncallable : ∃ generic test, Go.parse genericText.toList = .ok generic ∧
    Go.parse testText.toList = .ok test ∧ generic.exportedFunctions = ["Run"] ∧
    generic.packageName = some "seeder" ∧ test.exportedFunctions = ["Users"] ∧
    ∀ t ∈ generic.children, ∀ name, t.DeclaresPlain name → t.IsGeneric := by
  have hgeneric : ((Go.parse genericText.toList).toOption.map fun root =>
      (root.exportedFunctions, root.packageName, root.children.all fun t =>
        t.plainFunction?.isNone || t.children.any fun c => c.kind == .typeParameterList)) =
        some (["Run"], some "seeder", true) := by decide +kernel
  have htest : (Go.parse testText.toList).toOption.map Go.Tree.exportedFunctions =
      some ["Users"] := by decide +kernel
  obtain ⟨generic, hparsed, hfound⟩ := exists_ok_of_toOption_map hgeneric
  obtain ⟨test, hparsed', husers⟩ := exists_ok_of_toOption_map htest
  simp only [Prod.mk.injEq] at hfound
  obtain ⟨hrun, hpackage, hall⟩ := hfound
  refine ⟨generic, test, hparsed, hparsed', hrun, hpackage, husers, ?_⟩
  intro t ht name hplain
  have hany := List.all_eq_true.mp hall t ht
  rw [Go.Tree.plainFunction?_eq_some_iff.mpr hplain, Option.isNone_some, Bool.false_or,
    List.any_eq_true] at hany
  obtain ⟨c, hc, hkind⟩ := hany
  exact ⟨c, hc, eq_of_beq hkind⟩

/-- Both seeders are called, and neither call means a function of the package. -/
theorem the_seeders_of_the_shop_cannot_be_called :
    ∃ plan text, Task.seedPlan uncallable.view (seeding "seeders") ["Run", "Users"] = .ok plan ∧
      Injection.source (seeding "seeders") plan = .ok text ∧
      StandsIn (Stub.seeding "seeder" ["Run", "Users"]) text ∧
      ∀ sources, Scan.Reads uncallable.view (Task.seederDirectory (seeding "seeders")) sources →
        ¬ Go.IsCallable sources "seeder" "Run" ∧ ¬ Go.IsCallable sources "seeder" "Users" := by
  obtain ⟨generic, test, hgeneric, htest, hrun, hpackage, husers, hall⟩ := parse_uncallable
  have hdirectory : Task.seederDirectory (seeding "seeders") = "/shop/seeders" := by decide +kernel
  have hreads : Scan.Reads uncallable.view (Task.seederDirectory (seeding "seeders"))
      [⟨"/shop/seeders/seeder.go", generic⟩, ⟨"/shop/seeders/users_test.go", test⟩] := by
    rw [hdirectory]
    refine ⟨sourceFiles_uncallable, ?_⟩
    intro s hs
    simp only [List.mem_cons, List.not_mem_nil, or_false] at hs
    rcases hs with rfl | rfl
    · exact Scan.readSource_of_find find_uncallable.1 hgeneric
    · exact Scan.readSource_of_find find_uncallable.2 htest
  have hscan : Task.scanned uncallable.view (seeding "seeders") = .ok ["Run", "Users"] := by
    refine Scan.collect_results_eq_ok_iff.mpr ⟨_, hreads, ?_⟩
    simp [Go.Source.exportedFunctions, hrun, husers]
  have hisTest : Scan.isTest "/shop/seeders/seeder.go" = false := by decide +kernel
  have hisTest' : Scan.isTest "/shop/seeders/users_test.go" = true := by decide +kernel
  have hplan := Task.seedPlan_eq_ok_iff.mpr ⟨_, "shop", some "seeder", hscan, by simp,
    fun _ h => h, rfl, ?_, rfl⟩
  · obtain ⟨text, htext, -, hcalls⟩ := Task.source_seedPlanOf (seeding "seeders") _ "seeder"
      ["Run", "Users"]
    refine ⟨_, text, hplan, htext, hcalls, ?_⟩
    intro sources hsources
    cases hsources.unique hreads
    refine ⟨Go.not_isCallable_iff.mpr ?_, Go.not_isCallable_iff.mpr ?_⟩
    all_goals
      intro s hs t ht hplain
      simp only [List.mem_cons, List.not_mem_nil, or_false] at hs
      rcases hs with rfl | rfl
      · exact .inr (.inr (hall t ht _ hplain))
      · exact .inl hisTest'
  · rw [hreads.packageName]
    simp [Scan.statedBy, hisTest, hisTest', Go.Source.packageName, hpackage]

end Sample

end Graft
