-- The function that the routes are described with declares a local before
-- the reference that is filled into it. A reference that opens with the name
-- of that local means the local there, and not what it means in the project;
-- every other reference keeps clear of it.
import Graft.Proofs.Filling
import Graft.Proofs.Registrers
import Graft.Proofs.Runs
import Graft.Task

namespace Graft

/-! ## Local names in scope -/

namespace Go

namespace Tree

/-- The name that an identifier is. -/
def name? : Tree → Option String
  | leaf kind _ t => if kind = .identifier then some (String.ofList t.text) else none
  | node _ _ _ => none

/-- The names among the expressions of a list, or the name that stands by itself. -/
def listed : Tree → List String
  | node .expressionList _ ts => ts.filterMap name?
  | t => t.name?.toList

/-- The mark between the names that are defined and their values. -/
def isDefine : Tree → Bool
  | leaf _ _ t => t.sort == .mark .define
  | node _ _ _ => false

/-- The names in front of the mark of a definition; none if there is no mark. -/
def definedAmong (ts : List Tree) : List String :=
  if ts.any isDefine then (ts.takeWhile fun t => !t.isDefine).flatMap listed else []

mutual
/-- The names that a part of a function declares for what follows it in the same block. -/
def declared : Tree → List String
  | leaf _ _ _ => []
  | node kind _ ts =>
    match kind with
    | .shortVarDeclaration | .rangeClause | .receiveStatement => definedAmong ts
    | .varSpec | .constSpec | .parameterDeclaration | .variadicParameterDeclaration =>
      ts.filterMap name?
    | .varDeclaration | .varSpecList | .constDeclaration | .parameterList | .forClause
    | .labeledStatement => declaredAmong ts
    | _ => []

def declaredAmong : List Tree → List String
  | [] => []
  | t :: ts => declared t ++ declaredAmong ts
end

mutual
/-- The local names that are in scope where the name is first used: in each node around the
use, those that the parts in front of it declare. -/
def inScopeAt? (name : String) : Tree → Option (List String)
  | leaf kind _ t => if kind = .identifier ∧ t.text = name.toList then some [] else none
  | node kind _ ts =>
    inScopeAmong? name (if kind = .typeSwitchStatement then definedAmong ts else []) ts

/-- The same among the parts of a node; `before` holds what is declared in front of them. -/
def inScopeAmong? (name : String) (before : List String) : List Tree → Option (List String)
  | [] => none
  | t :: ts =>
    match inScopeAt? name t with
    | some names => some (before ++ names)
    | none => inScopeAmong? name (before ++ t.declared) ts
end

end Tree

/-- The local names that are in scope where a function first uses the name. -/
def localsAt? (function name : String) : Option (List String) :=
  (parse function.toList).toOption.bind (Tree.inScopeAt? name)

/-- What a block declares is out of scope behind it. -/
example :
    localsAt? "func f(a int) \x7b if b := a; b \x7b var c int \x7d; d := a; x(d) \x7d" "x" =
      some ["a", "d"] := by decide +kernel

end Go

/-! ## The stub that describes the routes -/

namespace Stub

/-- Lines, each with its end. -/
def inLines : List String → String
  | [] => ""
  | l :: ls => endLine l ++ inLines ls

theorem toList_inLines (ls : List String) :
    (inLines ls).toList = ls.flatMap fun l => l.toList ++ ['\n'] := by
  induction ls with
  | nil => rfl
  | cons l ls ih =>
    unfold inLines endLine
    rw [String.toList_append, String.toList_append, ih]
    rfl

/-- The lines of the function that describes the routes, up to the registrer. -/
def openingLines : List String :=
  ["",
   "// GenerateOpenAPI builds the main router and serializes its OpenAPI 3 specification.",
   "func GenerateOpenAPI() ([]byte, error) \x7b",
   "\tif err := gyvconfig.Load(); err != nil \x7b",
   "\t\treturn nil, err",
   "\t\x7d",
   "",
   "\trouter := gyvgoyave.NewRouter()"]

/-- The lines of the function behind the registrer. -/
def closingLines : List String :=
  ["(router)",
   "",
   "\tspec := gyvopenapi3.NewGenerator().Generate(router)",
   "\treturn gyvjson.MarshalIndent(spec, \"\", \"  \")",
   "\x7d"]

/-- The function that describes the routes that a function registers. -/
def describing (registrer : String) : String :=
  inLines openingLines ++ ("\t" ++ (registrer ++ inLines closingLines))

/-- The local names that are in scope where the registrer stands. -/
def localsAtRegistrer : Option (List String) :=
  Go.localsAt? (describing "registrer") "registrer"

theorem localsAtRegistrer_eq : localsAtRegistrer = some ["router"] := by
  unfold localsAtRegistrer Go.localsAt? describing
  -- Line by line, since a long text is slow to turn into characters.
  rw [String.toList_append, String.toList_append, String.toList_append, toList_inLines,
    toList_inLines]
  decide +kernel

/-- The stub that describes the routes. -/
def describer : Page := ⟨"inject/openapi/default.go.stub", Injection.openapi⟩

theorem functions_of_describer {d : Data} {imports symbols body : List Item}
    (h : Injection.openapi = .filling imports symbols body) {registrer : String}
    (hr : d.get? .routeRegistrer = some (.text registrer)) (stub : String) :
    fillBlock d stub imports symbols body .body = .ok (describing registrer) := by
  unfold Injection.openapi at h
  cases h
  simp only [fillBlock, fillItems, Item.fill, fillLine, Piece.fill, say, gap, hr, pure,
    Except.pure, bind, Except.bind, Value.shown, describing, openingLines, closingLines, inLines,
    endLine, String.append_assoc, String.append_empty, String.empty_append]

/-- No version of the framework has a stub of its own for the routes. -/
theorem select_describer (wanted : Version) :
    select "inject/openapi" wanted = .ok describer.name :=
  select_of_unversioned (by decide) (by decide) wanted

theorem describer_mem : describer ∈ pages := List.mem_of_getElem? (i := 10) rfl

end Stub

/-! ## What is injected to describe the routes -/

/-- The text stands in the longer one. -/
def StandsIn (s text : String) : Prop := ∃ before after, text = before ++ s ++ after

theorem StandsIn.append_left {s text : String} (h : StandsIn s text) (before : String) :
    StandsIn s (before ++ text) := by
  obtain ⟨a, b, rfl⟩ := h
  exact ⟨before ++ a, b, by simp only [String.append_assoc]⟩

theorem StandsIn.append_right {s text : String} (h : StandsIn s text) (after : String) :
    StandsIn s (text ++ after) := by
  obtain ⟨a, b, rfl⟩ := h
  exact ⟨a, b ++ after, by simp only [String.append_assoc]⟩

namespace Task

/-- All values for the stub that describes the routes. -/
def openapiData (p : Project) (r : Reference) : Stub.Data :=
  Injection.commonData p ++ (openapiPlan p r).data

/-- An import as a line of a file. -/
def importLine (i : Go.Import) : String := "\t" ++ i.display ++ "\n"

/-- The parameters that the stub and the layout around it use. -/
def openapiParams : List Stub.Param :=
  [.goyaveImportPath, .symbolEnv, .resultEnv, .listSymbol, .routeRegistrer,
   .routeRegistrerImport]

theorem gives_openapiData (p : Project) (r : Reference) :
    (openapiData p r).Gives openapiParams := by
  intro q hq
  simp only [openapiParams, List.mem_cons, List.not_mem_nil, or_false] at hq
  rcases hq with rfl | rfl | rfl | rfl | rfl | rfl <;> exact ⟨_, rfl⟩

theorem mem_openapiParams {imports symbols body : List Stub.Item}
    (h : Stub.Injection.openapi = .filling imports symbols body) :
    ∀ q ∈ Stub.paramsAround imports symbols body, q ∈ openapiParams := by
  unfold Stub.Injection.openapi at h
  cases h
  decide

theorem isSet_importText (i : Go.Import) :
    (Stub.Value.text (importText (some i))).isSet = true := by
  have hne : i.display ≠ "" := by
    intro h
    have hl := congrArg String.toList h
    unfold Go.Import.display at hl
    split at hl <;> simp at hl
  unfold Stub.Value.isSet importText
  dsimp only
  rw [Bool.not_eq_true', ← Bool.not_eq_true, String.isEmpty_iff]
  exact hne

theorem importLine_standsIn {imports symbols body : List Stub.Item}
    (h : Stub.Injection.openapi = .filling imports symbols body) {p : Project} {r : Reference}
    {i : Go.Import} (hi : r.package = some i) {stub imported : String}
    (hf : Stub.fillBlock (openapiData p r) stub imports symbols body .imports = .ok imported) :
    StandsIn (importLine i) imported := by
  have hpath : (openapiData p r).get? .goyaveImportPath =
      some (.text p.framework.importPath) := rfl
  have himport : (openapiData p r).get? .routeRegistrerImport =
      some (.text (importText (some i))) := by
    rw [← hi]
    rfl
  unfold Stub.Injection.openapi at h
  cases h
  simp only [Stub.fillBlock, Stub.fillItems, Stub.Item.fill, Stub.fillLine, Stub.Piece.fill,
    Stub.say, hpath, himport, isSet_importText, if_true, Pure.pure, Except.pure, Bind.bind,
    Except.bind, Stub.Value.shown, Stub.endLine, String.append_empty] at hf
  cases hf
  -- The three imports that the stub itself needs stand in front.
  refine StandsIn.append_left ?_ _
  refine StandsIn.append_left ?_ _
  refine StandsIn.append_left ?_ _
  exact ⟨"", "", by rw [String.empty_append, String.append_empty]; rfl⟩

theorem source_openapiPlan (p : Project) (r : Reference) :
    ∃ before after,
      Injection.source p (openapiPlan p r) =
          .ok (before ++ Stub.describing r.value ++ after) ∧
        ∀ i, r.package = some i → StandsIn (importLine i) before := by
  obtain ⟨imports, symbols, body, h⟩ : ∃ imports symbols body,
      Stub.Injection.openapi = .filling imports symbols body := ⟨_, _, _, rfl⟩
  have hgives := (gives_openapiData p r).mono (mem_openapiParams h)
  obtain ⟨head, imported, between, functions, tail, himported, hfunctions, htext⟩ :=
    Stub.fill_around (e := Stub.describer) h hgives
  have hvalue : (openapiData p r).get? .routeRegistrer = some (.text r.value) := rfl
  rw [Stub.functions_of_describer h hvalue] at hfunctions
  cases hfunctions
  refine ⟨head ++ imported ++ between, tail, ?_, ?_⟩
  · exact Injection.source_of_fill Stub.describer_mem (Stub.select_describer _) htext
  · intro i hi
    exact ((importLine_standsIn h hi himported).append_left head).append_right between

end Task

/-! ## Capture -/

/-- The reference opens with a local name of the function that it is filled into. -/
def Reference.IsCaptured (r : Reference) : Prop :=
  ∃ names, Stub.localsAtRegistrer = some names ∧ r.lead ∈ names

/-- A function that registers the routes is filled into the function that describes them,
behind the import of its package. It is captured there just if it opens with the name
of the router. -/
theorem just_a_registrer_that_leads_with_router_is_captured {h : Host} {w : World}
    {p : Project} {r : Reference}
    (found : ((Resolve.routeRegistrer p.directory p.framework.importPath).perform h w).1 =
      .ok r) :
    r.IsPortable ∧
      (∃ before after,
        Injection.source p (Task.openapiPlan p r) =
            .ok (before ++ Stub.describing r.value ++ after) ∧
          ∀ i, r.package = some i → StandsIn (Task.importLine i) before) ∧
      (r.IsCaptured ↔ r.lead = "router") := by
  refine ⟨Resolve.isPortable_of_routeRegistrer found, Task.source_openapiPlan p r, ?_⟩
  unfold Reference.IsCaptured
  rw [Stub.localsAtRegistrer_eq]
  constructor
  · rintro ⟨names, hnames, hlead⟩
    cases hnames
    exact List.mem_singleton.mp hlead
  · intro hlead
    exact ⟨_, rfl, List.mem_singleton.mpr hlead⟩

/-! ### A project whose registrer is captured -/

namespace Sample

open Files (Store)

/-- A program that is started with the routes of its package of routes. -/
def routedText : String :=
  Stub.inLines
    ["package main",
     "",
     "import (",
     "\t\"goyave.dev/goyave/v5\"",
     "\t\"shop/http/router\"",
     ")",
     "",
     "func main() \x7b",
     "\tgoyave.Start(router.Register)",
     "\x7d"]

/-- The shop with a program. -/
def withProgram (bytes : List UInt8) : World :=
  ⟨⟨[(["shop"], .directory), (["shop", "main.go"], .file bytes false)]⟩, [], none, .empty, 0, []⟩

/-- The function that registers the routes of the shop. -/
def registrer : Reference := ⟨"router.Register", some ⟨none, "shop/http/router"⟩⟩

theorem place_program (bytes : List UInt8) :
    (withProgram bytes).store.place [] true "/shop/main.go" = .ok ["shop", "main.go"] := by
  have hparts : Path.parts "/shop/main.go" = ["shop", "main.go"] := by decide
  have habsolute : Path.isAbsolute "/shop/main.go" = true := by decide
  rw [Store.place_eq_walk (by decide) (by decide), hparts, habsolute]
  simp [Store.walk, Store.at?, withProgram]

theorem find_program (bytes : List UInt8) :
    (withProgram bytes).view.find "/shop/main.go" = .ok (.file bytes false) := by
  unfold Files.View.find
  rw [World.store_view, show (withProgram bytes).view.cwd = [] from rfl, place_program]
  simp [Store.at?, withProgram]

theorem sourceFiles_withProgram (bytes : List UInt8) :
    Scan.sourceFiles (withProgram bytes).view project.directory = .ok ["/shop/main.go"] := by
  have hnames : (withProgram bytes).store.namesIn ["shop"] = ["main.go"] := by
    simp [Store.namesIn, withProgram, Store.nameIn?]
  have hat : (withProgram bytes).store.at? ["shop"] = some .directory := by
    simp [Store.at?, withProgram]
  have hjoin : Path.join project.directory "main.go" = "/shop/main.go" := by decide
  have hsource : (Path.fileName? "/shop/main.go").bind Path.extension? = some "go" := by
    decide +kernel
  unfold Scan.sourceFiles Files.View.list
  rw [World.store_view, show (withProgram bytes).view.cwd = [] from rfl, place_directory hat]
  dsimp only
  rw [hat, hnames]
  simp [Store.at?, withProgram, hjoin, Scan.isSource, hsource]

/-- What the analysis makes of the program. -/
def found? : Option Reference := do
  let s ← (Go.Source.parse "/shop/main.go" routedText).toOption
  let site ← (Scan.sitesIn (Resolve.startsFramework project.framework.importPath) s).head?
  (Resolve.ofSite site).toOption

theorem found?_eq : found? = some registrer := by
  unfold found? Go.Source.parse routedText
  rw [Stub.toList_inLines]
  decide +kernel

/-- The shop with the program. -/
def routed : World := withProgram (Files.View.encode routedText)

/-- The program starts the framework with the function that registers the routes. -/
theorem starts_routed : ∃ s site more, Go.Source.parse "/shop/main.go" routedText = .ok s ∧
    Scan.sitesIn (Resolve.startsFramework project.framework.importPath) s = site :: more ∧
    Resolve.ofSite site = .ok registrer := by
  have hfound := found?_eq
  unfold found? at hfound
  cases hs : Go.Source.parse "/shop/main.go" routedText with
  | error p =>
    rw [hs] at hfound
    cases hfound
  | ok s =>
    cases hsites : Scan.sitesIn (Resolve.startsFramework project.framework.importPath) s with
    | nil =>
      rw [hs] at hfound
      simp [hsites, Except.toOption] at hfound
    | cons site more =>
      cases hsite : Resolve.ofSite site with
      | error e => simp [hs, hsites, hsite, Except.toOption] at hfound
      | ok r =>
        simp [hs, hsites, hsite, Except.toOption] at hfound
        exact ⟨s, site, more, rfl, hsites, hsite.trans (congrArg Except.ok hfound)⟩

theorem routeRegistrer_routed :
    ((Resolve.routeRegistrer project.directory project.framework.importPath).perform host
      routed).1 = .ok registrer := by
  obtain ⟨s, site, more, hs, hsites, hsite⟩ := starts_routed
  have hnext := Scan.next_start_of_first (sourceFiles_withProgram _)
    (Files.View.readText_of_find (find_program _)) hs hsites
  rw [Resolve.result_routeRegistrer]
  unfold routed
  rw [hnext]
  exact hsite

theorem lead_registrer : registrer.lead = "router" := by decide

theorem just_the_router_of_the_shop_is_captured :
    ((Resolve.routeRegistrer project.directory project.framework.importPath).perform host
      routed).1 = .ok registrer ∧
      registrer.IsPortable ∧
      (∃ before after,
        Injection.source project (Task.openapiPlan project registrer) =
            .ok (before ++ Stub.describing registrer.value ++ after) ∧
          ∀ i, registrer.package = some i → StandsIn (Task.importLine i) before) ∧
      (registrer.IsCaptured ↔ registrer.lead = "router") :=
  ⟨routeRegistrer_routed, just_a_registrer_that_leads_with_router_is_captured routeRegistrer_routed⟩

/-- The registrer of the shop is a function of a package that it imports, and in the injected
file it is a field of a local. -/
theorem the_registrer_of_the_shop_is_captured :
    ((Resolve.routeRegistrer project.directory project.framework.importPath).perform host
      routed).1 = .ok registrer ∧
      (∃ before after,
        Injection.source project (Task.openapiPlan project registrer) =
            .ok (before ++ Stub.describing registrer.value ++ after) ∧
          StandsIn (Task.importLine ⟨none, "shop/http/router"⟩) before) ∧
      registrer.IsCaptured := by
  obtain ⟨before, after, htext, himport⟩ := Task.source_openapiPlan project registrer
  refine ⟨routeRegistrer_routed, ⟨before, after, htext, himport _ rfl⟩, ?_⟩
  refine ⟨_, Stub.localsAtRegistrer_eq, ?_⟩
  rw [lead_registrer]
  exact List.mem_cons_self

end Sample

end Graft
