-- The sources that are injected, as they are read. Where the paths, names and
-- texts that are given to a stub can stand in Go source, the text is a source
-- of the main package with the imports of the layout, of the stub and of its
-- parameters, and it calls what the parameters name.
import Graft.Proofs.StubBlocks

namespace Graft

open Go Stub

/-! ## Rendered stubs -/

section Rendered

variable {d : Data}

/-- The stub of a task is rendered, and the text is read as a source that states this. -/
theorem render_reads {t : Task} {c : Content} {own : List Import} {calls : List Site}
    (hc : t.stub.content = .filling c.imports c.symbols c.body)
    (h : BlocksRead d c.imports c.symbols c.body own calls) (hd : d.Gives runtimeParams)
    (hp : ∀ p ∈ runtimeParams, (d.shown p).toList.all isPlain = true) (path : String) :
    ∃ text s, render t.stub.name d = .ok text ∧ Source.parse path text = .ok s ∧
      SourceStates s (runtimeImports ++ own) calls := by
  obtain ⟨text, s, hfill, hparse, hstates⟩ := fill_reads hc h hd hp path
  exact ⟨text, s, render_of_fill t.stub_mem hfill, hparse, hstates⟩

/-- Where the texts of the layout are plain and what a stub is given can be written, each of the
four stubs is rendered to a text that is read as a source of the main package. Its imports are
those of the layout, of the stub and of the parameters, in this order; its calls hold those of the
seeders in their order, or the call of the function for the routes with the router. -/
theorem injected_sources_say_what_they_are_given (d : Data) (path : String)
    (hd : d.Gives runtimeParams)
    (hp : ∀ p ∈ runtimeParams, (d.shown p).toList.all isPlain = true) :
    (∀ t ∈ [Task.migrate, Task.clear], d.NamesModels →
        ∃ text s, render t.stub.name d = .ok text ∧ Source.parse path text = .ok s ∧
          SourceStates s (runtimeImports ++ modelImports d) []) ∧
      (∀ names, d.NamesSeeders →
        ∃ text s, render (Task.seed names).stub.name d = .ok text ∧
          Source.parse path text = .ok s ∧
          SourceStates s (runtimeImports ++ seederImports d) (seederCalls d)) ∧
      ∀ given, d.NamesRoutes given →
        ∃ text s callee, render Task.openapi.stub.name d = .ok text ∧
          Source.parse path text = .ok s ∧ callee.display = d.shown .routeRegistrer ∧
          SourceStates s (runtimeImports ++ routeImports d given)
            [(callee, [.ident "router"])] := by
  refine ⟨?_, ?_, ?_⟩
  · intro t ht h
    simp only [List.mem_cons, List.not_mem_nil, or_false] at ht
    rcases ht with rfl | rfl
    · exact render_reads rfl (blocksRead_models h (c := Injection.migrate) (by simp)) hd hp path
    · exact render_reads rfl (blocksRead_models h (c := Injection.clear) (by simp)) hd hp path
  · intro names h
    exact render_reads rfl (blocksRead_seeders h) hd hp path
  · intro given h
    obtain ⟨callee, hcallee, hblocks⟩ := blocksRead_routes h
    obtain ⟨text, s, hrender, hparse, hstates⟩ := render_reads (t := .openapi) rfl hblocks hd hp path
    exact ⟨text, s, callee, hrender, hparse, hcallee, hstates⟩

end Rendered

/-! ## The shop -/

namespace Sample

/-- What the shop gives to the stubs, with this path of the framework and this variable for
the symbol. -/
def values (framework symbol : String) : Data :=
  [(.goyaveImportPath, .text framework), (.symbolEnv, .text symbol),
   (.resultEnv, .text Artifact.resultVariable), (.listSymbol, .text Artifact.tableSymbol),
   (.modelImportPath, .text "shop/database/model"),
   (.seederImportPath, .text "shop/database/seeders"), (.seederPackage, .text "seeders"),
   (.seeders, .list ["Users", "Orders"]), (.routeRegistrer, .text "routes.Register"),
   (.routeRegistrerImport, .text "\"shop/http/routes\"")]

theorem gives_values (framework symbol : String) : (values framework symbol).Gives
    [.goyaveImportPath, .symbolEnv, .resultEnv, .listSymbol, .modelImportPath, .seederImportPath,
      .seederPackage, .seeders, .routeRegistrer, .routeRegistrerImport] := by
  intro p hp
  simp only [List.mem_cons, List.not_mem_nil, or_false] at hp
  rcases hp with rfl | rfl | rfl | rfl | rfl | rfl | rfl | rfl | rfl | rfl <;> exact ⟨_, rfl⟩

/-- The names of the shop can be written. -/
theorem names_values (framework symbol : String) :
    IsIdentifier ((values framework symbol).shown .seederPackage) ∧
      (∀ s ∈ (values framework symbol).entries .seeders, IsIdentifier s) ∧
      (∃ r : Registrer, r.IsNamed ∧
        r.expr.display = (values framework symbol).shown .routeRegistrer) ∧
      ShowsImport (values framework symbol) .routeRegistrerImport [⟨none, "shop/http/routes"⟩] := by
  have hnames : IsIdentifier "seeders" ∧ (∀ s ∈ ["Users", "Orders"], IsIdentifier s) ∧
      IsIdentifier "routes" ∧ IsIdentifier "Register" := by decide
  have hpath : IsImportPath "shop/http/routes" := by decide
  obtain ⟨hpackage, hseeders, hroutes, hregister⟩ := hnames
  refine ⟨hpackage, hseeders, ⟨⟨"routes", some "Register", false⟩, ⟨hroutes, ?_⟩, ?_⟩,
    .one rfl rfl ⟨(fun _ h => nomatch h), hpath⟩ ?_⟩
  · rintro _ ⟨rfl⟩
    exact hregister
  · change _ = "routes.Register"
    decide
  · decide

/-- The framework and the variable for the symbol as the shop has them. -/
def shopValues : Data := values "goyave.dev/goyave/v5" Artifact.symbolVariable

/-- The stubs that the shop fills say what the shop gives them. -/
theorem the_sources_of_the_shop_say_what_it_gives :
    (∃ text s, render Task.migrate.stub.name shopValues = .ok text ∧
        Source.parse "/shop/main.go" text = .ok s ∧
        SourceStates s (runtimeImports ++
          [⟨some "gyvconfig", "goyave.dev/goyave/v5/config"⟩,
           ⟨some "gyvdatabase", "goyave.dev/goyave/v5/database"⟩,
           ⟨some "_", "shop/database/model"⟩]) []) ∧
      (∃ text s, render (Task.seed ["Users", "Orders"]).stub.name shopValues = .ok text ∧
        Source.parse "/shop/main.go" text = .ok s ∧
        SourceStates s (runtimeImports ++
          [⟨some "gyvconfig", "goyave.dev/goyave/v5/config"⟩,
           ⟨some "gyvdatabase", "goyave.dev/goyave/v5/database"⟩,
           ⟨some "seeders", "shop/database/seeders"⟩])
          [(.selector (.ident "seeders") "Users", []),
           (.selector (.ident "seeders") "Orders", [])]) ∧
      ∃ text s callee, render Task.openapi.stub.name shopValues = .ok text ∧
        Source.parse "/shop/main.go" text = .ok s ∧ callee.display = "routes.Register" ∧
        SourceStates s (runtimeImports ++
          [⟨some "gyvgoyave", "goyave.dev/goyave/v5"⟩,
           ⟨some "gyvconfig", "goyave.dev/goyave/v5/config"⟩,
           ⟨some "gyvopenapi3", "goyave.dev/openapi3"⟩, ⟨none, "shop/http/routes"⟩])
          [(callee, [.ident "router"])] := by
  have hgives := gives_values "goyave.dev/goyave/v5" Artifact.symbolVariable
  obtain ⟨hpackage, hseeders, hregistrer, himport⟩ :=
    names_values "goyave.dev/goyave/v5" Artifact.symbolVariable
  have hpath : ∀ p ∈ [Param.goyaveImportPath, .modelImportPath, .seederImportPath],
      IsImportPath (shopValues.shown p) := by decide
  have hframework := hpath .goyaveImportPath (by decide)
  obtain ⟨hmodels, hseed, hroutes⟩ := injected_sources_say_what_they_are_given shopValues
    "/shop/main.go" (hgives.mono (by decide)) (by decide)
  refine ⟨?_, ?_, ?_⟩
  · exact hmodels .migrate (by simp) ⟨hgives.mono (by decide), hframework, hpath _ (by decide)⟩
  · exact hseed _ ⟨hgives.mono (by decide), hframework, hpath _ (by decide), hpackage, hseeders⟩
  · exact hroutes _ ⟨hgives.mono (by decide), hframework, hregistrer, himport⟩

end Sample

end Graft
