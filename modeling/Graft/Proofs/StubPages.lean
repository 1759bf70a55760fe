-- The pages of all stubs. The source of each stub is the spelling of its
-- page, and a page that fills the layout stands in the blocks of it.
import Graft.Proofs.Pages

namespace Graft.Stub

/-! ## Files of the project -/

namespace Scaffold

def controller : List Item :=
  [.line [.text "package ", .hole .packageName],
   gap,
   say "import (",
   say "\t\"net/http\"",
   gap,
   .line [.text "\t\"", .hole .goyaveImportPath, .text "\""],
   say ")",
   gap,
   .line [.text "// Index returns the list of ", .hole .name, .text " resources."],
   say "func Index(response *goyave.Response, request *goyave.Request) \x7b",
   say "\tresponse.Status(http.StatusNotImplemented)",
   say "\x7d",
   gap,
   .line [.text "// Show returns a single ", .hole .name, .text " resource."],
   say "func Show(response *goyave.Response, request *goyave.Request) \x7b",
   say "\tresponse.Status(http.StatusNotImplemented)",
   say "\x7d",
   gap,
   .line [.text "// Store creates a new ", .hole .name, .text " resource."],
   say "func Store(response *goyave.Response, request *goyave.Request) \x7b",
   say "\tresponse.Status(http.StatusNotImplemented)",
   say "\x7d",
   gap,
   .line [.text "// Update replaces an existing ", .hole .name, .text " resource."],
   say "func Update(response *goyave.Response, request *goyave.Request) \x7b",
   say "\tresponse.Status(http.StatusNotImplemented)",
   say "\x7d",
   gap,
   .line [.text "// Destroy deletes an existing ", .hole .name, .text " resource."],
   say "func Destroy(response *goyave.Response, request *goyave.Request) \x7b",
   say "\tresponse.Status(http.StatusNotImplemented)",
   say "\x7d"]

/-- A controller that answers with a text. -/
def controllerFour : List Item :=
  [.line [.text "package ", .hole .packageName],
   gap,
   say "import (",
   say "\t\"net/http\"",
   gap,
   .line [.text "\t\"", .hole .goyaveImportPath, .text "\""],
   say ")",
   gap,
   .line [.text "// Index returns the list of ", .hole .name, .text " resources."],
   say "func Index(response *goyave.Response, request *goyave.Request) \x7b",
   .line [.text "\tresponse.String(http.StatusNotImplemented, \"", .hole .name,
     .text ": not implemented\")"],
   say "\x7d",
   gap,
   .line [.text "// Show returns a single ", .hole .name, .text " resource."],
   say "func Show(response *goyave.Response, request *goyave.Request) \x7b",
   .line [.text "\tresponse.String(http.StatusNotImplemented, \"", .hole .name,
     .text ": not implemented\")"],
   say "\x7d",
   gap,
   .line [.text "// Store creates a new ", .hole .name, .text " resource."],
   say "func Store(response *goyave.Response, request *goyave.Request) \x7b",
   .line [.text "\tresponse.String(http.StatusNotImplemented, \"", .hole .name,
     .text ": not implemented\")"],
   say "\x7d",
   gap,
   .line [.text "// Update replaces an existing ", .hole .name, .text " resource."],
   say "func Update(response *goyave.Response, request *goyave.Request) \x7b",
   .line [.text "\tresponse.String(http.StatusNotImplemented, \"", .hole .name,
     .text ": not implemented\")"],
   say "\x7d",
   gap,
   .line [.text "// Destroy deletes an existing ", .hole .name, .text " resource."],
   say "func Destroy(response *goyave.Response, request *goyave.Request) \x7b",
   .line [.text "\tresponse.String(http.StatusNotImplemented, \"", .hole .name,
     .text ": not implemented\")"],
   say "\x7d"]

def model : List Item :=
  [say "package model",
   gap,
   say "import (",
   say "\t\"gorm.io/gorm\"",
   .line [.text "\t\"", .hole .goyaveImportPath, .text "/database\""],
   say ")",
   gap,
   say "func init() \x7b",
   .line [.text "\tdatabase.RegisterModel(&", .hole .name, .text "\x7b\x7d)"],
   say "\x7d",
   gap,
   .line [.text "// ", .hole .name, .text " model"],
   .line [.text "type ", .hole .name, .text " struct \x7b"],
   say "\tgorm.Model",
   say "\x7d"]

/-- A model that lists its common columns. -/
def modelFour : List Item :=
  [say "package model",
   gap,
   say "import (",
   say "\t\"time\"",
   gap,
   say "\t\"gorm.io/gorm\"",
   .line [.text "\t\"", .hole .goyaveImportPath, .text "/database\""],
   say ")",
   gap,
   say "func init() \x7b",
   .line [.text "\tdatabase.RegisterModel(&", .hole .name, .text "\x7b\x7d)"],
   say "\x7d",
   gap,
   .line [.text "// ", .hole .name, .text " model"],
   .line [.text "type ", .hole .name, .text " struct \x7b"],
   say "\tID        uint `gorm:\"primarykey\"`",
   say "\tCreatedAt time.Time",
   say "\tUpdatedAt time.Time",
   say "\tDeletedAt gorm.DeletedAt `gorm:\"index\"`",
   say "\x7d"]

def middleware : List Item :=
  [say "package middleware",
   gap,
   say "import (",
   .line [.text "\t\"", .hole .goyaveImportPath, .text "\""],
   say ")",
   gap,
   .line [.text "// ", .hole .name, .text " middleware"],
   .line [.text "func ", .hole .name, .text "(next goyave.Handler) goyave.Handler \x7b"],
   say "\treturn func(response *goyave.Response, request *goyave.Request) \x7b",
   say "\t\tnext(response, request)",
   say "\t\x7d",
   say "\x7d"]

/-- A middleware that says where its work goes. -/
def middlewareFour : List Item :=
  [say "package middleware",
   gap,
   say "import (",
   .line [.text "\t\"", .hole .goyaveImportPath, .text "\""],
   say ")",
   gap,
   .line [.text "// ", .hole .name, .text " middleware."],
   .line [.text "func ", .hole .name, .text "(next goyave.Handler) goyave.Handler \x7b"],
   say "\treturn func(response *goyave.Response, request *goyave.Request) \x7b",
   say "\t\t// Do something before the request is handled",
   say "\t\tnext(response, request)",
   say "\t\x7d",
   say "\x7d"]

end Scaffold

/-! ## Injected sources -/

def layout : List Item :=
  [say "// Code generated by gyv. DO NOT EDIT.",
   say "// This file is removed automatically once the project has been built.",
   gap,
   say "package main",
   gap,
   say "import (",
   say "\tgyvbase64 \"encoding/base64\"",
   say "\tgyvjson \"encoding/json\"",
   say "\tgyvfmt \"fmt\"",
   say "\tgyvos \"os\"",
   .slot .imports,
   say ")",
   gap,
   say "type gyvInjectResult struct \x7b",
   say "\tData    *string           `json:\"data,omitempty\"`",
   say "\tError   *string           `json:\"error,omitempty\"`",
   say "\tSymbols map[string]string `json:\"symbols,omitempty\"`",
   say "\x7d",
   gap,
   say "var gyvInjectSymbols = map[string]interface\x7b\x7d\x7b",
   .slot .symbols,
   say "\x7d",
   .slot .body,
   gap,
   say "// Go runs a package's init() functions in file name order. gyv names this",
   say "// file so that it sorts after the project's sources: their init() functions",
   say "// have run by the time the requested symbol is invoked, and this one exits",
   say "// the process without returning to main.",
   say "func init() \x7b",
   .line [.text "\tsymbol := gyvos.Getenv(\"", .hole .symbolEnv, .text "\")"],
   say "\tif symbol == \"\" \x7b",
   say "\t\treturn",
   say "\t\x7d",
   gap,
   say "\tout, err := gyvjson.Marshal(gyvInjectInvoke(symbol))",
   say "\tif err == nil \x7b",
   .line [.text "\t\terr = gyvos.WriteFile(gyvos.Getenv(\"", .hole .resultEnv,
     .text "\"), out, 0600)"],
   say "\t\x7d",
   say "\tif err != nil \x7b",
   say "\t\tgyvfmt.Fprintln(gyvos.Stderr, err)",
   say "\t\tgyvos.Exit(2)",
   say "\t\x7d",
   say "\tgyvos.Exit(0)",
   say "\x7d",
   gap,
   say "func gyvInjectInvoke(name string) (result gyvInjectResult) \x7b",
   say "\tdefer func() \x7b",
   say "\t\tif r := recover(); r != nil \x7b",
   say "\t\t\tresult = gyvInjectMessage(gyvfmt.Sprintf(\"panic: %v\", r))",
   say "\t\t\x7d",
   say "\t\x7d()",
   gap,
   .line [.text "\tif name == \"", .hole .listSymbol, .text "\" \x7b"],
   say "\t\tsymbols := make(map[string]string, len(gyvInjectSymbols))",
   say "\t\tfor n, s := range gyvInjectSymbols \x7b",
   say "\t\t\tsymbols[n] = gyvfmt.Sprintf(\"%T\", s)",
   say "\t\t\x7d",
   say "\t\treturn gyvInjectResult\x7bSymbols: symbols\x7d",
   say "\t\x7d",
   gap,
   say "\tswitch fn := gyvInjectSymbols[name].(type) \x7b",
   say "\tcase func() error:",
   say "\t\tif err := fn(); err != nil \x7b",
   say "\t\t\treturn gyvInjectMessage(err.Error())",
   say "\t\t\x7d",
   say "\t\treturn gyvInjectResult\x7b\x7d",
   say "\tcase func() ([]byte, error):",
   say "\t\tdata, err := fn()",
   say "\t\tif err != nil \x7b",
   say "\t\t\treturn gyvInjectMessage(err.Error())",
   say "\t\t\x7d",
   say "\t\tencoded := gyvbase64.StdEncoding.EncodeToString(data)",
   say "\t\treturn gyvInjectResult\x7bData: &encoded\x7d",
   say "\tdefault:",
   say "\t\treturn gyvInjectMessage(gyvfmt.Sprintf(\"symbol %q cannot be invoked\", name))",
   say "\t\x7d",
   say "\x7d",
   gap,
   say "func gyvInjectMessage(message string) gyvInjectResult \x7b",
   say "\treturn gyvInjectResult\x7bError: &message\x7d",
   say "\x7d"]

namespace Injection

def migrate : Content :=
  .filling
    [.line [.text "\tgyvconfig \"", .hole .goyaveImportPath, .text "/config\""],
     .line [.text "\tgyvdatabase \"", .hole .goyaveImportPath, .text "/database\""],
     .line [.text "\t_ \"", .hole .modelImportPath, .text "\""]]
    [say "\t\"Migrate\": Migrate,"]
    [gap,
     say "// Migrate runs the automatic migrations of every registered model.",
     say "func Migrate() error \x7b",
     say "\tif err := gyvconfig.Load(); err != nil \x7b",
     say "\t\treturn err",
     say "\t\x7d",
     say "\tdefer gyvdatabase.Close()",
     gap,
     say "\tgyvdatabase.Migrate()",
     say "\treturn nil",
     say "\x7d"]

/-- Runs the selected seeders. -/
def seed : Content :=
  .filling
    [.line [.text "\tgyvconfig \"", .hole .goyaveImportPath, .text "/config\""],
     .line [.text "\tgyvdatabase \"", .hole .goyaveImportPath, .text "/database\""],
     .line [.text "\t", .hole .seederPackage, .text " \"", .hole .seederImportPath, .text "\""]]
    [say "\t\"Seed\": Seed,"]
    [gap,
     say "// Seed runs the selected seeders in order.",
     say "func Seed() error \x7b",
     say "\tif err := gyvconfig.Load(); err != nil \x7b",
     say "\t\treturn err",
     say "\t\x7d",
     say "\tdefer gyvdatabase.Close()",
     gap,
     .each .seeders [.text "\t", .hole .seederPackage, .text ".", .entry, .text "()"],
     say "\treturn nil",
     say "\x7d"]

def clear : Content :=
  .filling
    [.line [.text "\tgyvconfig \"", .hole .goyaveImportPath, .text "/config\""],
     .line [.text "\tgyvdatabase \"", .hole .goyaveImportPath, .text "/database\""],
     .line [.text "\t_ \"", .hole .modelImportPath, .text "\""]]
    [say "\t\"DBClear\": DBClear,"]
    [gap,
     say "// DBClear deletes all the records of every registered model.",
     say "func DBClear() error \x7b",
     say "\tif err := gyvconfig.Load(); err != nil \x7b",
     say "\t\treturn err",
     say "\t\x7d",
     say "\tdefer gyvdatabase.Close()",
     gap,
     say "\tdb := gyvdatabase.GetConnection()",
     say "\tfor _, model := range gyvdatabase.GetRegisteredModels() \x7b",
     say "\t\tif err := db.Unscoped().Where(\"1 = 1\").Delete(model).Error; err != nil \x7b",
     say "\t\t\treturn err",
     say "\t\t\x7d",
     say "\t\x7d",
     say "\treturn nil",
     say "\x7d"]

/-- Describes the routes. -/
def openapi : Content :=
  .filling
    [.line [.text "\tgyvgoyave \"", .hole .goyaveImportPath, .text "\""],
     .line [.text "\tgyvconfig \"", .hole .goyaveImportPath, .text "/config\""],
     say "\tgyvopenapi3 \"goyave.dev/openapi3\"",
     .whenSet .routeRegistrerImport [.text "\t", .hole .routeRegistrerImport]]
    [say "\t\"GenerateOpenAPI\": GenerateOpenAPI,"]
    [gap,
     say "// GenerateOpenAPI builds the main router and serializes its OpenAPI 3 specification.",
     say "func GenerateOpenAPI() ([]byte, error) \x7b",
     say "\tif err := gyvconfig.Load(); err != nil \x7b",
     say "\t\treturn nil, err",
     say "\t\x7d",
     gap,
     say "\trouter := gyvgoyave.NewRouter()",
     .line [.text "\t", .hole .routeRegistrer, .text "(router)"],
     gap,
     say "\tspec := gyvopenapi3.NewGenerator().Generate(router)",
     say "\treturn gyvjson.MarshalIndent(spec, \"\", \"  \")",
     say "\x7d"]

end Injection

/-! ## All pages -/

/-- The pages of the catalog. -/
def pages : List Page :=
  [⟨"controller/default.go.stub", .whole Scaffold.controller⟩,
   ⟨"controller/v4.0.0.go.stub", .whole Scaffold.controllerFour⟩,
   ⟨"model/default.go.stub", .whole Scaffold.model⟩,
   ⟨"model/v4.0.0.go.stub", .whole Scaffold.modelFour⟩,
   ⟨"middleware/default.go.stub", .whole Scaffold.middleware⟩,
   ⟨"middleware/v4.0.0-rc1.go.stub", .whole Scaffold.middlewareFour⟩,
   ⟨"inject/runtime.go.stub", .whole layout⟩,
   ⟨"inject/migrate/default.go.stub", Injection.migrate⟩,
   ⟨"inject/seed/default.go.stub", Injection.seed⟩,
   ⟨"inject/db_clear/default.go.stub", Injection.clear⟩,
   ⟨"inject/openapi/default.go.stub", Injection.openapi⟩]

/-- The text of a page filled with the data. -/
def Page.fill (d : Data) (p : Page) : Except Undefined String :=
  match p.content with
  | .whole items => fillItems d p.name noBlocks 1 items
  | .filling imports symbols body =>
    fillItems d layoutName (fillBlock d p.name imports symbols body) 1 layout

/-- The stubs are what the pages spell. -/
theorem catalog_eq : catalog = pages.map Page.entry := by
  rfl

end Graft.Stub
