-- The texts of the stubs, line by line. The first ones are what a developer
-- starts a file of the project from. The others are injected: they fill the
-- blocks of a layout with their imports, their entry in the table of symbols,
-- and their functions.

namespace Graft.Stub.Texts

/-! ## Files of the project -/

def controller : List String :=
  ["package \x7b\x7b PackageName \x7d\x7d",
   "",
   "import (",
   "\t\"net/http\"",
   "",
   "\t\"\x7b\x7b GoyaveImportPath \x7d\x7d\"",
   ")",
   "",
   "// Index returns the list of \x7b\x7b Name \x7d\x7d resources.",
   "func Index(response *goyave.Response, request *goyave.Request) \x7b",
   "\tresponse.Status(http.StatusNotImplemented)",
   "\x7d",
   "",
   "// Show returns a single \x7b\x7b Name \x7d\x7d resource.",
   "func Show(response *goyave.Response, request *goyave.Request) \x7b",
   "\tresponse.Status(http.StatusNotImplemented)",
   "\x7d",
   "",
   "// Store creates a new \x7b\x7b Name \x7d\x7d resource.",
   "func Store(response *goyave.Response, request *goyave.Request) \x7b",
   "\tresponse.Status(http.StatusNotImplemented)",
   "\x7d",
   "",
   "// Update replaces an existing \x7b\x7b Name \x7d\x7d resource.",
   "func Update(response *goyave.Response, request *goyave.Request) \x7b",
   "\tresponse.Status(http.StatusNotImplemented)",
   "\x7d",
   "",
   "// Destroy deletes an existing \x7b\x7b Name \x7d\x7d resource.",
   "func Destroy(response *goyave.Response, request *goyave.Request) \x7b",
   "\tresponse.Status(http.StatusNotImplemented)",
   "\x7d"]

/-- A controller that answers with a text. -/
def controllerFour : List String :=
  ["package \x7b\x7b PackageName \x7d\x7d",
   "",
   "import (",
   "\t\"net/http\"",
   "",
   "\t\"\x7b\x7b GoyaveImportPath \x7d\x7d\"",
   ")",
   "",
   "// Index returns the list of \x7b\x7b Name \x7d\x7d resources.",
   "func Index(response *goyave.Response, request *goyave.Request) \x7b",
   "\tresponse.String(http.StatusNotImplemented, \"\x7b\x7b Name \x7d\x7d: not implemented\")",
   "\x7d",
   "",
   "// Show returns a single \x7b\x7b Name \x7d\x7d resource.",
   "func Show(response *goyave.Response, request *goyave.Request) \x7b",
   "\tresponse.String(http.StatusNotImplemented, \"\x7b\x7b Name \x7d\x7d: not implemented\")",
   "\x7d",
   "",
   "// Store creates a new \x7b\x7b Name \x7d\x7d resource.",
   "func Store(response *goyave.Response, request *goyave.Request) \x7b",
   "\tresponse.String(http.StatusNotImplemented, \"\x7b\x7b Name \x7d\x7d: not implemented\")",
   "\x7d",
   "",
   "// Update replaces an existing \x7b\x7b Name \x7d\x7d resource.",
   "func Update(response *goyave.Response, request *goyave.Request) \x7b",
   "\tresponse.String(http.StatusNotImplemented, \"\x7b\x7b Name \x7d\x7d: not implemented\")",
   "\x7d",
   "",
   "// Destroy deletes an existing \x7b\x7b Name \x7d\x7d resource.",
   "func Destroy(response *goyave.Response, request *goyave.Request) \x7b",
   "\tresponse.String(http.StatusNotImplemented, \"\x7b\x7b Name \x7d\x7d: not implemented\")",
   "\x7d"]

def model : List String :=
  ["package model",
   "",
   "import (",
   "\t\"gorm.io/gorm\"",
   "\t\"\x7b\x7b GoyaveImportPath \x7d\x7d/database\"",
   ")",
   "",
   "func init() \x7b",
   "\tdatabase.RegisterModel(&\x7b\x7b Name \x7d\x7d\x7b\x7d)",
   "\x7d",
   "",
   "// \x7b\x7b Name \x7d\x7d model",
   "type \x7b\x7b Name \x7d\x7d struct \x7b",
   "\tgorm.Model",
   "\x7d"]

/-- A model that lists its common columns. -/
def modelFour : List String :=
  ["package model",
   "",
   "import (",
   "\t\"time\"",
   "",
   "\t\"gorm.io/gorm\"",
   "\t\"\x7b\x7b GoyaveImportPath \x7d\x7d/database\"",
   ")",
   "",
   "func init() \x7b",
   "\tdatabase.RegisterModel(&\x7b\x7b Name \x7d\x7d\x7b\x7d)",
   "\x7d",
   "",
   "// \x7b\x7b Name \x7d\x7d model",
   "type \x7b\x7b Name \x7d\x7d struct \x7b",
   "\tID        uint `gorm:\"primarykey\"`",
   "\tCreatedAt time.Time",
   "\tUpdatedAt time.Time",
   "\tDeletedAt gorm.DeletedAt `gorm:\"index\"`",
   "\x7d"]

def middleware : List String :=
  ["package middleware",
   "",
   "import (",
   "\t\"\x7b\x7b GoyaveImportPath \x7d\x7d\"",
   ")",
   "",
   "// \x7b\x7b Name \x7d\x7d middleware",
   "func \x7b\x7b Name \x7d\x7d(next goyave.Handler) goyave.Handler \x7b",
   "\treturn func(response *goyave.Response, request *goyave.Request) \x7b",
   "\t\tnext(response, request)",
   "\t\x7d",
   "\x7d"]

/-- A middleware that says where its work goes. -/
def middlewareFour : List String :=
  ["package middleware",
   "",
   "import (",
   "\t\"\x7b\x7b GoyaveImportPath \x7d\x7d\"",
   ")",
   "",
   "// \x7b\x7b Name \x7d\x7d middleware.",
   "func \x7b\x7b Name \x7d\x7d(next goyave.Handler) goyave.Handler \x7b",
   "\treturn func(response *goyave.Response, request *goyave.Request) \x7b",
   "\t\t// Do something before the request is handled",
   "\t\tnext(response, request)",
   "\t\x7d",
   "\x7d"]

/-! ## Injected sources -/

/-- The layout that all injected sources share. When the program starts, it looks for a
request in its environment, answers it into a file, and ends before the program itself
begins. -/
def runtime : List String :=
  ["// Code generated by gyv. DO NOT EDIT.",
   "// This file is removed automatically once the project has been built.",
   "",
   "package main",
   "",
   "import (",
   "\tgyvbase64 \"encoding/base64\"",
   "\tgyvjson \"encoding/json\"",
   "\tgyvfmt \"fmt\"",
   "\tgyvos \"os\"",
   "\x7b% block imports %\x7d\x7b% endblock %\x7d",
   ")",
   "",
   "type gyvInjectResult struct \x7b",
   "\tData    *string           `json:\"data,omitempty\"`",
   "\tError   *string           `json:\"error,omitempty\"`",
   "\tSymbols map[string]string `json:\"symbols,omitempty\"`",
   "\x7d",
   "",
   "var gyvInjectSymbols = map[string]interface\x7b\x7d\x7b",
   "\x7b% block symbols %\x7d\x7b% endblock %\x7d",
   "\x7d",
   "\x7b% block body %\x7d\x7b% endblock %\x7d",
   "",
   "// Go runs a package's init() functions in file name order. gyv names this",
   "// file so that it sorts after the project's sources: their init() functions",
   "// have run by the time the requested symbol is invoked, and this one exits",
   "// the process without returning to main.",
   "func init() \x7b",
   "\tsymbol := gyvos.Getenv(\"\x7b\x7b SymbolEnv \x7d\x7d\")",
   "\tif symbol == \"\" \x7b",
   "\t\treturn",
   "\t\x7d",
   "",
   "\tout, err := gyvjson.Marshal(gyvInjectInvoke(symbol))",
   "\tif err == nil \x7b",
   "\t\terr = gyvos.WriteFile(gyvos.Getenv(\"\x7b\x7b ResultEnv \x7d\x7d\"), out, 0600)",
   "\t\x7d",
   "\tif err != nil \x7b",
   "\t\tgyvfmt.Fprintln(gyvos.Stderr, err)",
   "\t\tgyvos.Exit(2)",
   "\t\x7d",
   "\tgyvos.Exit(0)",
   "\x7d",
   "",
   "func gyvInjectInvoke(name string) (result gyvInjectResult) \x7b",
   "\tdefer func() \x7b",
   "\t\tif r := recover(); r != nil \x7b",
   "\t\t\tresult = gyvInjectMessage(gyvfmt.Sprintf(\"panic: %v\", r))",
   "\t\t\x7d",
   "\t\x7d()",
   "",
   "\tif name == \"\x7b\x7b ListSymbol \x7d\x7d\" \x7b",
   "\t\tsymbols := make(map[string]string, len(gyvInjectSymbols))",
   "\t\tfor n, s := range gyvInjectSymbols \x7b",
   "\t\t\tsymbols[n] = gyvfmt.Sprintf(\"%T\", s)",
   "\t\t\x7d",
   "\t\treturn gyvInjectResult\x7bSymbols: symbols\x7d",
   "\t\x7d",
   "",
   "\tswitch fn := gyvInjectSymbols[name].(type) \x7b",
   "\tcase func() error:",
   "\t\tif err := fn(); err != nil \x7b",
   "\t\t\treturn gyvInjectMessage(err.Error())",
   "\t\t\x7d",
   "\t\treturn gyvInjectResult\x7b\x7d",
   "\tcase func() ([]byte, error):",
   "\t\tdata, err := fn()",
   "\t\tif err != nil \x7b",
   "\t\t\treturn gyvInjectMessage(err.Error())",
   "\t\t\x7d",
   "\t\tencoded := gyvbase64.StdEncoding.EncodeToString(data)",
   "\t\treturn gyvInjectResult\x7bData: &encoded\x7d",
   "\tdefault:",
   "\t\treturn gyvInjectMessage(gyvfmt.Sprintf(\"symbol %q cannot be invoked\", name))",
   "\t\x7d",
   "\x7d",
   "",
   "func gyvInjectMessage(message string) gyvInjectResult \x7b",
   "\treturn gyvInjectResult\x7bError: &message\x7d",
   "\x7d"]

def migrate : List String :=
  ["\x7b% extends \"inject/runtime.go.stub\" %\x7d",
   "\x7b% block imports %\x7d",
   "\tgyvconfig \"\x7b\x7b GoyaveImportPath \x7d\x7d/config\"",
   "\tgyvdatabase \"\x7b\x7b GoyaveImportPath \x7d\x7d/database\"",
   "\t_ \"\x7b\x7b ModelImportPath \x7d\x7d\"",
   "\x7b% endblock %\x7d",
   "\x7b% block symbols %\x7d",
   "\t\"Migrate\": Migrate,",
   "\x7b% endblock %\x7d",
   "\x7b% block body %\x7d",
   "",
   "// Migrate runs the automatic migrations of every registered model.",
   "func Migrate() error \x7b",
   "\tif err := gyvconfig.Load(); err != nil \x7b",
   "\t\treturn err",
   "\t\x7d",
   "\tdefer gyvdatabase.Close()",
   "",
   "\tgyvdatabase.Migrate()",
   "\treturn nil",
   "\x7d",
   "\x7b% endblock %\x7d"]

/-- Runs the selected seeders. -/
def seed : List String :=
  ["\x7b% extends \"inject/runtime.go.stub\" %\x7d",
   "\x7b% block imports %\x7d",
   "\tgyvconfig \"\x7b\x7b GoyaveImportPath \x7d\x7d/config\"",
   "\tgyvdatabase \"\x7b\x7b GoyaveImportPath \x7d\x7d/database\"",
   "\t\x7b\x7b SeederPackage \x7d\x7d \"\x7b\x7b SeederImportPath \x7d\x7d\"",
   "\x7b% endblock %\x7d",
   "\x7b% block symbols %\x7d",
   "\t\"Seed\": Seed,",
   "\x7b% endblock %\x7d",
   "\x7b% block body %\x7d",
   "",
   "// Seed runs the selected seeders in order.",
   "func Seed() error \x7b",
   "\tif err := gyvconfig.Load(); err != nil \x7b",
   "\t\treturn err",
   "\t\x7d",
   "\tdefer gyvdatabase.Close()",
   "",
   "\x7b% for seeder in Seeders %\x7d",
   "\t\x7b\x7b SeederPackage \x7d\x7d.\x7b\x7b seeder \x7d\x7d()",
   "\x7b% endfor %\x7d",
   "\treturn nil",
   "\x7d",
   "\x7b% endblock %\x7d"]

def clear : List String :=
  ["\x7b% extends \"inject/runtime.go.stub\" %\x7d",
   "\x7b% block imports %\x7d",
   "\tgyvconfig \"\x7b\x7b GoyaveImportPath \x7d\x7d/config\"",
   "\tgyvdatabase \"\x7b\x7b GoyaveImportPath \x7d\x7d/database\"",
   "\t_ \"\x7b\x7b ModelImportPath \x7d\x7d\"",
   "\x7b% endblock %\x7d",
   "\x7b% block symbols %\x7d",
   "\t\"DBClear\": DBClear,",
   "\x7b% endblock %\x7d",
   "\x7b% block body %\x7d",
   "",
   "// DBClear deletes all the records of every registered model.",
   "func DBClear() error \x7b",
   "\tif err := gyvconfig.Load(); err != nil \x7b",
   "\t\treturn err",
   "\t\x7d",
   "\tdefer gyvdatabase.Close()",
   "",
   "\tdb := gyvdatabase.GetConnection()",
   "\tfor _, model := range gyvdatabase.GetRegisteredModels() \x7b",
   "\t\tif err := db.Unscoped().Where(\"1 = 1\").Delete(model).Error; err != nil \x7b",
   "\t\t\treturn err",
   "\t\t\x7d",
   "\t\x7d",
   "\treturn nil",
   "\x7d",
   "\x7b% endblock %\x7d"]

/-- Describes the routes. -/
def openapi : List String :=
  ["\x7b% extends \"inject/runtime.go.stub\" %\x7d",
   "\x7b% block imports %\x7d",
   "\tgyvgoyave \"\x7b\x7b GoyaveImportPath \x7d\x7d\"",
   "\tgyvconfig \"\x7b\x7b GoyaveImportPath \x7d\x7d/config\"",
   "\tgyvopenapi3 \"goyave.dev/openapi3\"",
   "\x7b% if RouteRegistrerImport %\x7d",
   "\t\x7b\x7b RouteRegistrerImport \x7d\x7d",
   "\x7b% endif %\x7d",
   "\x7b% endblock %\x7d",
   "\x7b% block symbols %\x7d",
   "\t\"GenerateOpenAPI\": GenerateOpenAPI,",
   "\x7b% endblock %\x7d",
   "\x7b% block body %\x7d",
   "",
   "// GenerateOpenAPI builds the main router and serializes its OpenAPI 3 specification.",
   "func GenerateOpenAPI() ([]byte, error) \x7b",
   "\tif err := gyvconfig.Load(); err != nil \x7b",
   "\t\treturn nil, err",
   "\t\x7d",
   "",
   "\trouter := gyvgoyave.NewRouter()",
   "\t\x7b\x7b RouteRegistrer \x7d\x7d(router)",
   "",
   "\tspec := gyvopenapi3.NewGenerator().Generate(router)",
   "\treturn gyvjson.MarshalIndent(spec, \"\", \"  \")",
   "\x7d",
   "\x7b% endblock %\x7d"]

end Graft.Stub.Texts
