-- The tasks that injected code is for: running the migrations, running
-- seeders, clearing the database and describing the routes. Each task checks
-- what it is given, plans the injection, and binds the symbol that does the
-- work.
import Graft.Injection

namespace Graft

inductive Task
  | migrate
  /-- Run these seeders in order; the default one if none is given. -/
  | seed (seeders : List String)
  | clear
  | openapi
  deriving DecidableEq, Repr

namespace Task

/-- The symbol that does the work. -/
def symbol : Task → String
  | migrate => "Migrate"
  | seed _ => "Seed"
  | clear => "DBClear"
  | openapi => "GenerateOpenAPI"

def signature : Task → Signature
  | openapi => .bytes
  | _ => .nothing

/-- The category of stubs that the task injects. -/
def category : Task → String
  | migrate => "inject/migrate"
  | seed _ => "inject/seed"
  | clear => "inject/db_clear"
  | openapi => "inject/openapi"

/-! ## The module that describes routes -/

/-- The first version of the framework that the newest module is for. -/
def firstWithNewest : Version := ⟨4, 0, 0, ["rc1".toList], []⟩

/-- The module that describes routes, at the version for the framework. -/
def openapiModule (framework : Version) : Dependency :=
  if framework.before firstWithNewest then ⟨"goyave.dev/openapi3", some "v0.1.0"⟩
  else ⟨"goyave.dev/openapi3", none⟩

/-! ## Planning -/

/-- The plan of a task that needs only the models. -/
def modelPlan (p : Project) (t : Task) : Except Failure Plan := do
  let module ← p.modulePath
  let importPath := packageImportPath module p.config.models
  return ⟨t.category, [(.modelImportPath, .text importPath)], []⟩

def seederDirectory (p : Project) : String := Path.join p.directory p.config.seeders

/-- The plan of running seeders that were given. -/
def seedPlan (v : Files.View) (p : Project) (seeders : List String) : Except Failure Plan := do
  let directory := seederDirectory p
  let available ← (Resolve.seeders v directory).mapError .resolve
  (Seeder.validate seeders available).mapError fun u => .resolve (.unknownSeeder u)
  let module ← p.modulePath
  let importPath := packageImportPath module p.config.seeders
  let package ← (Scan.packageName v directory).mapError .scan
  return ⟨"inject/seed",
    [(.seederImportPath, .text importPath),
     (.seederPackage, .text (package.getD (baseName importPath))),
     (.seeders, .list seeders)], []⟩

/-- The plan of describing the routes that a function registers. -/
def openapiPlan (p : Project) (registrer : Reference) : Plan :=
  ⟨"inject/openapi",
   [(.routeRegistrer, .text registrer.value),
    (.routeRegistrerImport, .text (importText registrer.package))],
   [openapiModule p.framework.version]⟩

/-- Checks what the task is given, and plans its injection. -/
def plan (p : Project) : Task → Act Failure Plan
  | migrate => Act.ofExcept (modelPlan p migrate)
  | clear => Act.ofExcept (modelPlan p clear)
  | seed seeders => do
    if seeders.isEmpty then Act.info ("No seeder selected, running " ++ Seeder.defaultName)
    let v ← Act.view
    Act.ofExcept (seedPlan v p (Seeder.orDefault seeders))
  | openapi => do
    let registrer ← Act.mapError .resolve
      (Resolve.routeRegistrer p.directory p.framework.importPath)
    Act.advance .callSiteResolved
    return openapiPlan p registrer

/-- Injects the code of a task into a project with a build tool, and binds its symbol. -/
def bindWith (tool : BuildTool) (p : Project) (t : Task) : Act Failure BoundSymbol := do
  let plan ← t.plan p
  Injection.injectSymbol tool p plan t.symbol t.signature

/-- Injects the code of a task with the build tool that the settings name. -/
def bindIn (p : Project) (t : Task) : Act Failure BoundSymbol :=
  bindWith p.toolchain.tool p t

/-- The task in a directory: the project is checked first. -/
def bind (directory : String) (t : Task) : Act Failure BoundSymbol := do
  let p ← Project.openIn directory
  t.bindIn p

/-- Calls the symbol of a task. -/
def invoke (f : BoundSymbol) : Act Failure (List UInt8) :=
  Act.inPhase .invoking (Act.within (Context.onSymbol f.name) (Act.mapError .symbol f.call))

end Task
end Graft
