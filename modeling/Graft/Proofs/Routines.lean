-- The routines of all that a command does, from the search for its settings
-- to the removal of its artifact. Files are looked at one by one, and only
-- where something depends on them.
import Graft.Command
import Graft.Proofs.Moves

namespace Graft

open Files (View)

/-! ## Reading -/

namespace Look

variable {α : Type}

/-- The bytes of what a path leads to. -/
def bytesOf : Except Files.Fault Files.Entry → Except Files.Fault (List UInt8)
  | .ok (.file bytes _) => .ok bytes
  | .ok _ => .error .isADirectory
  | .error fault => .error fault

/-- The text of what a path leads to. -/
def textOf (r : Except Files.Fault Files.Entry) : Except Files.Fault String :=
  match bytesOf r with
  | .error fault => .error fault
  | .ok bytes =>
    match View.decode? bytes with
    | some text => .ok text
    | none => .error .notText

def text (path : String) : Look (Except Files.Fault String) := find path fun r => seen (textOf r)

@[simp] theorem seenIn_text (v : View) (path : String) :
    (text path).seenIn v = v.readText path := by
  show textOf (v.find path) = _
  unfold textOf bytesOf View.readText View.readBytes
  cases v.find path with
  | error fault => rfl
  | ok e => cases e <;> rfl

def leads (path : String) : Look Bool := find path fun r => seen r.toBool

@[simp] theorem seenIn_leads (v : View) (path : String) :
    (leads path).seenIn v = v.exists? path := rfl

def isFile (path : String) : Look Bool := find path fun r => seen (bytesOf r).toBool

@[simp] theorem seenIn_isFile (v : View) (path : String) :
    (isFile path).seenIn v = v.isFile path := by
  show (bytesOf (v.find path)).toBool = _
  unfold View.isFile bytesOf
  rcases v.find path with fault | ⟨_ | _ | _⟩ <;> rfl

/-- The first of a list that is seen to fit. -/
def first {γ : Type} (fits : γ → Look Bool) : List γ → Look (Option γ)
  | [] => pure none
  | x :: xs => do if ← fits x then pure (some x) else first fits xs

theorem seenIn_first {γ : Type} {fits : γ → Look Bool} (v : View) (xs : List γ) :
    (first fits xs).seenIn v = xs.find? fun x => (fits x).seenIn v := by
  induction xs with
  | nil => rfl
  | cons x xs ih =>
    rw [first, seenIn_bind, List.find?_cons]
    cases (fits x).seenIn v with
    | true => rfl
    | false => exact ih

/-! ## Scans -/

section Scans

open Scan

variable (f : Go.Source → List α) (directory : String)

/-- The source files among what was listed. -/
def sourcesOf : Except Files.Fault (List View.Listed) → Except Error (List String)
  | .error fault => .error (.unlisted directory fault)
  | .ok entries => .ok ((entries.filter isSource).map fun e => e.path)

def files : Look (Except Error (List String)) :=
  list directory fun r => seen (sourcesOf directory r)

@[simp] theorem seenIn_files (v : View) : (files directory).seenIn v = sourceFiles v directory := by
  show sourcesOf directory (v.list directory) = _
  unfold sourcesOf sourceFiles
  cases v.list directory <;> rfl

def source (path : String) : Look (Except Error Go.Source) := do
  match ← text path with
  | .error fault => pure (.error (.unreadable path fault))
  | .ok text =>
    match Go.Source.parse path text with
    | .ok s => pure (.ok s)
    | .error p => pure (.error (.malformed path p))

@[simp] theorem seenIn_source (v : View) (path : String) :
    (source path).seenIn v = readSource v path := by
  unfold source readSource
  rw [seenIn_bind, seenIn_text]
  cases v.readText path with
  | error fault => rfl
  | ok text =>
    dsimp only
    cases Go.Source.parse path text <;> rfl

/-- Files are read up to the first that cannot be read. -/
def resultsOf : List String → Look (List (Except Error α))
  | [] => pure []
  | path :: more => do
    match ← source path with
    | .error e => pure [.error e]
    | .ok s => return (f s).map .ok ++ (← resultsOf more)

@[simp] theorem seenIn_resultsOf (v : View) (files : List String) :
    (resultsOf f files).seenIn v = Scan.resultsOf v f files := by
  induction files with
  | nil => rfl
  | cons path more ih =>
    rw [resultsOf, Scan.resultsOf, seenIn_bind, seenIn_source]
    cases readSource v path with
    | error e => rfl
    | ok s => simp [ih]

/-- Files are read up to the first with a result. -/
def advance : List String → Look (Option (Except Error α) × Stream α)
  | [] => pure (none, ⟨directory, some [], [], false⟩)
  | path :: more => do
    match ← source path with
    | .error e => pure (some (.error e), ⟨directory, some more, [], true⟩)
    | .ok s =>
      match f s with
      | [] => advance more
      | x :: xs => pure (some (.ok x), ⟨directory, some more, xs, false⟩)

@[simp] theorem seenIn_advance (v : View) (files : List String) :
    (advance f directory files).seenIn v = Stream.advance v f directory files := by
  induction files with
  | nil => rfl
  | cons path more ih =>
    rw [advance, Stream.advance, seenIn_bind, seenIn_source]
    cases readSource v path with
    | error e => rfl
    | ok s =>
      dsimp only
      cases f s with
      | nil => exact ih
      | cons x xs => rfl

def nextOf (s : Stream α) : Look (Option (Except Error α) × Stream α) :=
  match s.pending with
  | x :: xs => pure (some (.ok x), { s with pending := xs })
  | [] =>
    if s.ended then pure (none, s)
    else
      match s.files with
      | some files => advance f s.directory files
      | none => do
        match ← files s.directory with
        | .error e => pure (some (.error e), { s with ended := true })
        | .ok files => advance f s.directory files

@[simp] theorem seenIn_nextOf (v : View) (s : Stream α) :
    (nextOf f s).seenIn v = Stream.next v f s := by
  unfold nextOf Stream.next
  cases s.pending with
  | cons x xs => rfl
  | nil =>
    dsimp only
    by_cases hs : s.ended = true
    · rw [if_pos hs, if_pos hs]
      rfl
    · rw [if_neg hs, if_neg hs]
      cases s.files with
      | some files => exact seenIn_advance f s.directory v files
      | none =>
        dsimp only
        rw [seenIn_bind, seenIn_files]
        cases sourceFiles v s.directory with
        | error e => rfl
        | ok files => exact seenIn_advance f s.directory v files

/-- Files are read up to the first that states a package. -/
def firstPackage : List String → Look (Except Error (Option String))
  | [] => pure (.ok none)
  | path :: more =>
    if isTest path then firstPackage more
    else do
      match ← source path with
      | .error e => pure (.error e)
      | .ok s =>
        match s.packageName with
        | some name => pure (.ok (some name))
        | none => firstPackage more

@[simp] theorem seenIn_firstPackage (v : View) (files : List String) :
    (firstPackage files).seenIn v = Scan.firstPackage v files := by
  induction files with
  | nil => rfl
  | cons path more ih =>
    rw [firstPackage, Scan.firstPackage]
    by_cases hp : isTest path = true
    · rw [if_pos hp, if_pos hp]
      exact ih
    · rw [if_neg hp, if_neg hp, seenIn_bind, seenIn_source]
      cases readSource v path with
      | error e => rfl
      | ok s =>
        dsimp only
        cases s.packageName with
        | some name => rfl
        | none => exact ih

def package : Look (Except Error (Option String)) := do
  match ← files directory with
  | .error e => pure (.error e)
  | .ok files => firstPackage files

@[simp] theorem seenIn_package (v : View) :
    (package directory).seenIn v = packageName v directory := by
  unfold package packageName
  rw [seenIn_bind, seenIn_files]
  cases sourceFiles v directory with
  | error e => rfl
  | ok files => exact seenIn_firstPackage v files

def seeders : Look (Except Resolve.Error (List String)) := do
  match ← files directory with
  | .error e => pure (.error (.scan e))
  | .ok files =>
    match collect (← resultsOf Go.Source.exportedFunctions files) with
    | .error e => pure (.error (.scan e))
    | .ok names =>
      pure (if names.isEmpty then .error (.noSeeder directory) else .ok (Seeder.ordered names))

@[simp] theorem seenIn_seeders (v : View) :
    (seeders directory).seenIn v = Resolve.seeders v directory := by
  unfold seeders Resolve.seeders exportedFunctions results
  rw [seenIn_bind, seenIn_files]
  cases sourceFiles v directory with
  | error e => rfl
  | ok files =>
    dsimp only
    rw [seenIn_bind, seenIn_resultsOf]
    cases collect (Scan.resultsOf v Go.Source.exportedFunctions files) <;> rfl

end Scans

/-! ## Manifests and programs -/

def manifest (directory : String) : Look (Except Manifest.Error Manifest) := do
  let path := if directory.isEmpty then Manifest.fileName else Path.join directory Manifest.fileName
  match ← text path with
  | .error fault => pure (.error (.unreadable path fault))
  | .ok text => pure (Manifest.parse path text)

@[simp] theorem seenIn_manifest (v : View) (directory : String) :
    (manifest directory).seenIn v = Manifest.read v directory := by
  unfold manifest Manifest.read
  dsimp only
  generalize (if directory.isEmpty then Manifest.fileName
    else Path.join directory Manifest.fileName) = path
  rw [seenIn_bind, seenIn_text]
  cases v.readText path <;> rfl

/-- The nearest directory with a manifest, from the working directory upwards. -/
def nearest : Look (Option String) := here fun p =>
  first (fun dir => isFile (Path.join dir Manifest.fileName))
    (Path.ancestors (p.path.length + 1) p.path)

@[simp] theorem seenIn_nearest (v : View) : nearest.seenIn v = Manifest.nearest v v.cwd.path := by
  show (first _ _).seenIn v = _
  rw [seenIn_first]
  simp [Manifest.nearest]

/-- The program that a name stands for. -/
def program (searchPath : List String) (name : String) : Look (Option String) :=
  if name.isEmpty then pure none
  else if name.toList.contains '/' then
    here fun p => probe (Path.join p.path name) fun found =>
      pure (if found then some (Path.join p.path name) else none)
  else first (fun path => probe path pure) (searchPath.map fun dir => Path.join dir name)

@[simp] theorem seenIn_program (v : View) (searchPath : List String) (name : String) :
    (program searchPath name).seenIn v = Toolchain.findProgram searchPath v name := by
  unfold program Toolchain.findProgram
  split
  · rfl
  · split
    · rfl
    · exact seenIn_first v _

end Look

/-- What is seen, with its failures as failures of another kind. -/
theorem Look.seenIn_map {α β : Type} (k : α → β) (l : Look α) (v : View) :
    (l >>= fun x => pure (k x)).seenIn v = k (l.seenIn v) := Look.seenIn_bind v l _

namespace Cut

variable {ε α β : Type}

/-! ## Settings and projects -/

section Settings

open Config

def readFile? (path : String) : Cut (Config.readFile? path : Act ε (Option Config)) where
  routine := (Look.text path).routine fun
    | .error .notFound => .done (.ok none)
    | .error fault =>
      .next (.note (.said .warning
        ("Failed to read config file " ++ path ++ ": " ++ fault.message))) fun _ => .done (.ok none)
    | .ok text =>
      match Config.parse text with
      | some c => .done (.ok (some c))
      | none =>
        .next .host fun h =>
          .next (.note (.said .warning ("Failed to parse " ++ fileName ++ ": " ++
            h.settingsFault text ++ ". Using defaults."))) fun _ => .done (.ok none)
  run_eq h w := by
    rw [Look.run_routine, Look.seenIn_text]
    unfold Config.readFile?
    rw [Act.perform_bind_of_ok (Act.perform_view h w)]
    cases w.view.readText path with
    | error fault => cases fault <;> rfl
    | ok text =>
      dsimp only
      cases Config.parse text <;> rfl

def firstIn : ∀ dirs, Cut (Config.firstIn dirs : Act ε (Option Config))
  | [] => pure none
  | dir :: dirs => bind (readFile? (Path.join dir fileName)) fun
    | some c => pure (some c)
    | none => firstIn dirs

def overridden (c : Config) : Cut (Config.overridden c : Act ε Config) :=
  ⟨.oneOf (m := .binary) fun b => .ok (c.withBinary b), fun _ _ => rfl⟩

def search (start : String) : Cut (Config.search start : Act ε Config) :=
  bind (firstIn _) fun _ => overridden _

end Settings

/-- A manifest that is read, with failures as those of an injection. -/
def openWith (directory : String) (config : Config) : Cut (Project.openWith directory config) :=
  within _ <| bind (advance _) fun _ =>
    seeing (Look.manifest directory >>= fun r => Pure.pure (r.mapError .manifest))
      (fun v => by rw [Look.seenIn_map, Look.seenIn_manifest]) fun _ =>
    bind (ofExcept _) fun _ => bind (advance _) fun _ =>
    ite _ (bind (fail _) fun _ => bind (advance _) fun _ => pure _)
      (bind (advance _) fun _ => pure _)

def openIn (directory : String) : Cut (Project.openIn directory) :=
  bind (search _) fun _ => openWith _ _

/-! ## The build tool and the artifact -/

def toolchain (t : Toolchain) (directory : String) (c : ToolCall) :
    Cut (t.tool.ask directory c) :=
  bind read fun h =>
    ⟨(Look.program h.searchPath t.binary).routine fun
      | none => (fail (BuildError.notFound t.binary)).routine
      | some program =>
        (bind (mapError (BuildError.notRun program)
          (launch ⟨program, t.arguments c, directory, []⟩)) fun outcome =>
            ite (outcome.exit.isSuccess = true) (pure ())
              (fail (.failed (t.binary ++ " " ++ Toolchain.spaced (t.arguments c)) outcome.exit
                (Toolchain.kept outcome.complaint)))).routine,
     fun host w => by
      rw [Look.run_routine, Look.seenIn_program,
        Act.perform_bind_of_ok (Act.perform_view host w)]
      cases Toolchain.findProgram h.searchPath w.view t.binary with
      | none => rfl
      | some program => exact (bind _ _).run_eq host w⟩

/-- The answer is read, and removed if there is one. -/
def execute (artifact directory symbol : String) :
    Cut (Artifact.execute artifact directory symbol) :=
  bind read fun h => bind drawSuffix fun suffix =>
  bind (mapError _ (launch (Artifact.runFor artifact directory symbol
    (Artifact.resultPath h.tempDir suffix)))) fun outcome =>
  ⟨(Look.text (Artifact.resultPath h.tempDir suffix)).routine fun
    | .error _ => (fail (SymbolError.invocation symbol
        ("exited (" ++ outcome.exit.message ++ ") without reporting a result"))).routine
    | .ok text =>
      (bind (removeOrWarn "Could not delete " (Artifact.resultPath h.tempDir suffix)) fun _ =>
        ofExcept (match Envelope.parse text with
          | some e => .ok e
          | none => .error (SymbolError.invocation symbol
              ("malformed result: " ++ h.answerFault text)))).routine,
   fun host w => by
    rw [Look.run_routine, Look.seenIn_text, Act.perform_bind_of_ok (Act.perform_view host w)]
    cases w.view.readText (Artifact.resultPath h.tempDir suffix) with
    | error fault => rfl
    | ok text =>
      refine ((bind _ _).run_eq host w).trans ?_
      dsimp only
      cases Envelope.parse text <;> rfl⟩

def discard (path : String) : Cut (Artifact.discard path : Act ε Unit) := removeOrWarn _ path

def load (path directory : String) : Cut (Artifact.load path directory) :=
  bind (attempt (execute path directory Artifact.tableSymbol)) fun r =>
    match Artifact.loaded path r with
    | .ok _ => pure _
    | .error _ => bind (discard path) fun _ => fail _

def bindTo (a : Artifact) (name : String) (signature : Signature) :
    Cut (a.bind name signature) := by
  unfold Artifact.bind
  exact match a.mismatch? name signature with
    | none => pure _
    | some _ => bind (discard a.path) fun _ => fail _

def call (f : BoundSymbol) : Cut f.call :=
  bind (execute _ _ _) fun _ => ofExcept _

/-! ## Injections -/

section Injecting

variable {tool : BuildTool} (ct : ∀ directory c, Cut (tool.ask directory c))

def warnLater : ∀ paths, Cut (Injection.warnLater paths)
  | [] => pure ()
  | _ :: more => bind (warn _) fun _ => warnLater more

/-- The file is created, and what was written of it is removed if not all was. -/
def writeText (path text : String) : Cut (Injection.writeFile path text) :=
  bind (attempt (createFile path _)) fun
    | .error _ => fail _
    | .ok .whole => pure ()
    | .ok (.partly _) => bind (removeOrWarn _ path) fun _ => fail _

def prepare (p : Project) (plan : Plan) : Cut (Injection.prepare p plan) :=
  seeing (Look.package p.directory >>= fun r => Pure.pure (match r with
      | .error e => .error (.scan e)
      | .ok none => .ok ()
      | .ok (some found) =>
        if found == Injection.rootPackage then .ok () else .error (.notMain p.directory found)))
      (fun v => by
        rw [Look.seenIn_map, Look.seenIn_package]
        rfl) fun _ =>
    bind (ofExcept _) fun text => bind (advance _) fun _ => bind drawSuffix fun suffix =>
    seeing (Look.files p.directory >>= fun r => Pure.pure (r.mapError .scan))
      (fun v => by rw [Look.seenIn_map, Look.seenIn_files]) fun _ =>
    bind (warnLater _) fun _ => bind (writeText (Injection.filePath p suffix) text) fun _ =>
    bind (advance _) fun _ => pure suffix

def ask (directory : String) (c : ToolCall) : Cut (Injection.ask tool directory c) :=
  bind (record _) fun _ => mapError _ (ct directory c)

def addAll (directory : String) : ∀ ds, Cut (Injection.addAll tool directory ds)
  | [] => pure ()
  | d :: ds => bind (info _) fun _ => bind (ask ct directory (.get d)) fun _ => addAll directory ds

def build (p : Project) (ds : List Dependency) (artifact : String) :
    Cut (Injection.build tool p ds artifact) :=
  bind (addAll ct p.directory ds) fun _ => bind (advance _) fun _ => bind (info _) fun _ =>
    bind (ask ct p.directory (.build artifact)) fun _ => advance _

def cleanUp (p : Project) (file : String) (tidy : Bool) :
    Cut (Injection.cleanUp tool p file tidy) :=
  bind (removeOrWarn _ file) fun _ =>
    ite (tidy = true)
      (bind (attempt (ask ct p.directory .tidy)) fun
        | .ok () => pure ()
        | .error _ => warn _)
      (pure ())

def removeStray (artifact : String) : Cut (Injection.removeStray artifact) :=
  viewing (k := fun found => if found = true then Act.removeOrWarn "Could not delete " artifact
      else Pure.pure ())
    (Look.leads artifact) (Look.seenIn_leads · artifact) fun found =>
      ite (found = true) (removeOrWarn _ _) (pure ())

def buildAndLoad (p : Project) (plan : Plan) (file artifact : String) :
    Cut (Injection.buildAndLoad tool p plan file artifact) :=
  bind (attempt (build ct p _ artifact)) fun built => bind (advance _) fun _ =>
    bind (cleanUp ct p file _) fun _ =>
      match built with
      | .error _ => bind (removeStray artifact) fun _ => fail _
      | .ok () => bind (mapError _ (load artifact p.directory)) fun _ =>
        bind (advance _) fun _ => pure _

def inject (p : Project) (plan : Plan) : Cut (Injection.inject tool p plan) :=
  within _ <| bind read fun h => bind (prepare p plan) fun suffix =>
    buildAndLoad ct p plan (Injection.filePath p suffix) (Injection.artifactPath h.tempDir suffix)

def injectSymbol (p : Project) (plan : Plan) (symbol : String) (signature : Signature) :
    Cut (Injection.injectSymbol tool p plan symbol signature) :=
  bind (inject ct p plan) fun artifact => within _ <|
    bind (mapError _ (bindTo artifact symbol signature)) fun _ => bind (advance _) fun _ => pure _

end Injecting

/-! ## Tasks and commands -/

/-- The first start call, and another one if there is one. -/
def startSites (directory importPath : String) :
    Look (Option (Except Scan.Error Scan.Site) × Option (Except Scan.Error Scan.Site)) := do
  let (first, rest) ← Look.nextOf (Scan.sitesIn (Resolve.startsFramework importPath))
    (.start directory)
  match first with
  | some (.ok _) =>
    return (first, (← Look.nextOf (Scan.sitesIn (Resolve.startsFramework importPath)) rest).1)
  | _ => return (first, none)

def routeRegistrer (directory importPath : String) :
    Cut (Resolve.routeRegistrer directory importPath) where
  routine := (startSites directory importPath).routine fun
    | (none, _) => (fail (Resolve.Error.noStartCall directory)).routine
    | (some (.error e), _) => (fail (Resolve.Error.scan e)).routine
    | (some (.ok site), some (.ok other)) =>
      (bind (warn ("Several goyave.Start() calls found. Using " ++ Resolve.spot site ++
        ", ignoring " ++ Resolve.spot other)) fun _ => ofExcept (Resolve.ofSite site)).routine
    | (some (.ok site), _) => (ofExcept (Resolve.ofSite site)).routine
  run_eq h w := by
    rw [Look.run_routine]
    unfold startSites Resolve.routeRegistrer
    rw [Act.perform_bind_of_ok (Act.perform_view h w), Look.seenIn_bind, Look.seenIn_nextOf]
    dsimp only
    rcases Scan.Stream.next w.view (Scan.sitesIn (Resolve.startsFramework importPath))
      (.start directory) with ⟨_ | e | site, rest⟩
    · rfl
    · rfl
    · dsimp only
      rw [Look.seenIn_bind, Look.seenIn_nextOf]
      rcases Scan.Stream.next w.view (Scan.sitesIn (Resolve.startsFramework importPath)) rest
        with ⟨_ | e | other, rest'⟩ <;> rfl

/-- The seeders are found, and then the package that they are in. -/
def seedPlan (p : Project) (seeders : List String) : Look (Except Failure Plan) := do
  match ← Look.seeders (Task.seederDirectory p) with
  | .error e => return .error (.resolve e)
  | .ok available =>
    match Seeder.validate seeders available with
    | .error u => return .error (.resolve (.unknownSeeder u))
    | .ok _ =>
      match p.modulePath with
      | .error e => return .error e
      | .ok module =>
        match ← Look.package (Task.seederDirectory p) with
        | .error e => return .error (.scan e)
        | .ok package =>
          let importPath := packageImportPath module p.config.seeders
          return .ok ⟨"inject/seed",
            [(.seederImportPath, .text importPath),
             (.seederPackage, .text (package.getD (baseName importPath))),
             (.seeders, .list seeders)], []⟩

theorem seenIn_seedPlan (v : View) (p : Project) (seeders : List String) :
    (seedPlan p seeders).seenIn v = Task.seedPlan v p seeders := by
  unfold seedPlan Task.seedPlan
  rw [Look.seenIn_bind, Look.seenIn_seeders]
  dsimp only
  cases Resolve.seeders v (Task.seederDirectory p) with
  | error e => rfl
  | ok available =>
    change _ = (Seeder.validate seeders available).mapError _ >>= _
    dsimp only
    cases Seeder.validate seeders available with
    | error u => rfl
    | ok u =>
      change _ = p.modulePath >>= _
      dsimp only
      cases p.modulePath with
      | error e => rfl
      | ok module =>
        change _ = (Scan.packageName v (Task.seederDirectory p)).mapError _ >>= _
        dsimp only
        rw [Look.seenIn_bind, Look.seenIn_package]
        cases Scan.packageName v (Task.seederDirectory p) <;> rfl

def plan (p : Project) : ∀ t, Cut (Task.plan p t)
  | .migrate => ofExcept _
  | .clear => ofExcept _
  | .seed seeders =>
    ite (seeders.isEmpty = true)
      (bind (info _) fun _ => sight (seedPlan p _) fun v => seenIn_seedPlan v p _)
      (sight (seedPlan p _) fun v => seenIn_seedPlan v p _)
  | .openapi =>
    bind (mapError _ (routeRegistrer p.directory p.framework.importPath)) fun _ =>
      bind (advance _) fun _ => pure _

def bindWith {tool : BuildTool} (ct : ∀ directory c, Cut (tool.ask directory c)) (p : Project)
    (t : Task) : Cut (Task.bindWith tool p t) :=
  bind (plan p t) fun plan => injectSymbol ct p plan t.symbol t.signature

def bindIn (p : Project) (t : Task) : Cut (Task.bindIn p t) := bindWith (toolchain p.toolchain) p t

def bindAt (directory : String) (t : Task) : Cut (Task.bind directory t) :=
  bind (openIn directory) fun p => bindIn p t

def invoke (f : BoundSymbol) : Cut (Task.invoke f) :=
  inPhase _ (within _ (mapError _ (call f)))

def projectDirectory : ∀ project, Cut (Command.projectDirectory project)
  | some _ => pure _
  | none => ⟨Look.nearest.routine fun
      | some directory => .done (.ok directory)
      | none => .done (.error (.failure (.manifest .noManifest))),
    fun h w => by
      unfold Command.projectDirectory
      rw [Look.run_routine, Look.seenIn_nearest, Act.perform_bind_of_ok (Act.perform_view h w)]
      cases Manifest.nearest w.view w.view.cwd.path <;> rfl⟩

def holding (f : BoundSymbol) {a : Act CommandError α} (ca : Cut a) :
    Cut (Command.holding f a) :=
  bind (attempt ca) fun r => bind (discard f.artifact.path) fun _ => ofExcept r

def runTask (project : Option String) (t : Task) (doing done : String) :
    Cut (Command.runTask project t doing done) :=
  bind (projectDirectory project) fun directory => bind (mapError _ (bindAt directory t)) fun f =>
    holding f (bind (record _) fun _ => bind (mapError _ (invoke f)) fun _ => record _)

def describe (project : Option String) (output : String) :
    Cut (Command.describe project output) :=
  bind (projectDirectory project) fun directory =>
    bind (mapError _ (bindAt directory .openapi)) fun f =>
      holding f (bind (mapError _ (invoke f)) fun bytes => bind (record _) fun _ =>
        bind (mapError _ (writeFile (Path.join directory output) bytes)) fun _ => record _)

def initIn (directory : String) (force : Bool) : Cut (Command.initIn directory force) where
  routine := (Look.leads (Path.join directory Config.fileName)).routine fun found =>
    if found && !force then .done (.error .configExists)
    else (bind (mapError (CommandError.unwritable "" (Path.join directory Config.fileName))
      (writeFile (Path.join directory Config.fileName) (View.encode Command.initialConfig)))
        fun _ => record (.told ("Created " ++ Config.fileName ++ " configuration file"))).routine
  run_eq h w := by
    unfold Command.initIn
    rw [Look.run_routine, Look.seenIn_leads]
    dsimp only
    rw [Act.perform_bind_of_ok (Act.perform_view h w)]
    cases w.view.exists? (Path.join directory Config.fileName) && !force with
    | true => rfl
    | false => exact (bind _ _).run_eq h w

def command : ∀ c, Cut (Command.run c)
  | .migrate project => runTask project .migrate _ _
  | .seed project seeders => runTask project (.seed seeders) _ _
  | .clear project => runTask project .clear _ _
  | .openapi project output => describe project output
  | .init force => ⟨.next .here fun p => (initIn p.path force).routine, fun h w => by
      unfold Command.run
      rw [Act.perform_bind_of_ok (Act.perform_view h w), ← (initIn _ force).run_eq]
      rfl⟩

end Cut
end Graft
