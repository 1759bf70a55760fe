-- The packages that a project names in its settings. One text says both which
-- directory is scanned and which import path is written into the injected
-- file. The two mean the same package exactly if the text is written plainly:
-- from the project, without empty names and dots inside, and without steps up.
import Graft.Proofs.Listings
import Graft.Proofs.Searching
import Graft.Proofs.SeederPlans

namespace Graft

open Files

/-! ## Pieces between slashes -/

namespace Text

variable {α : Type} [BEq α] [LawfulBEq α] {sep : α}

/-- The pieces with a separator in front of each make up the text again. -/
theorem flatMap_splitOn (sep : α) (xs : List α) :
    (splitOn sep xs).flatMap (sep :: ·) = sep :: xs := by
  induction xs with
  | nil => rfl
  | cons x xs ih =>
    unfold splitOn
    split
    · rename_i hx
      rw [List.flatMap_cons, ih, beq_iff_eq.mp hx]
      rfl
    · obtain ⟨p, ps, hp⟩ := List.exists_cons_of_ne_nil (splitOn_ne_nil sep xs)
      rw [hp, List.flatMap_cons, List.cons_append] at ih
      rw [hp]
      dsimp only
      rw [List.flatMap_cons, List.cons_append, List.cons_append, (List.cons.inj ih).2]

/-- Pieces with a separator in front of each are found again. -/
theorem splitOn_flatMap {pieces : List (List α)} (h : ∀ p ∈ pieces, sep ∉ p) (first : List α)
    (hf : sep ∉ first) : splitOn sep (first ++ pieces.flatMap (sep :: ·)) = first :: pieces := by
  induction pieces generalizing first with
  | nil => rw [List.flatMap_nil, List.append_nil, splitOn_of_not_mem hf]
  | cons p ps ih =>
    rw [List.flatMap_cons, List.cons_append, splitOn_append_cons, splitOn_of_not_mem hf,
      ih (fun q hq => h q (List.mem_cons_of_mem p hq)) p (h p List.mem_cons_self)]
    rfl

/-- A text is made of pieces with a separator in front of each exactly if it is cut into
them. -/
theorem cons_eq_flatMap_iff {pieces : List (List α)} (h : ∀ p ∈ pieces, sep ∉ p) (xs : List α) :
    sep :: xs = pieces.flatMap (sep :: ·) ↔ splitOn sep xs = pieces := by
  constructor
  · intro hxs
    have hcut := splitOn_flatMap h [] List.not_mem_nil
    have hfirst : splitOn sep (sep :: xs) = [] :: splitOn sep xs := splitOn_append_cons sep [] xs
    rw [List.nil_append, ← hxs, hfirst] at hcut
    exact (List.cons.inj hcut).2
  · rintro rfl
    exact (flatMap_splitOn sep xs).symm

end Text

/-! ## Import paths -/

/-- The import path of the package that stands behind these names in a module. -/
def importPathAt (module : String) (names : List String) : String :=
  names.foldl (fun path name => path ++ "/" ++ name) module

theorem toList_importPathAt (module : String) (names : List String) :
    (importPathAt module names).toList =
      module.toList ++ (names.map String.toList).flatMap ('/' :: ·) := by
  unfold importPathAt
  induction names generalizing module with
  | nil => simp
  | cons name rest ih =>
    rw [List.foldl_cons, ih]
    simp

/-- What the import path of a package takes from its setting: no slashes at the ends, and no
steps `./` in front. -/
def insideModule (relative : String) : List Char :=
  dropDotSteps (Text.trimEnds (· == '/') relative.toList)

theorem toList_packageImportPath (module relative : String) :
    (packageImportPath module relative).toList = module.toList ++
      if insideModule relative = [] then [] else '/' :: insideModule relative := by
  unfold packageImportPath insideModule
  dsimp only
  by_cases h : dropDotSteps (Text.trimEnds (· == '/') relative.toList) = []
  · simp [h]
  · simp [h]

namespace Path

theorem names_dropDotSteps (path : List Char) : names (dropDotSteps path) = names path := by
  fun_induction dropDotSteps path with
  | case1 cs ih => rw [ih, names_dot_slash]
  | case2 => rfl

theorem names_trimEnds (path : List Char) : names (Text.trimEnds (· == '/') path) = names path := by
  have hfront : ∀ cs : List Char, names (cs.dropWhile (· == '/')) = names cs := by
    intro cs
    induction cs with
    | nil => rfl
    | cons c cs ih =>
      rw [List.dropWhile_cons]
      split
      · rename_i hc
        rw [ih, beq_iff_eq.mp hc, names_slash]
      · rfl
  have hback : ∀ cs : List Char, names (cs.dropWhile (· == '/')).reverse = names cs.reverse := by
    intro cs
    induction cs with
    | nil => rfl
    | cons c cs ih =>
      rw [List.dropWhile_cons]
      split
      · rename_i hc
        rw [ih, List.reverse_cons, beq_iff_eq.mp hc, names_append_cons]
        exact (List.append_nil _).symm
      · rfl
  unfold Text.trimEnds
  rw [hback, List.reverse_reverse, hfront]

/-- The setting and what the import path takes from it go through the same names. -/
theorem names_insideModule (relative : String) :
    (names (insideModule relative)).map String.ofList = parts relative := by
  rw [parts_eq]
  unfold insideModule
  rw [names_dropDotSteps, names_trimEnds]

/-- No piece between slashes is empty, a dot or two dots. -/
def IsPlain (path : List Char) : Prop :=
  ∀ piece ∈ Text.splitOn '/' path, isPart piece = true ∧ piece ≠ ['.', '.']

theorem names_of_isPlain {path : List Char} (h : IsPlain path) :
    names path = Text.splitOn '/' path :=
  List.filter_eq_self.mpr fun piece hpiece => (h piece hpiece).1

/-- A setting without such pieces takes no step upwards. -/
theorem notMem_parts_of_plain {relative : String}
    (h : insideModule relative = [] ∨ IsPlain (insideModule relative)) :
    ".." ∉ parts relative := by
  rw [← names_insideModule]
  rcases h with hempty | hplain
  · rw [hempty]
    simp [names, Text.splitOn, isPart]
  · rw [names_of_isPlain hplain, List.mem_map]
    rintro ⟨piece, hpiece, hup⟩
    refine (hplain piece hpiece).2 ?_
    rw [← String.toList_ofList (l := piece), hup]
    rfl

end Path

/-- The place and the import path mean the same package: the one stands in the root of the
project as the other stands in the module. -/
def Denotes (module : String) (root : Place) (path : String) (q : Place) : Prop :=
  ∃ names, (∀ name ∈ names, Path.IsName name) ∧ q = root ++ names ∧ path = importPathAt module names

/-- The module alone means the root, and nothing else does. -/
theorem Denotes.alone_iff {module path : String} {root q : Place}
    (h : Denotes module root path q) : path = module ↔ q = root := by
  obtain ⟨names, -, rfl, rfl⟩ := h
  rw [← String.toList_inj, toList_importPathAt, List.append_right_eq_self,
    List.append_right_eq_self]
  cases names <;> simp

/-- Where a path leads if no link is on the way. -/
def Files.View.spelled (v : View) (path : String) : Place :=
  (if Path.isAbsolute path then [] else v.cwd : Place).follow (Path.parts path)

theorem Path.splitOn_eq_iff {path : List Char} {pieces : List String}
    (h : ∀ piece ∈ pieces, IsName piece) :
    Text.splitOn '/' path = pieces.map String.toList ↔
      IsPlain path ∧ (names path).map String.ofList = pieces := by
  constructor
  · intro hcut
    have hplain : IsPlain path := by
      intro piece hpiece
      rw [hcut] at hpiece
      obtain ⟨name, hname, rfl⟩ := List.mem_map.mp hpiece
      refine ⟨?_, (h name hname).not_up⟩
      simp [isPart, (h name hname).nonempty, (h name hname).not_dot]
    refine ⟨hplain, ?_⟩
    rw [names_of_isPlain hplain, hcut]
    simp
  · rintro ⟨hplain, rfl⟩
    rw [names_of_isPlain hplain]
    simp

/-- A setting and names give the same import path exactly if the setting is written plainly and
goes through these names. -/
theorem packageImportPath_eq_iff {names : List String} (h : ∀ name ∈ names, Path.IsName name)
    (module relative : String) :
    packageImportPath module relative = importPathAt module names ↔
      (insideModule relative = [] ∨ Path.IsPlain (insideModule relative)) ∧
        Path.parts relative = names := by
  have hslash : ∀ piece ∈ names.map String.toList, '/' ∉ piece := by
    intro piece hpiece
    obtain ⟨name, hname, rfl⟩ := List.mem_map.mp hpiece
    exact (h name hname).no_slash
  rw [← String.toList_inj, toList_packageImportPath, toList_importPathAt, List.append_right_inj,
    ← Path.names_insideModule]
  by_cases hempty : insideModule relative = []
  · rw [hempty, if_pos rfl]
    cases names <;> simp [Path.names, Text.splitOn, Path.isPart]
  · rw [if_neg hempty, Text.cons_eq_flatMap_iff hslash, Path.splitOn_eq_iff h]
    simp [hempty]

/-- A package is imported under the import path of its setting, seen from the root of the
project, exactly if the names of the setting are taken from there and are written plainly. -/
theorem denotes_packageImportPath_iff (module relative : String) (root base : Place) :
    Denotes module root (packageImportPath module relative) (base.follow (Path.parts relative)) ↔
      base = root ∧ (insideModule relative = [] ∨ Path.IsPlain (insideModule relative)) := by
  constructor
  · rintro ⟨names, hn, hq, himport⟩
    obtain ⟨hplain, hparts⟩ := (packageImportPath_eq_iff hn module relative).mp himport
    rw [Place.follow_of_notMem (Path.notMem_parts_of_plain hplain), hparts] at hq
    exact ⟨List.append_cancel_right hq, hplain⟩
  · rintro ⟨rfl, hplain⟩
    have hup := Path.notMem_parts_of_plain hplain
    have hn : ∀ name ∈ Path.parts relative, Path.IsName name := by
      intro name hname
      refine Path.isName_of_mem_parts hname ?_
      rintro rfl
      exact hup hname
    exact ⟨Path.parts relative, hn, Place.follow_of_notMem hup base,
      (packageImportPath_eq_iff hn module relative).mpr ⟨hplain, rfl⟩⟩

/-! ## The directory that is scanned -/

theorem Files.Place.follow_append (here : Place) (names more : List String) :
    here.follow (names ++ more) = (here.follow names).follow more := List.foldl_append

/-- In a tree without links, a path that leads to a directory leads where it is spelled. -/
theorem Files.View.place_of_find_directory {v : View} {path : String} (hs : v.store.HasNoLinks)
    (hcwd : v.store.IsReached v.cwd) (h : v.find path = .ok .directory) :
    v.store.place v.cwd true path = .ok (v.spelled path) := by
  obtain ⟨q, follow, hplace, hat, hwalk⟩ := walk_of_find_directory h
  have hbase : v.store.IsReached (if Path.isAbsolute path then [] else v.cwd) := by
    split
    · exact v.store.isReached_root
    · exact hcwd
  rw [hplace, (Store.walk_to_directory hs hbase hwalk hat).1]
  rfl

namespace Task

variable {v : View} {p : Project}

/-- The seeders are scanned in the project, or where their setting says if it starts at the
root of all files. -/
theorem spelled_seederDirectory (v : View) (p : Project) :
    v.spelled (seederDirectory p) =
      (if Path.isAbsolute p.config.seeders then [] else v.spelled p.directory : Place).follow
        (Path.parts p.config.seeders) := by
  unfold seederDirectory View.spelled
  cases habsolute : Path.isAbsolute p.config.seeders with
  | true =>
    have hjoin : Path.join p.directory p.config.seeders = p.config.seeders := by
      unfold Path.join
      rw [habsolute]
      rfl
    rw [hjoin, habsolute]
    rfl
  | false =>
    rw [Path.isAbsolute_join habsolute, Path.parts_join habsolute, Place.follow_append]
    rfl

theorem find_of_list {directory : String} {entries : List View.Listed}
    (h : v.list directory = .ok entries) (hne : entries ≠ []) :
    v.find directory = .ok .directory := by
  unfold View.list at h
  unfold View.find
  cases hp : v.store.place v.cwd true directory with
  | error fault =>
    rw [hp] at h
    cases h
  | ok q =>
    rw [hp] at h
    dsimp only at h ⊢
    cases hat : v.store.at? q with
    | none =>
      rw [hat] at h
      cases h
    | some e =>
      rw [hat] at h
      cases e with
      | directory => rfl
      | file bytes x =>
        cases h
        exact absurd rfl hne
      | link target =>
        cases h
        exact absurd rfl hne

/-- Seeders are only found in a directory. -/
theorem find_of_seeders {directory : String} {available : List String}
    (h : Resolve.seeders v directory = .ok available) : v.find directory = .ok .directory := by
  unfold Resolve.seeders Scan.exportedFunctions Scan.results Scan.sourceFiles at h
  cases hl : v.list directory with
  | error fault =>
    rw [hl] at h
    cases h
  | ok entries =>
    refine find_of_list hl ?_
    rintro rfl
    rw [hl] at h
    cases h

/-! ## What is planned and injected -/

theorem seedPlan_ok {seeders : List String} {plan : Plan} (h : seedPlan v p seeders = .ok plan) :
    ∃ available module package, Resolve.seeders v (seederDirectory p) = .ok available ∧
      p.modulePath = .ok module ∧
      plan = seedPlanOf (packageImportPath module p.config.seeders) package seeders := by
  obtain ⟨found, module, stated, hscan, hne, -, hmodule, -, rfl⟩ := seedPlan_eq_ok_iff.mp h
  exact ⟨_, module, _, seeders_eq_ok_iff.mpr ⟨found, hscan, hne, rfl⟩, hmodule, rfl⟩

/-- The injected file imports the package of the seeders. -/
theorem source_seedPlan {seeders : List String} {plan : Plan} {path package : String}
    (h : plan = seedPlanOf path package seeders) (p : Project) :
    ∃ text, Injection.source p plan = .ok text ∧
      StandsIn (importLine ⟨some package, path⟩) text := by
  subst h
  obtain ⟨text, htext, himport, -⟩ := source_seedPlanOf p path package seeders
  exact ⟨text, htext, himport⟩

end Task

/-- When the running of seeders is planned, the injected file takes their package from the import
path that the setting gives. This path means the scanned directory exactly if the setting is
written from the project and plainly: apart from slashes at its ends and steps `./` in front, no
name is empty, a dot or two dots. In a tree without links, the scanned directory is where its
path is spelled. -/
theorem a_plain_setting_is_imported_as_it_is_scanned {v : View} {p : Project}
    {seeders : List String} {plan : Plan} (hp : Task.seedPlan v p seeders = .ok plan) :
    ∃ module package text, p.modulePath = .ok module ∧
      Injection.source p plan = .ok text ∧
      StandsIn
        (Task.importLine ⟨some package, packageImportPath module p.config.seeders⟩) text ∧
      (v.store.HasNoLinks → v.store.IsReached v.cwd →
        v.store.place v.cwd true (Task.seederDirectory p) =
          .ok (v.spelled (Task.seederDirectory p))) ∧
      (Denotes module (v.spelled p.directory) (packageImportPath module p.config.seeders)
          (v.spelled (Task.seederDirectory p)) ↔
        (Path.isAbsolute p.config.seeders = false ∨ v.spelled p.directory = []) ∧
          (insideModule p.config.seeders = [] ∨
            Path.IsPlain (insideModule p.config.seeders))) := by
  obtain ⟨available, module, package, havailable, hmodule, hplan⟩ := Task.seedPlan_ok hp
  obtain ⟨text, htext, hstands⟩ := Task.source_seedPlan hplan p
  have hfound := Task.find_of_seeders havailable
  refine ⟨module, package, text, hmodule, htext, hstands,
    fun hs hcwd => View.place_of_find_directory hs hcwd hfound, ?_⟩
  rw [Task.spelled_seederDirectory, denotes_packageImportPath_iff]
  refine and_congr_left fun _ => ?_
  cases Path.isAbsolute p.config.seeders with
  | true =>
    rw [if_pos rfl, eq_comm]
    simp
  | false => simp

/-! ## A shop with a seeder -/

namespace Sample

def seederText : String := "package seeder\n\nfunc Run() \x7b\x7d\n"

/-- The shop with a seeder. -/
def seeded : World :=
  ⟨⟨[(["shop"], .directory), (["shop", "seeders"], .directory),
      (["shop", "seeders", "seeder.go"], .file (View.encode seederText) false)]⟩,
    [], none, .empty, 0, []⟩

/-- The shop with a setting for its seeders. -/
def seeding (setting : String) : Project :=
  { project with config := { Config.default with seeders := setting } }

/-- What the analysis finds in the seeder. -/
theorem parse_seeder : ∃ tree, Go.parse seederText.toList = .ok tree ∧
    tree.exportedFunctions = ["Run"] ∧ tree.packageName = some "seeder" := by
  have hfound : ((Go.parse seederText.toList).toOption.map fun t =>
      (t.exportedFunctions, t.packageName)) = some (["Run"], some "seeder") := by decide +kernel
  obtain ⟨tree, htree, hpair⟩ := exists_ok_of_toOption_map hfound
  exact ⟨tree, htree, congrArg Prod.fst hpair, congrArg Prod.snd hpair⟩

theorem isName_seeder : Path.IsName "seeder.go" where
  nonempty := by decide
  no_slash := by decide
  not_dot := by decide
  not_up := by decide

/-- The plan to run the seeder. -/
def seederPlan (setting : String) : Plan :=
  ⟨"inject/seed",
    [(.seederImportPath, .text (packageImportPath "shop" setting)),
      (.seederPackage, .text "seeder"), (.seeders, .list ["Run"])], []⟩

theorem seederDirectory_seeding (setting : String) :
    Task.seederDirectory (seeding setting) = Path.join "/shop" setting := rfl

/-- The file of the seeder, found through the setting. -/
def seederFile (setting : String) : String :=
  Path.join (Task.seederDirectory (seeding setting)) "seeder.go"

theorem fileName?_seederFile (setting : String) :
    Path.fileName? (seederFile setting) = some "seeder.go" := Path.fileName?_join isName_seeder _

section

variable {setting : String} (hrelative : Path.isAbsolute setting = false)
  (hparts : Path.parts setting = ["seeders"])
include hrelative hparts

theorem parts_seeding :
    Path.parts (Task.seederDirectory (seeding setting)) = ["shop", "seeders"] := by
  have hshop : Path.parts "/shop" = ["shop"] := by decide
  rw [seederDirectory_seeding, Path.parts_join hrelative, hparts, hshop]
  rfl

omit hparts in
theorem isAbsolute_seeding :
    Path.isAbsolute (Task.seederDirectory (seeding setting)) = true := by
  rw [seederDirectory_seeding, Path.isAbsolute_join hrelative]
  decide

theorem place_seeding : seeded.store.place [] true (Task.seederDirectory (seeding setting)) =
    .ok ["shop", "seeders"] := by
  have hempty : (Task.seederDirectory (seeding setting)).isEmpty = false := by
    rw [Bool.eq_false_iff]
    intro he
    have hp := parts_seeding hrelative hparts
    rw [String.isEmpty_iff.mp he] at hp
    cases hp
  unfold Store.place
  rw [hempty, isAbsolute_seeding hrelative, parts_seeding hrelative hparts]
  simp [Store.walk, Store.at?, seeded]

theorem place_seederFile : seeded.store.place [] true (seederFile setting) =
    .ok ["shop", "seeders", "seeder.go"] := by
  have hname : Path.parts "seeder.go" = ["seeder.go"] := by decide
  have habsolute := Path.isAbsolute_of_name isName_seeder
  unfold seederFile
  rw [Store.place_of_endsIn (Path.endsIn_join isName_seeder _), Path.isAbsolute_join habsolute,
    Path.parts_join habsolute, hname, isAbsolute_seeding hrelative,
    parts_seeding hrelative hparts]
  simp [Store.walk, Store.at?, seeded]

theorem sourceFiles_seeding :
    Scan.sourceFiles seeded.view (Task.seederDirectory (seeding setting)) =
      .ok [seederFile setting] := by
  have hat : seeded.store.at? ["shop", "seeders"] = some .directory := by
    simp [Store.at?, seeded]
  have hnames : seeded.store.namesIn ["shop", "seeders"] = ["seeder.go"] := by
    simp [Store.namesIn, seeded, Store.nameIn?]
  have hsource : (Path.fileName? (seederFile setting)).bind Path.extension? = some "go" := by
    rw [fileName?_seederFile]
    decide
  unfold Scan.sourceFiles View.list
  rw [World.store_view, show seeded.view.cwd = [] from rfl, place_seeding hrelative hparts]
  dsimp only
  rw [hat, hnames]
  unfold seederFile at hsource ⊢
  simp [Store.at?, seeded, Scan.isSource, hsource]

theorem readSource_seeding {tree : Go.Tree} (htree : Go.parse seederText.toList = .ok tree) :
    Scan.readSource seeded.view (seederFile setting) = .ok ⟨seederFile setting, tree⟩ := by
  have hfind : seeded.view.find (seederFile setting) =
      .ok (.file (View.encode seederText) false) := by
    unfold View.find
    rw [World.store_view, show seeded.view.cwd = [] from rfl, place_seederFile hrelative hparts]
    simp [Store.at?, seeded]
  exact Scan.readSource_of_find hfind htree

theorem reads_seeding {tree : Go.Tree} (htree : Go.parse seederText.toList = .ok tree) :
    Scan.Reads seeded.view (Task.seederDirectory (seeding setting))
      [⟨seederFile setting, tree⟩] where
  listed := sourceFiles_seeding hrelative hparts
  read := by
    intro s hs
    rw [List.mem_singleton.mp hs]
    exact readSource_seeding hrelative hparts htree

theorem scanned_seeding : Task.scanned seeded.view (seeding setting) = .ok ["Run"] := by
  obtain ⟨tree, htree, hfunctions, -⟩ := parse_seeder
  refine Scan.collect_results_eq_ok_iff.mpr ⟨_, reads_seeding hrelative hparts htree, ?_⟩
  rw [List.flatMap_singleton]
  exact hfunctions.symm

/-- However the setting is spelled, if it leads to the seeder, the running of it is planned. -/
theorem seedPlan_seeded :
    Task.seedPlan seeded.view (seeding setting) ["Run"] = .ok (seederPlan setting) := by
  obtain ⟨tree, htree, -, hname⟩ := parse_seeder
  have hscan := scanned_seeding hrelative hparts
  have hpackage : Scan.statedBy [⟨seederFile setting, tree⟩] = some "seeder" := by
    have htest : Scan.isTest (seederFile setting) = false := by
      unfold Scan.isTest
      rw [fileName?_seederFile]
      decide
    simp [Scan.statedBy, htest, Go.Source.packageName, hname]
  refine Task.seedPlan_eq_ok_iff.mpr
    ⟨_, "shop", some "seeder", hscan, by simp, by simp, rfl, ?_, rfl⟩
  rw [(reads_seeding hrelative hparts htree).packageName, hpackage]

end

theorem hasNoLinks_seeded : seeded.store.HasNoLinks :=
  Store.hasNoLinks_of_entries (by simp [seeded])

theorem the_plain_seeders_of_the_shop_are_imported_as_scanned :
    Task.seedPlan seeded.view (seeding "./seeders/") ["Run"] = .ok (seederPlan "./seeders/") ∧
    ∃ module package text, (seeding "./seeders/").modulePath = .ok module ∧
      Injection.source (seeding "./seeders/") (seederPlan "./seeders/") = .ok text ∧
      StandsIn (Task.importLine ⟨some package, packageImportPath module "./seeders/"⟩) text ∧
      seeded.store.place [] true (Task.seederDirectory (seeding "./seeders/")) =
        .ok (seeded.view.spelled (Task.seederDirectory (seeding "./seeders/"))) ∧
      Denotes module (seeded.view.spelled (seeding "./seeders/").directory)
        (packageImportPath module "./seeders/")
        (seeded.view.spelled (Task.seederDirectory (seeding "./seeders/"))) := by
  have hplan : Task.seedPlan seeded.view (seeding "./seeders/") ["Run"] =
      .ok (seederPlan "./seeders/") :=
    seedPlan_seeded (by decide) (by decide)
  have hplain : insideModule "./seeders/" = [] ∨ Path.IsPlain (insideModule "./seeders/") := by
    right
    unfold Path.IsPlain
    decide
  obtain ⟨module, package, text, hmodule, htext, hstands, hplace, hdenotes⟩ :=
    a_plain_setting_is_imported_as_it_is_scanned hplan
  exact ⟨hplan, module, package, text, hmodule, htext, hstands,
    hplace hasNoLinks_seeded (Store.isReached_root _),
    hdenotes.mpr ⟨.inl (by decide), hplain⟩⟩

/-- With two slashes behind the dot, the same directory is scanned, and the import path keeps an
empty name. -/
theorem the_doubled_slash_of_the_shop_is_imported_as_it_is :
    Task.seedPlan seeded.view (seeding ".//seeders") ["Run"] = .ok (seederPlan ".//seeders") ∧
    (∃ text, Injection.source (seeding ".//seeders") (seederPlan ".//seeders") = .ok text ∧
      StandsIn (Task.importLine ⟨some "seeder", "shop//seeders"⟩) text) ∧
    seeded.store.place [] true (Task.seederDirectory (seeding ".//seeders")) =
      .ok ["shop", "seeders"] ∧
    ¬ Denotes "shop" ["shop"] "shop//seeders" ["shop", "seeders"] := by
  have himport : packageImportPath "shop" ".//seeders" = "shop//seeders" := by decide
  have hparts : Path.parts ".//seeders" = ["seeders"] := by decide
  refine ⟨seedPlan_seeded (by decide) hparts, ?_,
    place_seeding (by decide) hparts, ?_⟩
  · rw [← himport]
    exact Task.source_seedPlan rfl _
  · intro hdenotes
    rw [← himport, show (["shop", "seeders"] : Place) = Place.follow ["shop"] ["seeders"] from rfl,
      ← hparts, denotes_packageImportPath_iff] at hdenotes
    revert hdenotes
    unfold Path.IsPlain
    decide

end Sample

end Graft
