-- The results of a scan, taken one by one. What is still to come from a stream is
-- a list, and each call takes its head off. So the calls give the results of the
-- files in the order of their names, up to the first file that cannot be read,
-- then its error, and then nothing. What is looked for may change with what was
-- seen before; the scans that run have no such memory.
import Graft.Proofs.Listings

namespace Graft

/-! ## One entry for each name -/

namespace Files.Store

/-- Nothing stands twice in the tree. -/
def Distinct (s : Store) : Prop := (s.entries.map Prod.fst).Nodup

instance (s : Store) : Decidable s.Distinct := inferInstanceAs (Decidable (List.Nodup _))

theorem nodup_namesIn {s : Store} (h : s.Distinct) (dir : Place) : (s.namesIn dir).Nodup := by
  have hnodup : ((s.entries.map Prod.fst).filterMap (nameIn? dir)).Nodup := by
    refine List.pairwise_filterMap.mpr (h.imp fun hne name hname name' hname' heq => hne ?_)
    rw [nameIn?_eq_some_iff.mp hname, nameIn?_eq_some_iff.mp hname', heq]
  rw [List.filterMap_map] at hnodup
  exact (List.mergeSort_perm _ _).nodup_iff.mpr hnodup

/-- The names in a directory come one after the other by their bytes. -/
theorem pairwise_lt_namesIn {s : Store} (h : s.Distinct) (dir : Place) :
    (s.namesIn dir).Pairwise fun a b => View.encode a < View.encode b := by
  refine ((pairwise_namesIn s dir).and (nodup_namesIn h dir)).imp ?_
  rintro a b ⟨hle, hne⟩
  refine (List.le_iff_lt_or_eq.mp hle).resolve_right fun heq => hne ?_
  -- Names of the same bytes are the same name.
  have hdecode := congrArg View.decode? heq
  rw [View.decode?_encode, View.decode?_encode] at hdecode
  exact Option.some.inj hdecode

end Files.Store

namespace Scan

open Files

variable {α σ : Type} {v : View} {directory : String} {files : List String}

/-- The source files of a directory have names that come one after the other by their bytes. -/
theorem pairwise_lt_of_sourceFiles (hd : v.store.Distinct)
    (h : sourceFiles v directory = .ok files) : ∃ names : List String,
      files = names.map (Path.join directory) ∧
        names.Pairwise fun a b => View.encode a < View.encode b := by
  obtain ⟨p, names, hplace, rfl, -, -, hnone⟩ := isListing_of_sourceFiles h
  by_cases hat : v.store.at? p = some .directory
  · have hfiles := sourceFiles_of_directory hplace hat
    rw [h] at hfiles
    exact ⟨_, Except.ok.inj hfiles, (Store.pairwise_lt_namesIn hd p).sublist List.filter_sublist⟩
  · rw [hnone hat]
    exact ⟨[], rfl, .nil⟩

/-! ## How a scan goes -/

/-- The results of a scan of the directory, where `found` is what the sources have that were read:
all of the directory, or those in front of the first file that cannot be read. -/
inductive IsScan (v : View) (directory : String) (found : List Go.Source → List α) :
    List (Except Error α) → Prop
  | unlisted {e : Error} (h : sourceFiles v directory = .error e) :
      IsScan v directory found [.error e]
  | whole {sources : List Go.Source} (h : Reads v directory sources) :
      IsScan v directory found ((found sources).map .ok)
  | broken {sources : List Go.Source} {path : String} {after : List String} {e : Error}
      (hlisted : sourceFiles v directory = .ok (sources.map Go.Source.path ++ path :: after))
      (hread : ∀ s ∈ sources, readSource v s.path = .ok s)
      (herror : readSource v path = .error e) :
      IsScan v directory found ((found sources).map .ok ++ [.error e])

/-- What is looked for in one source after the other, with a memory of what was seen. -/
abbrev Search (σ α : Type) := σ → Go.Source → List α × σ

namespace Search

variable (v) (g : Search σ α)

/-- What the sources have, one after the other. -/
def found : σ → List Go.Source → List α
  | _, [] => []
  | m, s :: more => (g m s).1 ++ found (g m s).2 more

/-- As `Stream.advance`, with the memory. -/
def advance (directory : String) :
    σ → List String → Option (Except Error α) × Stream α × σ
  | m, [] => (none, ⟨directory, some [], [], false⟩, m)
  | m, path :: more =>
    match readSource v path with
    | .error e => (some (.error e), ⟨directory, some more, [], true⟩, m)
    | .ok s =>
      match g m s with
      | ([], m') => advance directory m' more
      | (x :: xs, m') => (some (.ok x), ⟨directory, some more, xs, false⟩, m')

/-- As `Stream.next`, with the memory. -/
def next (s : Stream α) (m : σ) : Option (Except Error α) × Stream α × σ :=
  match s.pending with
  | x :: xs => (some (.ok x), { s with pending := xs }, m)
  | [] =>
    if s.ended then (none, s, m)
    else
      match s.files with
      | some files => advance v g s.directory m files
      | none =>
        match sourceFiles v s.directory with
        | .error e => (some (.error e), { s with ended := true }, m)
        | .ok files => advance v g s.directory m files

/-- What call `n` gives, counted from zero. -/
def item : Nat → Stream α → σ → Option (Except Error α)
  | 0, s, m => (next v g s m).1
  | n + 1, s, m => item n (next v g s m).2.1 (next v g s m).2.2

/-! ### What is still to come -/

/-- What the files have to give, with the error at the first that cannot be read. -/
def given : σ → List String → List (Except Error α)
  | _, [] => []
  | m, path :: more =>
    match readSource v path with
    | .error e => [.error e]
    | .ok s => (g m s).1.map .ok ++ given (g m s).2 more

/-- What a stream is still to give. -/
def rest (s : Stream α) (m : σ) : List (Except Error α) :=
  s.pending.map .ok ++
    if s.ended then []
    else
      match s.files with
      | some files => given v g m files
      | none =>
        match sourceFiles v s.directory with
        | .error e => [.error e]
        | .ok files => given v g m files

/-- The first result of the files is taken off, and the others stay. Files without a result are
passed over. -/
theorem advance_spec (directory : String) (m : σ) (files : List String) :
    (advance v g directory m files).1 = (given v g m files).head? ∧
      rest v g (advance v g directory m files).2.1 (advance v g directory m files).2.2 =
        (given v g m files).tail := by
  induction files generalizing m with
  | nil => exact ⟨rfl, rfl⟩
  | cons path more ih =>
    unfold advance given
    cases readSource v path with
    | error e => exact ⟨rfl, rfl⟩
    | ok s =>
      dsimp only
      rcases g m s with ⟨_ | ⟨x, xs⟩, m'⟩
      · exact ih m'
      · exact ⟨rfl, rfl⟩

/-- A call gives the first of what is to come, and leaves the others to come. -/
theorem next_spec (s : Stream α) (m : σ) :
    (next v g s m).1 = (rest v g s m).head? ∧
      rest v g (next v g s m).2.1 (next v g s m).2.2 = (rest v g s m).tail := by
  obtain ⟨directory, files, pending, ended⟩ := s
  cases pending with
  | cons x xs => exact ⟨rfl, rfl⟩
  | nil =>
    cases ended with
    | true => exact ⟨rfl, rfl⟩
    | false =>
      cases files with
      | some files => exact advance_spec v g directory m files
      | none =>
        unfold next rest
        dsimp only
        cases sourceFiles v directory with
        | error e => exact ⟨rfl, rfl⟩
        | ok files => exact advance_spec v g directory m files

/-- The calls give what is to come, one after the other, and then nothing. -/
theorem item_eq (n : Nat) (s : Stream α) (m : σ) : item v g n s m = (rest v g s m)[n]? := by
  induction n generalizing s m with
  | zero => rw [item, (next_spec v g s m).1, List.head?_eq_getElem?]
  | succ n ih => rw [item, ih, (next_spec v g s m).2, List.getElem?_tail]

/-- Files give what the sources have that can be read, and the error of the first that cannot. -/
theorem given_cases (m : σ) (files : List String) : ∃ sources : List Go.Source,
    (∀ s ∈ sources, readSource v s.path = .ok s) ∧
      (files = sources.map Go.Source.path ∧ given v g m files = (found g m sources).map .ok ∨
        ∃ path after e, files = sources.map Go.Source.path ++ path :: after ∧
          readSource v path = .error e ∧
          given v g m files = (found g m sources).map .ok ++ [.error e]) := by
  induction files generalizing m with
  | nil => exact ⟨[], nofun, .inl ⟨rfl, rfl⟩⟩
  | cons path more ih =>
    cases hread : readSource v path with
    | error e =>
      refine ⟨[], nofun, .inr ⟨path, more, e, rfl, hread, ?_⟩⟩
      rw [given, hread]
      rfl
    | ok s =>
      have hpath : s.path = path := path_of_readSource hread
      obtain ⟨sources, hsources, hcases⟩ := ih (g m s).2
      have hgiven : given v g m (path :: more) =
          (g m s).1.map .ok ++ given v g (g m s).2 more := by
        rw [given, hread]
      refine ⟨s :: sources, List.forall_mem_cons.mpr ⟨by rwa [hpath], hsources⟩, ?_⟩
      rw [hgiven, found, List.map_append, List.map_cons, hpath]
      obtain ⟨rfl, hmore⟩ | ⟨bad, after, e, rfl, hbad, hmore⟩ := hcases
      · exact .inl ⟨rfl, by rw [hmore]⟩
      · exact .inr ⟨bad, after, e, rfl, hbad, by rw [hmore, List.append_assoc]⟩

/-- What a stream gives in all is what a scan of its directory has. -/
theorem isScan_rest (directory : String) (m : σ) :
    IsScan v directory (found g m) (rest v g (.start directory) m) := by
  unfold rest Stream.start
  dsimp only
  rw [List.map_nil, List.nil_append, if_neg Bool.false_ne_true]
  cases hfiles : sourceFiles v directory with
  | error e => exact .unlisted hfiles
  | ok files =>
    dsimp only
    obtain ⟨sources, hread, ⟨rfl, hgiven⟩ | ⟨path, after, e, rfl, herror, hgiven⟩⟩ :=
      given_cases v g m files
    · rw [hgiven]
      exact .whole ⟨hfiles, hread⟩
    · rw [hgiven]
      exact .broken hfiles hread herror

end Search

/-! ## Scans without a memory -/

/-- A search that remembers nothing. -/
def steady (f : Go.Source → List α) : Search Unit α := fun m s => (f s, m)

section Steady

variable (v) (f : Go.Source → List α)

/-- What call `n` gives, counted from zero. -/
def Stream.item : Nat → Stream α → Option (Except Error α)
  | 0, s => (s.next v f).1
  | n + 1, s => Stream.item n (s.next v f).2

/-- The stream after `n` calls. -/
def Stream.skip : Nat → Stream α → Stream α
  | 0, s => s
  | n + 1, s => Stream.skip n (s.next v f).2

theorem found_steady (sources : List Go.Source) :
    (steady f).found () sources = sources.flatMap f := by
  induction sources with
  | nil => rfl
  | cons s more ih => rw [Search.found, List.flatMap_cons, ← ih]; rfl

theorem advance_steady (directory : String) (files : List String) :
    (steady f).advance v directory () files =
      ((Stream.advance v f directory files).1, (Stream.advance v f directory files).2, ()) := by
  induction files with
  | nil => rfl
  | cons path more ih =>
    unfold Search.advance Stream.advance
    cases readSource v path with
    | error e => rfl
    | ok s =>
      dsimp only [steady]
      cases f s with
      | nil => exact ih
      | cons x xs => rfl

theorem next_steady (s : Stream α) :
    (steady f).next v s () = ((s.next v f).1, (s.next v f).2, ()) := by
  obtain ⟨directory, files, _ | ⟨x, xs⟩, _ | _⟩ := s
  case nil.false =>
    cases files with
    | some files => exact advance_steady v f directory files
    | none =>
      unfold Search.next Stream.next
      dsimp only
      cases sourceFiles v directory with
      | error e => rfl
      | ok files => exact advance_steady v f directory files
  all_goals rfl

theorem item_steady (n : Nat) (s : Stream α) :
    (steady f).item v n s () = Stream.item v f n s := by
  induction n generalizing s with
  | zero => rw [Search.item, Stream.item, next_steady]
  | succ n ih => rw [Search.item, Stream.item, next_steady, ih]

theorem given_steady (files : List String) :
    (steady f).given v () files = resultsOf v f files := by
  induction files with
  | nil => rfl
  | cons path more ih =>
    rw [Search.given, resultsOf, ← ih]
    rfl

theorem rest_steady (directory : String) :
    (steady f).rest v (.start directory) () = results v directory f := by
  unfold Search.rest Stream.start results
  dsimp only
  rw [List.map_nil, List.nil_append, if_neg Bool.false_ne_true]
  cases sourceFiles v directory with
  | error e => rfl
  | ok files => exact given_steady v f files

/-- The calls give the results of a scan, one after the other, and then nothing. -/
theorem item_start (directory : String) (n : Nat) :
    Stream.item v f n (.start directory) = (results v directory f)[n]? := by
  rw [← item_steady, Search.item_eq, rest_steady]

theorem isScan_results (directory : String) :
    IsScan v directory (List.flatMap f) (results v directory f) := by
  have hscan := (steady f).isScan_rest v directory ()
  rw [rest_steady, funext (found_steady f)] at hscan
  exact hscan

theorem directory_advance (directory : String) (files : List String) :
    (Stream.advance v f directory files).2.directory = directory := by
  induction files with
  | nil => rfl
  | cons path more ih =>
    unfold Stream.advance
    split
    · rfl
    · split
      · exact ih
      · rfl

theorem directory_next (s : Stream α) : (s.next v f).2.directory = s.directory := by
  unfold Stream.next
  split
  · rfl
  · split
    · rfl
    · split
      · exact directory_advance v f _ _
      · split
        · rfl
        · exact directory_advance v f _ _

/-- A scan goes on in the directory in which it began. -/
theorem directory_skip (n : Nat) (s : Stream α) :
    (Stream.skip v f n s).directory = s.directory := by
  induction n generalizing s with
  | zero => rfl
  | succ n ih => rw [Stream.skip, ih, directory_next]

end Steady

/-! ## Questions with a memory -/

/-- As `Question`, but the answer may depend on what was asked before. -/
abbrev Inquiry (σ : Type) :=
  σ → List Go.Import → Go.Expr → String → List Go.Expr → Bool × σ

/-- The calls of the source that answer. Only calls of a selection are asked, one after the
other. -/
def Inquiry.sift (q : Inquiry σ) (s : Go.Source) : σ → List Go.Call → List Site × σ
  | m, [] => ([], m)
  | m, c :: more =>
    match c.callee.selector? with
    | none => Inquiry.sift q s m more
    | some (base, name) =>
      let (answer, m') := q m s.imports base name c.args
      let (sites, last) := Inquiry.sift q s m' more
      (if answer then ⟨s.path, c.line, c.callee, c.args, s.imports⟩ :: sites else sites, last)

def Inquiry.search (q : Inquiry σ) : Search σ Site := fun m s => q.sift s m s.calls

/-- A question asks without a memory. -/
def Question.inquiry (q : Question) : Inquiry Unit :=
  fun m imports base name args => (q imports base name args, m)

theorem search_inquiry (q : Question) :
    Inquiry.search (Question.inquiry q) = steady (sitesIn q) := by
  funext m s
  have hsift : ∀ calls : List Go.Call, Inquiry.sift (Question.inquiry q) s m calls =
      ((calls.filter (answers q s.imports)).map fun c =>
        ⟨s.path, c.line, c.callee, c.args, s.imports⟩, m) := by
    intro calls
    induction calls with
    | nil => rfl
    | cons c more ih =>
      unfold Inquiry.sift
      rw [List.filter_cons, answers]
      cases hselect : c.callee.selector? with
      | none => simpa using ih
      | some selected =>
        obtain ⟨base, name⟩ := selected
        dsimp only [Question.inquiry] at ih ⊢
        rw [ih]
        split
        · rfl
        · rfl
  exact hsift s.calls

/-! ## The results of a scan -/

theorem exists_readSource_iff {path : String} : (∃ s, readSource v path = .ok s) ↔
    ∃ text tree, v.readText path = .ok text ∧ Go.parse text.toList = .ok tree := by
  unfold readSource Go.Source.parse
  cases v.readText path with
  | error fault => exact ⟨nofun, nofun⟩
  | ok text =>
    cases htree : Go.parse text.toList with
    | error e =>
      dsimp only
      rw [htree]
      refine ⟨nofun, ?_⟩
      rintro ⟨_, tree, ⟨⟩, hparse⟩
      cases htree.symm.trans hparse
    | ok tree =>
      dsimp only
      rw [htree]
      exact ⟨fun _ => ⟨text, tree, rfl, htree⟩, fun _ => ⟨_, rfl⟩⟩

theorem exists_reads_iff : (∃ sources, Reads v directory sources) ↔
    ∃ files, sourceFiles v directory = .ok files ∧
      ∀ path ∈ files, ∃ s, readSource v path = .ok s := by
  constructor
  · rintro ⟨sources, hlisted, hread⟩
    exact ⟨_, hlisted, List.forall_mem_map.mpr fun s hs => ⟨s, hread s hs⟩⟩
  · rintro ⟨files, hlisted, hread⟩
    obtain ⟨sources, hsources, ⟨rfl, -⟩ | ⟨path, after, e, rfl, herror, -⟩⟩ :=
      (steady fun s => [s]).given_cases v () files
    · exact ⟨sources, hlisted, hsources⟩
    · obtain ⟨s, hs⟩ := hread path (List.mem_append_right _ List.mem_cons_self)
      cases hs.symm.trans herror

/-- All results can be collected exactly if the directory is listed and all its source files can be
read and parsed. -/
theorem exists_collect_iff {f : Go.Source → List α} :
    (∃ xs, collect (results v directory f) = .ok xs) ↔
      ∃ files, sourceFiles v directory = .ok files ∧ ∀ path ∈ files, ∃ text tree,
        v.readText path = .ok text ∧ Go.parse text.toList = .ok tree := by
  simp only [← exists_readSource_iff]
  rw [← exists_reads_iff]
  constructor
  · rintro ⟨xs, hxs⟩
    obtain ⟨sources, hreads, -⟩ := collect_results_eq_ok_iff.mp hxs
    exact ⟨sources, hreads⟩
  · rintro ⟨sources, hreads⟩
    exact ⟨_, collect_results_eq_ok_iff.mpr ⟨sources, hreads, rfl⟩⟩

/-- The calls on a scan give the results of the source files one by one, in the order of the bytes
of their names, up to the first file that cannot be read or parsed. Then, or if there is no listing,
they give one error, and nothing after it. All functions are found exactly if all files can be read
and parsed. An iteration that begins after another one scans the directory again, as it is then. -/
theorem a_scan_gives_its_results_file_by_file (v : View) (directory : String) :
    (IsScan v directory (List.flatMap Go.Source.exportedFunctions)
        (exportedFunctions v directory) ∧
      ∀ n, Stream.item v Go.Source.exportedFunctions n (.start directory) =
        (exportedFunctions v directory)[n]?) ∧
    (∀ q : Question, ∃ rs, IsScan v directory (List.flatMap (sitesIn q)) rs ∧
      ∀ n, Stream.item v (sitesIn q) n (.start directory) = rs[n]? ∧
        (Inquiry.search q.inquiry).item v n (.start directory) () = rs[n]?) ∧
    (∀ (σ : Type) (q : Inquiry σ) (m : σ), ∃ rs, IsScan v directory (q.search.found m) rs ∧
      ∀ n, q.search.item v n (.start directory) m = rs[n]?) ∧
    (∀ files, sourceFiles v directory = .ok files → IsListing v directory files ∧
      (v.store.Distinct → ∃ names : List String, files = names.map (Path.join directory) ∧
        names.Pairwise fun a b => View.encode a < View.encode b)) ∧
    ((∃ xs, collect (exportedFunctions v directory) = .ok xs) ↔
      ∃ files, sourceFiles v directory = .ok files ∧ ∀ path ∈ files, ∃ text tree,
        v.readText path = .ok text ∧ Go.parse text.toList = .ok tree) ∧
    ∀ v' n k, Stream.item v' Go.Source.exportedFunctions k
        (.start (Stream.skip v Go.Source.exportedFunctions n (.start directory)).directory) =
      (exportedFunctions v' directory)[k]? := by
  refine ⟨⟨isScan_results v _ directory, item_start v _ directory⟩,
    fun q => ⟨_, isScan_results v _ directory, fun n => ⟨item_start v _ directory n, ?_⟩⟩,
    fun σ q m => ⟨_, q.search.isScan_rest v directory m, fun n => q.search.item_eq v n _ m⟩,
    fun files hfiles => ⟨isListing_of_sourceFiles hfiles, fun hd =>
      pairwise_lt_of_sourceFiles hd hfiles⟩, exists_collect_iff, ?_⟩
  · rw [search_inquiry, item_steady, item_start]
  · intro v' n k
    rw [directory_skip]
    exact item_start v' _ directory k

end Scan

namespace Sample

open Files Scan

def runText : String := "package seeder\n\nfunc Run() \x7b\x7d\n"

/-- Two sources, the second of which is no text. -/
def blotted : View :=
  ⟨⟨[(["seeders"], .directory), (["seeders", "users.go"], .file [255] false),
    (["seeders", "run.go"], .file (View.encode runText) false)]⟩, []⟩

theorem sourceFiles_blotted :
    sourceFiles blotted "/seeders" = .ok ["/seeders/run.go", "/seeders/users.go"] := by
  have hplace : blotted.store.place blotted.cwd true "/seeders" = .ok ["seeders"] := by
    rw [Store.place_eq_walk (by decide) (by decide),
      show Path.parts "/seeders" = ["seeders"] by decide]
    simp [Store.walk, Store.at?, blotted]
  have hnames : blotted.store.namesIn ["seeders"] = ["run.go", "users.go"] := by
    have hfound : blotted.store.entries.filterMap (fun e => Store.nameIn? ["seeders"] e.1) =
        ["users.go", "run.go"] := rfl
    have hle : Store.nameLe "users.go" "run.go" = false := by decide +kernel
    rw [Store.namesIn, hfound]
    simp [List.mergeSort, hle]
  have hpaths : (["run.go", "users.go"].filter
      (namesSource blotted.store "/seeders" ["seeders"])).map (Path.join "/seeders") =
        ["/seeders/run.go", "/seeders/users.go"] := by decide +kernel
  rw [sourceFiles_of_directory hplace rfl, hnames, hpaths]

theorem find_blotted :
    blotted.find "/seeders/run.go" = .ok (.file (View.encode runText) false) ∧
      blotted.find "/seeders/users.go" = .ok (.file [255] false) := by
  unfold View.find
  rw [Store.place_eq_walk (by decide) (by decide), Store.place_eq_walk (by decide) (by decide),
    show Path.parts "/seeders/run.go" = ["seeders", "run.go"] by decide,
    show Path.parts "/seeders/users.go" = ["seeders", "users.go"] by decide]
  simp [Store.walk, Store.at?, blotted]

theorem exportedFunctions_blotted : exportedFunctions blotted "/seeders" =
    [.ok "Run", .error (.unreadable "/seeders/users.go" .notText)] := by
  have hfound : (Go.parse runText.toList).toOption.map Go.Tree.exportedFunctions =
      some ["Run"] := by decide +kernel
  obtain ⟨tree, htree, hfunctions⟩ := exists_ok_of_toOption_map hfound
  have hrun : readSource blotted "/seeders/run.go" = .ok ⟨"/seeders/run.go", tree⟩ :=
    readSource_of_find find_blotted.1 htree
  have husers : readSource blotted "/seeders/users.go" =
      .error (.unreadable "/seeders/users.go" .notText) := by
    have hdecode : View.decode? [255] = none := by decide +kernel
    unfold readSource View.readText View.readBytes
    rw [find_blotted.2]
    dsimp only
    rw [hdecode]
  rw [exportedFunctions, results, sourceFiles_blotted]
  simp only [resultsOf, hrun, husers, Go.Source.exportedFunctions, hfunctions]
  rfl

/-- The second call finds the file that is no text, and there is nothing after it. -/
theorem the_scan_of_the_blotted_seeders_ends_with_an_error :
    blotted.store.Distinct ∧
      sourceFiles blotted "/seeders" = .ok ["/seeders/run.go", "/seeders/users.go"] ∧
      (∃ names : List String,
        ["/seeders/run.go", "/seeders/users.go"] = names.map (Path.join "/seeders") ∧
          names.Pairwise fun a b => View.encode a < View.encode b) ∧
      Stream.item blotted Go.Source.exportedFunctions 0 (.start "/seeders") = some (.ok "Run") ∧
      Stream.item blotted Go.Source.exportedFunctions 1 (.start "/seeders") =
        some (.error (.unreadable "/seeders/users.go" .notText)) ∧
      ∀ n, Stream.item blotted Go.Source.exportedFunctions (n + 2) (.start "/seeders") = none := by
  have hdistinct : blotted.store.Distinct := by decide +kernel
  obtain ⟨⟨-, hitem⟩, -, -, hlisting, -⟩ :=
    a_scan_gives_its_results_file_by_file blotted "/seeders"
  simp only [exportedFunctions_blotted] at hitem
  exact ⟨hdistinct, sourceFiles_blotted, (hlisting _ sourceFiles_blotted).2 hdistinct, hitem 0,
    hitem 1, fun n => hitem (n + 2)⟩

end Sample
end Graft
