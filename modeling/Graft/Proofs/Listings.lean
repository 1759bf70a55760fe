-- What stands in a directory, as a scan sees it: the files whose names end in
-- the extension of sources, in the order of their names. Names are compared
-- character by character, which is the order of their bytes.
import Graft.Proofs.PathNames
import Graft.Proofs.FilesAtPaths
import Graft.Scan

namespace Graft

/-! ## The order of bytes -/

namespace Files.View

/-- The bytes of a smaller character come first, whatever follows. -/
theorem encodeChar_append_lt {c d : Char} (h : c < d) (xs ys : List UInt8) :
    String.utf8EncodeChar c ++ xs < String.utf8EncodeChar d ++ ys := by
  have hlt : c.val.toNat < d.val.toNat := h
  have hd : d.val.toNat < 1114112 := by
    rcases d.valid with hd | ⟨-, hd⟩ <;> omega
  unfold String.utf8EncodeChar
  dsimp only
  have htwice : ∀ k, k / 4096 = k / 64 / 64 := by omega
  have hthrice : ∀ k, k / 262144 = k / 64 / 64 / 64 := by omega
  generalize c.val.toNat = m at hlt ⊢
  generalize d.val.toNat = n at hlt hd ⊢
  -- A longer form opens with a greater byte; in forms of one length the first digit that differs
  -- is greater.
  repeat' split
  all_goals
    simp only [List.cons_append, List.nil_append, List.cons_lt_cons_iff, UInt8.lt_iff_toNat_lt,
      ← UInt8.toNat_inj, UInt8.toNat_ofNat', htwice, hthrice]
    omega

/-- A text that comes first by its characters comes first by its bytes. -/
theorem encode_lt {a b : String} (h : a.toList < b.toList) : encode a < encode b := by
  have key : ∀ cs ds : List Char, cs < ds →
      cs.flatMap String.utf8EncodeChar < ds.flatMap String.utf8EncodeChar := by
    intro cs
    induction cs with
    | nil =>
      intro ds hds
      cases ds with
      | nil => exact absurd hds (List.lt_irrefl _)
      | cons d ds =>
        rw [List.flatMap_nil, List.flatMap_cons]
        cases hd : String.utf8EncodeChar d with
        | nil => exact absurd hd String.utf8EncodeChar_ne_nil
        | cons b bs => exact List.nil_lt_cons _ _
    | cons c cs ih =>
      intro ds hds
      cases ds with
      | nil => cases hds
      | cons d ds =>
        rw [List.flatMap_cons, List.flatMap_cons]
        rcases List.cons_lt_cons_iff.mp hds with hcd | ⟨rfl, hrest⟩
        · exact encodeChar_append_lt hcd _ _
        · exact List.append_left_lt (ih ds hrest)
  have ha := encode_ofList a.toList
  have hb := encode_ofList b.toList
  rw [String.ofList_toList] at ha hb
  rw [ha, hb]
  exact key _ _ h

end Files.View

namespace Files.Store

/-- Names are ordered by their bytes. -/
theorem nameLe_iff {a b : String} : nameLe a b = true ↔ View.encode a ≤ View.encode b := by
  unfold nameLe
  rw [Bool.or_eq_true, beq_iff_eq, decide_eq_true_iff]
  constructor
  · rintro (rfl | h)
    · exact List.le_refl _
    · exact List.le_of_lt (View.encode_lt h)
  · intro h
    by_cases hab : a = b
    · exact .inl hab
    · refine .inr (Decidable.by_contra fun hn => ?_)
      rcases List.le_iff_lt_or_eq.mp (List.not_lt.mp hn) with hba | heq
      · exact List.not_lt.mpr h (View.encode_lt hba)
      · exact hab (String.toList_inj.mp heq.symm)

theorem pairwise_namesIn (s : Store) (dir : Place) :
    (s.namesIn dir).Pairwise fun a b => View.encode a ≤ View.encode b := by
  have htrans : ∀ a b c, nameLe a b = true → nameLe b c = true → nameLe a c = true :=
    fun a b c hab hbc => nameLe_iff.mpr (List.le_trans (nameLe_iff.mp hab) (nameLe_iff.mp hbc))
  have htotal : ∀ a b, (nameLe a b || nameLe b a) = true := by
    intro a b
    rw [Bool.or_eq_true, nameLe_iff, nameLe_iff]
    exact List.le_total _ _
  have hsorted := List.pairwise_mergeSort htrans htotal
    (s.entries.filterMap fun e => nameIn? dir e.1)
  exact hsorted.imp fun h => nameLe_iff.mp h

theorem nameIn?_eq_some_iff {dir p : Place} {name : String} :
    nameIn? dir p = some name ↔ p = dir ++ [name] := by
  unfold nameIn?
  constructor
  · intro h
    split at h
    · next hp =>
      rw [Bool.and_eq_true, decide_eq_true_iff] at hp
      obtain ⟨rest, rfl⟩ := List.isPrefixOf_iff_prefix.mp hp.2
      have hlen : rest.length = 1 := by
        have := hp.1
        rw [List.length_append] at this
        omega
      obtain ⟨x, rfl⟩ := List.length_eq_one_iff.mp hlen
      rw [List.getLast?_concat] at h
      rw [Option.some.inj h]
    · cases h
  · rintro rfl
    simp

/-- The names in a directory are those at which something stands. -/
theorem mem_namesIn {s : Store} {dir : Place} {name : String} :
    name ∈ s.namesIn dir ↔ (s.at? (dir ++ [name])).isSome := by
  unfold namesIn at?
  rw [List.mem_mergeSort, List.mem_filterMap, if_neg (by simp), Option.isSome_map,
    List.find?_isSome]
  simp only [nameIn?_eq_some_iff, beq_iff_eq]

end Files.Store

/-! ## The source files of a directory -/

namespace Scan

open Files

variable {v : View} {directory : String} {files : List String}

/-- The files are those of a directory: the ones at its names that end in the extension, in the
order of the bytes of the names. There are none if the path leads to a file. -/
def IsListing (v : View) (directory : String) (files : List String) : Prop :=
  ∃ p names, v.store.place v.cwd true directory = .ok p ∧
    files = names.map (Path.join directory) ∧
    (names.Pairwise fun a b => View.encode a ≤ View.encode b) ∧
    (v.store.at? p = some .directory → ∀ name, Path.IsName name →
      (name ∈ names ↔ Path.extension? name = some "go" ∧
        ∃ bytes executable, v.store.at? (p ++ [name]) = some (.file bytes executable))) ∧
    (v.store.at? p ≠ some .directory → names = [])

/-- A name in the directory at the place is the one of a source file. -/
def namesSource (s : Store) (directory : String) (p : Place) (name : String) : Bool :=
  match s.at? (p ++ [name]) with
  | some e => isSource ⟨Path.join directory name, e⟩
  | none => false

theorem filter_listed (s : Store) (directory : String) (p : Place) (names : List String) :
    ((names.filterMap fun name =>
        (s.at? (p ++ [name])).map fun e => (⟨Path.join directory name, e⟩ : View.Listed)).filter
        isSource).map (fun e => e.path) =
      (names.filter (namesSource s directory p)).map (Path.join directory) := by
  induction names with
  | nil => rfl
  | cons name names ih =>
    cases he : s.at? (p ++ [name]) with
    | none => simpa [namesSource, he] using ih
    | some e =>
      by_cases hs : isSource ⟨Path.join directory name, e⟩ = true
      · simpa [namesSource, he, hs] using ih
      · simpa [namesSource, he, hs] using ih

theorem namesSource_iff {s : Store} {p : Place} {name : String} (hn : Path.IsName name) :
    namesSource s directory p name = true ↔ Path.extension? name = some "go" ∧
      ∃ bytes executable, s.at? (p ++ [name]) = some (.file bytes executable) := by
  unfold namesSource isSource
  cases s.at? (p ++ [name]) with
  | none => simp
  | some e => cases e <;> simp [Path.fileName?_join hn]

/-- In a directory, the source files are found by their names. -/
theorem sourceFiles_of_directory {p : Place} (hp : v.store.place v.cwd true directory = .ok p)
    (hdirectory : v.store.at? p = some .directory) :
    sourceFiles v directory =
      .ok (((v.store.namesIn p).filter (namesSource v.store directory p)).map
        (Path.join directory)) := by
  unfold sourceFiles View.list
  rw [hp]
  dsimp only
  rw [hdirectory]
  exact congrArg Except.ok (filter_listed _ _ _ _)

theorem isListing_of_sourceFiles (h : sourceFiles v directory = .ok files) :
    IsListing v directory files := by
  unfold sourceFiles View.list at h
  cases hp : v.store.place v.cwd true directory with
  | error fault =>
    rw [hp] at h
    cases h
  | ok p =>
    rw [hp] at h
    dsimp only at h
    cases he : v.store.at? p with
    | none =>
      rw [he] at h
      cases h
    | some e =>
      rw [he] at h
      cases e with
      | directory =>
        dsimp only at h
        rw [filter_listed] at h
        cases h
        refine ⟨p, (v.store.namesIn p).filter (namesSource v.store directory p), hp, rfl,
          (Store.pairwise_namesIn _ _).sublist List.filter_sublist, fun _ name hn => ?_,
          fun hne => absurd he hne⟩
        rw [List.mem_filter, Store.mem_namesIn, namesSource_iff hn]
        constructor
        · exact fun hname => hname.2
        · rintro ⟨hgo, bytes, executable, hfile⟩
          exact ⟨by rw [hfile]; rfl, hgo, bytes, executable, hfile⟩
      | file bytes executable =>
        cases h
        exact ⟨p, [], hp, rfl, .nil, fun hd => (nomatch he.symm.trans hd),
          fun _ => rfl⟩
      | link target =>
        cases h
        exact ⟨p, [], hp, rfl, .nil, fun hd => (nomatch he.symm.trans hd),
          fun _ => rfl⟩

end Scan
/-! ## Whole scans -/

namespace Scan

open Files

variable {α : Type} {v : View} {directory : String}

/-- The sources are all that stand in the directory, in the order of their names, and each can be
read. -/
structure Reads (v : View) (directory : String) (sources : List Go.Source) : Prop where
  listed : sourceFiles v directory = .ok (sources.map Go.Source.path)
  read : ∀ s ∈ sources, readSource v s.path = .ok s

/-- The source keeps the path that it was read from. -/
theorem path_of_readSource {path : String} {s : Go.Source} (h : readSource v path = .ok s) :
    s.path = path := by
  unfold readSource Go.Source.parse at h
  split at h
  · cases h
  · rename_i text _
    cases htree : Go.parse text.toList with
    | error e =>
      rw [htree] at h
      cases h
    | ok tree =>
      rw [htree] at h
      cases h
      rfl

theorem readSource_of_find {path text : String} {executable : Bool} {tree : Go.Tree}
    (hf : v.find path = .ok (.file (View.encode text) executable))
    (ht : Go.parse text.toList = .ok tree) : readSource v path = .ok ⟨path, tree⟩ := by
  unfold readSource Go.Source.parse
  rw [View.readText_of_find hf]
  dsimp only
  rw [ht]
  rfl

theorem collect_append_ok (xs : List α) (more : List (Except Error α)) :
    collect (xs.map .ok ++ more) = (collect more).map (xs ++ ·) := by
  induction xs with
  | nil => cases h : collect more <;> simp [h, Except.map]
  | cons x xs ih =>
    rw [List.map_cons, List.cons_append, collect, ih]
    cases collect more <;> rfl

theorem collect_resultsOf_eq_ok_iff {f : Go.Source → List α} {files : List String} {xs : List α} :
    collect (resultsOf v f files) = .ok xs ↔ ∃ sources : List Go.Source,
      files = sources.map Go.Source.path ∧ (∀ s ∈ sources, readSource v s.path = .ok s) ∧
        xs = sources.flatMap f := by
  induction files generalizing xs with
  | nil =>
    constructor
    · rintro ⟨⟩
      exact ⟨[], rfl, by simp, rfl⟩
    · rintro ⟨sources, hfiles, -, rfl⟩
      rw [List.map_eq_nil_iff.mp hfiles.symm]
      rfl
  | cons path more ih =>
    unfold resultsOf
    constructor
    · intro h
      cases hread : readSource v path with
      | error e =>
        rw [hread] at h
        cases h
      | ok s =>
        rw [hread] at h
        dsimp only at h
        rw [collect_append_ok] at h
        cases hmore : collect (resultsOf v f more) with
        | error e =>
          rw [hmore] at h
          cases h
        | ok ys =>
          rw [hmore] at h
          cases h
          obtain ⟨sources, rfl, hsources, rfl⟩ := ih.mp hmore
          have hpath := path_of_readSource hread
          refine ⟨s :: sources, by rw [List.map_cons, hpath], ?_, rfl⟩
          intro t ht
          rcases List.mem_cons.mp ht with rfl | ht
          · rw [hpath]
            exact hread
          · exact hsources t ht
    · rintro ⟨sources, hfiles, hsources, rfl⟩
      cases sources with
      | nil => cases hfiles
      | cons s sources =>
        cases hfiles
        rw [hsources s List.mem_cons_self]
        dsimp only
        rw [collect_append_ok,
          ih.mpr ⟨sources, rfl, fun t ht => hsources t (List.mem_cons_of_mem s ht), rfl⟩]
        rfl

/-- A scan that ends well has the results of all sources of the directory, file by file. -/
theorem collect_results_eq_ok_iff {f : Go.Source → List α} {xs : List α} :
    collect (results v directory f) = .ok xs ↔
      ∃ sources, Reads v directory sources ∧ xs = sources.flatMap f := by
  unfold results
  cases hfiles : sourceFiles v directory with
  | error e =>
    refine ⟨fun h => (nomatch h), ?_⟩
    rintro ⟨sources, hreads, -⟩
    cases hfiles.symm.trans hreads.listed
  | ok files =>
    dsimp only
    rw [collect_resultsOf_eq_ok_iff]
    constructor
    · rintro ⟨sources, rfl, hread, hxs⟩
      exact ⟨sources, ⟨hfiles, hread⟩, hxs⟩
    · rintro ⟨sources, hreads, hxs⟩
      cases hfiles.symm.trans hreads.listed
      exact ⟨sources, rfl, hreads.read, hxs⟩

/-- A directory is read in one way only. -/
theorem Reads.unique {sources more : List Go.Source} (h : Reads v directory sources)
    (h' : Reads v directory more) : sources = more := by
  have hwhole : ∀ {sources}, Reads v directory sources →
      collect (results v directory fun s => [s]) = .ok sources :=
    fun h => collect_results_eq_ok_iff.mpr ⟨_, h, by simp⟩
  exact Except.ok.inj ((hwhole h).symm.trans (hwhole h'))

/-! ### The package that is named -/

/-- The package of the first source that states one and is no test. -/
def statedBy (sources : List Go.Source) : Option String :=
  (sources.filter fun s => !isTest s.path).findSome? Go.Source.packageName

theorem firstPackage_of_read {sources : List Go.Source}
    (h : ∀ s ∈ sources, readSource v s.path = .ok s) :
    firstPackage v (sources.map Go.Source.path) = .ok (statedBy sources) := by
  induction sources with
  | nil => rfl
  | cons s more ih =>
    have hmore := ih fun t ht => h t (List.mem_cons_of_mem s ht)
    unfold statedBy at hmore ⊢
    rw [List.map_cons, firstPackage, h s List.mem_cons_self]
    by_cases htest : isTest s.path = true
    · rw [if_pos htest, hmore, List.filter_cons_of_neg (by simp [htest])]
    · rw [if_neg htest, List.filter_cons_of_pos (by simpa using htest), List.findSome?_cons]
      dsimp only
      cases s.packageName with
      | some name => rfl
      | none => exact hmore

theorem Reads.packageName {sources : List Go.Source} (h : Reads v directory sources) :
    Scan.packageName v directory = .ok (statedBy sources) := by
  unfold Scan.packageName
  rw [h.listed]
  exact firstPackage_of_read h.read

end Scan

end Graft
