-- Which sources come behind the injected file. Their initialisers run after
-- the injected code, and the preparation of an injection reports them. What it
-- lists are the files of the project that end in the extension of sources; the
-- build tool takes links for sources as well, and leaves out the tests.
import Graft.Proofs.Listings
import Graft.Proofs.Moves
import Graft.Proofs.Runs
import Graft.Proofs.Searching

namespace Graft

open Act Files

/-! ## Paths into a directory -/

namespace Files

variable {s : Store} {v : View} {p : Place} {directory name : String}

/-- A walk that leads to a directory goes on from there, with the links that are left. -/
theorem Store.walk_of_directory {links : Nat} {here : Place} {names : List String}
    (more : List String) (h : s.walk true links here names = .ok p)
    (hp : s.at? p = some .directory) :
    ∃ left, s.walk true links here (names ++ more) = s.walk true left p more := by
  fun_induction walk s true links here names with
  | case1 links here =>
    cases h
    exact ⟨links, rfl⟩
  | case2 links here rest ih =>
    obtain ⟨left, hleft⟩ := ih h
    refine ⟨left, ?_⟩
    rw [List.cons_append, walk, if_pos rfl, hleft]
  | case3 links here name rest hn hat hrest =>
    cases h
    cases hat.symm.trans hp
  | case5 links here name rest hn hat ih =>
    obtain ⟨left, hleft⟩ := ih h
    refine ⟨left, ?_⟩
    rw [List.cons_append, walk, if_neg hn, hat]
    exact hleft
  | case6 links here name rest hn bytes x hat hrest =>
    cases h
    cases hat.symm.trans hp
  | case4 | case7 | case9 => cases h
  | case8 links here name rest hn target hat hrest => simp at hrest
  | case10 here name rest hn target hat hrest n ih =>
    obtain ⟨left, hleft⟩ := ih h
    refine ⟨left, ?_⟩
    rw [List.cons_append, walk, if_neg hn, hat]
    simpa [List.append_assoc] using hleft

theorem View.walk_of_place (hp : v.store.place v.cwd true directory = .ok p) :
    v.store.walk true Store.linkLimit (if Path.isAbsolute directory then [] else v.cwd)
      (Path.parts directory) = .ok p := by
  unfold Store.place at hp
  split at hp
  · cases hp
  · rw [Bool.true_or] at hp
    cases hw : v.store.walk true Store.linkLimit (if Path.isAbsolute directory then [] else v.cwd)
        (Path.parts directory) with
    | error fault =>
      rw [hw] at hp
      cases hp
    | ok q =>
      rw [hw] at hp
      dsimp only at hp
      split at hp
      · split at hp
        · cases hp
        · exact hp
      · exact hp

/-- What a path leads to that goes on from a directory by one name. -/
theorem View.exists_find_join (hp : v.store.place v.cwd true directory = .ok p)
    (hdirectory : v.store.at? p = some .directory) (hn : Path.IsName name) :
    ∃ left, v.find (Path.join directory name) =
      match v.store.walk true left p [name] with
      | .error fault => .error fault
      | .ok q =>
        match v.store.at? q with
        | some e => .ok e
        | none => .error .notFound := by
  obtain ⟨left, hleft⟩ := Store.walk_of_directory [name] (View.walk_of_place hp) hdirectory
  refine ⟨left, ?_⟩
  have hparts := Path.parts_join_of_isName hn directory
  have habsolute : Path.isAbsolute (Path.join directory name) = Path.isAbsolute directory := by
    refine Path.isAbsolute_join (Path.isAbsolute_of_name hn) directory
  unfold find
  rewrite [Store.place_of_endsIn (Path.endsIn_join hn directory), hparts, habsolute, hleft]
  rfl

/-- Where no link stands, a path leads to a file exactly if one stands there. -/
theorem View.isFile_join_iff (hp : v.store.place v.cwd true directory = .ok p)
    (hdirectory : v.store.at? p = some .directory) (hn : Path.IsName name)
    (hlink : ∀ target, v.store.at? (p ++ [name]) ≠ some (.link target)) :
    v.isFile (Path.join directory name) = true ↔
      ∃ bytes x, v.store.at? (p ++ [name]) = some (.file bytes x) := by
  obtain ⟨left, hfind⟩ := View.exists_find_join hp hdirectory hn
  have hwalk : ∀ e, v.store.at? (p ++ [name]) = e → (∀ target, e ≠ some (.link target)) →
      v.store.walk true left p [name] = .ok (p ++ [name]) := by
    rintro e he hne
    unfold Store.walk
    rw [if_neg hn.ne_up, he]
    rcases e with _ | ⟨bytes, x⟩ | _ | target
    · rfl
    · rfl
    · simp [Store.walk]
    · exact absurd rfl (hne target)
  rw [hwalk _ rfl hlink] at hfind
  unfold isFile
  rw [hfind]
  dsimp only
  rcases v.store.at? (p ++ [name]) with _ | ⟨bytes, x⟩ | _ | target <;> simp

end Files

/-! ## Which names come behind -/

namespace Path

/-- The extension of sources stands behind at least one character. -/
theorem extension?_eq_go_iff {name : String} :
    extension? name = some "go" ↔ ∃ front, front ≠ [] ∧ name.toList = front ++ ".go".toList := by
  unfold extension?
  dsimp only
  constructor
  · intro h
    split at h
    · rename_i hlong
      have htail : (name.toList.reverse.takeWhile (· != '.')).reverse = "go".toList := by
        rw [← Option.some.inj h, String.toList_ofList]
      have hsplit := List.takeWhile_append_dropWhile (p := (· != '.')) (l := name.toList.reverse)
      rw [List.reverse_eq_iff.mp htail] at hsplit
      have hlength := congrArg List.length hsplit
      rw [htail] at hlong
      cases hrest : name.toList.reverse.dropWhile (· != '.') with
      | nil =>
        rw [hrest] at hlength
        simp at hlength hlong
        omega
      | cons c front =>
        have hc : c = '.' := by
          have hhead := List.head_dropWhile_not (l := name.toList.reverse) (· != '.')
            (by simp [hrest])
          simpa [hrest] using hhead
        rw [hrest, hc] at hsplit
        refine ⟨front.reverse, ?_, ?_⟩
        · rintro hnil
          rw [hrest, List.reverse_eq_nil_iff.mp hnil] at hlength
          simp at hlength hlong
          omega
        · rw [← List.reverse_reverse name.toList, ← hsplit]
          simp
    · cases h
  · rintro ⟨front, hfront, hname⟩
    have htake : (name.toList.reverse.takeWhile (· != '.')).reverse = "go".toList := by
      rw [hname, List.reverse_append]
      rfl
    have hlength : 0 < front.length := List.length_pos_iff.mpr hfront
    rw [htake, if_pos]
    · rfl
    · rw [hname, List.length_append]
      show 2 + 1 < front.length + 3
      omega

end Path

namespace Injection

variable {s : Suffix} {name : String}

theorem sortsAfter_iff {a b : String} : sortsAfter a b = true ↔ View.encode b < View.encode a := by
  unfold sortsAfter
  rw [Bool.not_eq_true', Bool.eq_false_iff, Ne, Store.nameLe_iff]
  exact List.not_le

/-- What comes behind an injected file does not open with a mark that hides it from the build
tool. -/
theorem head?_of_sortsAfter (h : sortsAfter name (fileName s) = true) {c : Char}
    (hc : name.toList.head? = some c) : c ≠ '_' ∧ c ≠ '.' := by
  obtain ⟨cs, hname⟩ : ∃ cs, name.toList = c :: cs := List.head?_eq_some_iff.mp hc
  obtain ⟨ds, hfile⟩ : ∃ ds, (fileName s).toList = 'z' :: ds := by
    have htake := take_fileName s
    cases hcs : (fileName s).toList with
    | nil =>
      rw [hcs] at htake
      cases htake
    | cons d ds =>
      rw [hcs, List.take_succ_cons, show "zz_gy".toList = 'z' :: "z_gy".toList from rfl] at htake
      rw [(List.cons.inj htake).1]
      exact ⟨ds, rfl⟩
  have hbefore : ¬ c < 'z' := by
    intro hlt
    have hle : Store.nameLe name (fileName s) = true := by
      unfold Store.nameLe
      rw [hname, hfile, Bool.or_eq_true, decide_eq_true_iff]
      exact .inr (List.cons_lt_cons_iff.mpr (.inl hlt))
    unfold sortsAfter at h
    rw [hle] at h
    cases h
  constructor
  · rintro rfl
    exact hbefore (by decide)
  · rintro rfl
    exact hbefore (by decide)

end Injection

namespace Scan

/-- The build tool compiles what stands at the name into the package of the directory. It takes
links for what they lead to, and leaves out tests and names with a mark that hides them. -/
structure IsCompiled (v : View) (directory name : String) : Prop where
  ending : ".go".toList <:+ name.toList
  noTest : ¬ "_test.go".toList <:+ name.toList
  plain : ∀ c, name.toList.head? = some c → c ≠ '_' ∧ c ≠ '.'
  isFile : v.isFile (Path.join directory name) = true

/-- A link stands at the name in the directory. -/
def IsLinked (v : View) (directory name : String) : Prop :=
  ∃ p target, v.store.place v.cwd true directory = .ok p ∧
    v.store.at? (p ++ [name]) = some (.link target)

/-- A file of tests stands at the name in the directory. -/
structure IsTestFile (v : View) (directory name : String) : Prop where
  ending : "_test.go".toList <:+ name.toList
  isFile : v.isFile (Path.join directory name) = true
  noLink : ¬ IsLinked v directory name

end Scan

namespace Injection

variable {v : View} {directory : String} {files : List String} {s : Suffix}

/-- The name comes behind that of the injected file in the order of bytes. -/
def IsBehind (s : Suffix) (name : String) : Prop :=
  View.encode (fileName s) < View.encode name

/-- What is listed behind the injected file are the files there that end in the extension of
sources. Links are not listed. -/
theorem exists_later (hdirectory : v.find directory = .ok .directory)
    (hfiles : Scan.sourceFiles v directory = .ok files) (s : Suffix) :
    ∃ names : List String, later (fileName s) files = names.map (Path.join directory) ∧
      (names.Pairwise fun a b => View.encode a ≤ View.encode b) ∧
      ∀ name, Path.IsName name → (name ∈ names ↔ IsBehind s name ∧
        Path.extension? name = some "go" ∧ v.isFile (Path.join directory name) = true ∧
          ¬ Scan.IsLinked v directory name) := by
  obtain ⟨p, names, hp, rfl, hsorted, hmem, -⟩ := Scan.isListing_of_sourceFiles hfiles
  have hat : v.store.at? p = some .directory := by
    obtain ⟨q, -, hq, hqat, -⟩ := View.walk_of_find_directory hdirectory
    cases hp.symm.trans hq
    exact hqat
  refine ⟨names.filter fun name =>
      (Path.fileName? (Path.join directory name)).any (sortsAfter · (fileName s)), ?_,
    hsorted.sublist List.filter_sublist, ?_⟩
  · unfold later
    rw [List.filter_map]
    refine congrArg _ (List.filter_congr fun name _ => ?_)
    rw [Function.comp_apply]
    cases Path.fileName? (Path.join directory name) <;> rfl
  · intro name hn
    have hlinked : Scan.IsLinked v directory name ↔
        ∃ target, v.store.at? (p ++ [name]) = some (.link target) := by
      constructor
      · rintro ⟨q, target, hq, htarget⟩
        cases hp.symm.trans hq
        exact ⟨target, htarget⟩
      · rintro ⟨target, htarget⟩
        exact ⟨p, target, hp, htarget⟩
    rw [List.mem_filter, Path.fileName?_join hn, hmem hat name hn, hlinked, Option.any_some,
      sortsAfter_iff]
    constructor
    · rintro ⟨⟨hgo, bytes, x, hfile⟩, hbehind⟩
      have hlink : ∀ target, v.store.at? (p ++ [name]) ≠ some (.link target) := by
        intro target htarget
        cases hfile.symm.trans htarget
      exact ⟨hbehind, hgo, (View.isFile_join_iff hp hat hn hlink).mpr ⟨bytes, x, hfile⟩,
        fun ⟨target, htarget⟩ => hlink target htarget⟩
    · rintro ⟨hbehind, hgo, hfile, hlink⟩
      have hlink : ∀ target, v.store.at? (p ++ [name]) ≠ some (.link target) :=
        fun target htarget => hlink ⟨target, htarget⟩
      exact ⟨⟨hgo, (View.isFile_join_iff hp hat hn hlink).mp hfile⟩, hbehind⟩

/-- Among the names behind the injected file, the listed ones are those of compiled files that
are no links, and those of tests. -/
theorem listed_iff {name : String} (hbehind : IsBehind s name) :
    (Path.extension? name = some "go" ∧ v.isFile (Path.join directory name) = true ∧
        ¬ Scan.IsLinked v directory name) ↔
      Scan.IsCompiled v directory name ∧ ¬ Scan.IsLinked v directory name ∨
        Scan.IsTestFile v directory name := by
  have hplain : ∀ c, name.toList.head? = some c → c ≠ '_' ∧ c ≠ '.' :=
    fun c hc => head?_of_sortsAfter (sortsAfter_iff.mpr hbehind) hc
  have hgo : ".go".toList <:+ name.toList → Path.extension? name = some "go" := by
    rintro ⟨front, hfront⟩
    refine Path.extension?_eq_go_iff.mpr ⟨front, ?_, hfront.symm⟩
    rintro rfl
    exact (hplain '.' (by rw [← hfront]; rfl)).2 rfl
  constructor
  · rintro ⟨hext, hfile, hlink⟩
    by_cases htest : "_test.go".toList <:+ name.toList
    · exact .inr ⟨htest, hfile, hlink⟩
    · obtain ⟨front, -, hname⟩ := Path.extension?_eq_go_iff.mp hext
      exact .inl ⟨⟨⟨front, hname.symm⟩, htest, hplain, hfile⟩, hlink⟩
  · rintro (⟨hcompiled, hlink⟩ | ⟨htest, hfile, hlink⟩)
    · exact ⟨hgo hcompiled.ending, hcompiled.isFile, hlink⟩
    · have hending : ".go".toList <:+ "_test.go".toList := ⟨"_test".toList, by decide⟩
      exact ⟨hgo (hending.trans htest), hfile, hlink⟩

/-! ## What is reported -/

/-- The report of a file behind the injected one. -/
def reportLater (path : String) : Event :=
  .said .warning
    (path ++ " sorts after the injected file, its init() runs after the injected symbol")

theorem events_record (w : World) (e : Event) : (w.record e).events = w.events ++ [e] := by
  unfold World.record World.events
  rw [List.map_append]
  rfl

theorem events_warnLater (h : Host) (w : World) (paths : List String) :
    ((warnLater paths).perform h w).2.events = w.events ++ paths.map reportLater := by
  induction paths generalizing w with
  | nil => exact (List.append_nil _).symm
  | cons path more ih =>
    unfold warnLater
    rw [perform_bind_of_ok (perform_warn _ _ _), ih, events_record, List.append_assoc]
    rfl

theorem events_removeOrWarn {ε : Type} (h : Host) (w : World) (complaint path : String) :
    ∃ rest, ((removeOrWarn complaint path : Act ε Unit).perform h w).2.events =
      w.events ++ rest := by
  obtain ⟨store, hu⟩ := Move.exists_make_remove h w path
  replace hu : ((removeFile path).perform h w).2 = { w.record (.removing path) with store } := hu
  have hevents : ((removeFile path).perform h w).2.events = w.events ++ [.removing path] := by
    rw [hu]
    exact events_record w _
  unfold removeOrWarn
  rw [perform_bind, perform_attempt]
  generalize (removeFile path).perform h w = z at hevents ⊢
  rcases z with ⟨fault | _, u⟩
  · refine ⟨[.removing path, .said .warning (complaint ++ path ++ ": " ++ fault.message)], ?_⟩
    have hevents : u.events = w.events ++ [.removing path] := hevents
    show (u.record _).events = _
    rw [events_record, hevents, List.append_assoc]
    rfl
  · exact ⟨_, hevents⟩

/-- The first that is noted of writing the injected file is that it is to be created. -/
theorem events_writeFile (h : Host) (w : World) (path text : String) :
    ∃ rest, ((writeFile path text).perform h w).2.events = w.events ++ .creating path :: rest := by
  obtain ⟨store, hu⟩ := Move.exists_make_create h w path (View.encode text)
  replace hu : ((createFile path (View.encode text)).perform h w).2 =
      { w.record (.creating path) with store } := hu
  have hevents : ((createFile path (View.encode text)).perform h w).2.events =
      w.events ++ [.creating path] := by
    rw [hu]
    exact events_record w _
  unfold writeFile
  rw [perform_bind, perform_attempt]
  generalize (createFile path (View.encode text)).perform h w = z at hevents ⊢
  rcases z with ⟨fault | _ | fault, u⟩
  · exact ⟨[], hevents⟩
  · exact ⟨[], hevents⟩
  · obtain ⟨rest, hrest⟩ :=
      events_removeOrWarn (ε := Failure) h u "Could not delete partial file " path
    dsimp only
    rw [perform_bind_of_ok (Prod.ext (perform_removeOrWarn h u _ path).1 rfl)]
    refine ⟨rest, hrest.trans ?_⟩
    rw [show u.events = _ from hevents, List.append_assoc]
    rfl

/-- A project in order, with a stub that can be filled, has the files behind the injected one
reported before the injected file is created. -/
theorem events_prepare {h : Host} {w : World} {p : Project} {plan : Plan} {text : String}
    (hc : checkRoot w.view p = .ok ()) (hs : source p plan = .ok text) {files : List String}
    (hf : Scan.sourceFiles w.view p.directory = .ok files) :
    ∃ rest, ((prepare p plan).perform h w).2.events =
      w.events ++ .entered .templateRendered ::
        ((later (fileName (w.nextSuffix h)) files).map reportLater ++
          .creating (filePath p (w.nextSuffix h)) :: rest) := by
  let u := ((warnLater (later (fileName (w.nextSuffix h)) files)).perform h (named w)).2
  have hu : u.events = w.events ++ [.entered .templateRendered] ++
      (later (fileName (w.nextSuffix h)) files).map reportLater := by
    refine (events_warnLater h (named w) _).trans (congrArg (· ++ _) ?_)
    exact events_record _ _
  obtain ⟨rest, hrest⟩ := events_writeFile h u (filePath p (w.nextSuffix h)) text
  have hsource : (Scan.sourceFiles w.view p.directory).mapError Failure.scan = .ok files := by
    rw [hf]
    rfl
  have hprepare := perform_prepare_of_sourceFiles h w p plan hc hs hsource
  rw [hprepare]
  generalize (writeFile (filePath p (w.nextSuffix h)) text).perform h u = z at hrest ⊢
  rcases z with ⟨e | _, z⟩
  · refine ⟨rest, hrest.trans ?_⟩
    rw [hu]
    simp
  · refine ⟨rest ++ [.entered .tempFileWritten], ?_⟩
    have hz : z.events = _ := hrest
    refine (events_record _ _).trans ?_
    show z.events ++ _ = _
    rw [hz, hu]
    simp

/-- Before an injected file is created, the files that come behind it are reported, in the order
of their names. These are the sources there that the build tool compiles and that are no links,
and the tests there. So they are exactly the compiled ones as long as no compiled link and no
test stands behind the injected file; if nothing is reported then, no compiled source comes
behind it. -/
theorem the_files_behind_an_injected_file_are_reported {h : Host} {w : World} {p : Project}
    {plan : Plan} {text : String} (hdirectory : w.view.find p.directory = .ok .directory)
    (hc : checkRoot w.view p = .ok ()) (hs : source p plan = .ok text) :
    ∃ (names : List String) (rest : List Event),
      ((prepare p plan).perform h w).2.events =
          w.events ++ .entered .templateRendered ::
            (names.map (fun name => reportLater (Path.join p.directory name)) ++
              .creating (filePath p (w.nextSuffix h)) :: rest) ∧
        (names.Pairwise fun a b => View.encode a ≤ View.encode b) ∧
        (∀ name, Path.IsName name → (name ∈ names ↔ IsBehind (w.nextSuffix h) name ∧
          (Scan.IsCompiled w.view p.directory name ∧ ¬ Scan.IsLinked w.view p.directory name ∨
            Scan.IsTestFile w.view p.directory name))) ∧
        ((∀ name, Path.IsName name → (name ∈ names ↔
            IsBehind (w.nextSuffix h) name ∧ Scan.IsCompiled w.view p.directory name)) ↔
          ∀ name, Path.IsName name → IsBehind (w.nextSuffix h) name →
            ¬ (Scan.IsCompiled w.view p.directory name ∧ Scan.IsLinked w.view p.directory name) ∧
              ¬ Scan.IsTestFile w.view p.directory name) := by
  obtain ⟨files, hfiles⟩ : ∃ files, Scan.sourceFiles w.view p.directory = .ok files := by
    obtain ⟨files, hf⟩ := sourceFiles_of_checkRoot hc
    cases hsource : Scan.sourceFiles w.view p.directory with
    | ok files => exact ⟨files, rfl⟩
    | error e =>
      rw [hsource] at hf
      cases hf
  obtain ⟨names, hlater, hsorted, hmem⟩ := exists_later hdirectory hfiles (w.nextSuffix h)
  obtain ⟨rest, hrest⟩ := events_prepare (h := h) hc hs hfiles
  have hnames : ∀ name, Path.IsName name → (name ∈ names ↔ IsBehind (w.nextSuffix h) name ∧
      (Scan.IsCompiled w.view p.directory name ∧ ¬ Scan.IsLinked w.view p.directory name ∨
        Scan.IsTestFile w.view p.directory name)) := by
    intro name hn
    rw [hmem name hn]
    exact and_congr_right listed_iff
  refine ⟨names, rest, ?_, hsorted, hnames, ?_⟩
  · rw [hrest, hlater, List.map_map]
    rfl
  · constructor
    · intro hall name hn hbehind
      have hsame := (hnames name hn).symm.trans (hall name hn)
      constructor
      · rintro ⟨hcompiled, hlink⟩
        obtain ⟨-, ⟨-, hno⟩ | htest⟩ := hsame.mpr ⟨hbehind, hcompiled⟩
        · exact hno hlink
        · exact htest.noLink hlink
      · intro htest
        exact (hsame.mp ⟨hbehind, .inr htest⟩).2.noTest htest.ending
    · intro hnone name hn
      rw [hnames name hn]
      refine and_congr_right fun hbehind => ?_
      obtain ⟨hlink, htest⟩ := hnone name hn hbehind
      constructor
      · rintro (⟨hcompiled, -⟩ | h)
        · exact hcompiled
        · exact absurd h htest
      · intro hcompiled
        exact .inl ⟨hcompiled, fun h => hlink ⟨hcompiled, h⟩⟩

end Injection

namespace Sample

open Injection

/-- The shop with a link to a source and with a test, both behind any injected file. -/
def linkedWorld : World :=
  { world with
    store := ⟨[(["shop"], .directory), (["shop", "zzz.go"], .link "/tmp/hooks"),
      (["shop", "zzz_test.go"], .file [] false), (["tmp"], .directory),
      (["tmp", "hooks"], .file [] false)]⟩ }

theorem isName_linked : Path.IsName "zzz.go" ∧ Path.IsName "zzz_test.go" :=
  ⟨⟨by decide, by decide, by decide, by decide⟩, ⟨by decide, by decide, by decide, by decide⟩⟩

theorem place_linked : linkedWorld.view.store.place linkedWorld.view.cwd true project.directory =
    .ok ["shop"] :=
  place_directory rfl

theorem sourceFiles_linked :
    Scan.sourceFiles linkedWorld.view project.directory = .ok ["/shop/zzz_test.go"] := by
  have hnames : linkedWorld.view.store.namesIn ["shop"] = ["zzz.go", "zzz_test.go"] := by
    have hfound : linkedWorld.view.store.entries.filterMap
        (fun e => Store.nameIn? ["shop"] e.1) = ["zzz.go", "zzz_test.go"] := rfl
    have hle : Store.nameLe "zzz.go" "zzz_test.go" = true := by decide +kernel
    unfold Store.namesIn
    rw [hfound]
    simp [List.mergeSort, hle]
  have hlink : Scan.namesSource linkedWorld.store project.directory ["shop"] "zzz.go" =
      false := rfl
  have htest : Scan.namesSource linkedWorld.store project.directory ["shop"]
      "zzz_test.go" = true := by decide +kernel
  have hjoin : Path.join project.directory "zzz_test.go" = "/shop/zzz_test.go" := by decide +kernel
  rw [Scan.sourceFiles_of_directory place_linked rfl, hnames]
  simp [hlink, htest, hjoin]

/-- The build tool follows the link, and finds a source. -/
theorem isCompiled_linked : Scan.IsCompiled linkedWorld.view project.directory "zzz.go" where
  ending := ⟨"zzz".toList, by decide⟩
  noTest := by decide
  plain := by
    intro c hc
    cases hc
    exact ⟨by decide, by decide⟩
  isFile := by
    have hparts : Path.parts (Path.join project.directory "zzz.go") = ["shop", "zzz.go"] := by
      decide
    have htarget : Path.parts "/tmp/hooks" = ["tmp", "hooks"] := by decide
    have habsolute : Path.isAbsolute (Path.join project.directory "zzz.go") = true := by decide
    have hroot : Path.isAbsolute "/tmp/hooks" = true := by decide
    unfold View.isFile View.find
    rw [Store.place_of_endsIn (Path.endsIn_join isName_linked.1 _), hparts, habsolute]
    simp [Store.walk, Store.at?, World.view, linkedWorld, Store.linkLimit, htarget, hroot]

theorem isBehind_linked : IsBehind (linkedWorld.nextSuffix host) "zzz.go" :=
  sortsAfter_iff.mp (by decide)

theorem isTestFile_linked : Scan.IsTestFile linkedWorld.view project.directory "zzz_test.go" where
  ending := ⟨"zzz".toList, by decide⟩
  isFile := (View.isFile_join_iff place_linked rfl isName_linked.2
    (fun target h => nomatch h)).mpr ⟨[], false, rfl⟩
  noLink := by
    rintro ⟨p, target, hp, htarget⟩
    cases place_linked.symm.trans hp
    cases htarget

/-- Of the two files behind the injected one the shop has only the test reported. -/
theorem the_test_behind_the_file_of_the_shop_is_reported :
    ∃ (names : List String) (rest : List Event),
      ((prepare project plan).perform host linkedWorld).2.events =
          linkedWorld.events ++ .entered .templateRendered ::
            (names.map (fun name => reportLater (Path.join project.directory name)) ++
              .creating (filePath project (linkedWorld.nextSuffix host)) :: rest) ∧
        "zzz_test.go" ∈ names ∧ "zzz.go" ∉ names := by
  have hdirectory : linkedWorld.view.find project.directory = .ok .directory := by
    unfold View.find
    rw [place_linked]
    rfl
  have hc : checkRoot linkedWorld.view project = .ok () := by
    have htest : Scan.isTest "/shop/zzz_test.go" = true := by decide +kernel
    unfold checkRoot Scan.packageName
    rw [sourceFiles_linked]
    dsimp only
    rw [Scan.firstPackage, if_pos htest]
    rfl
  obtain ⟨text, hsource⟩ := source_plan
  obtain ⟨names, rest, hevents, -, hnames, -⟩ :=
    the_files_behind_an_injected_file_are_reported (h := host) hdirectory hc hsource
  refine ⟨names, rest, hevents, ?_, ?_⟩
  · exact (hnames _ isName_linked.2).mpr
      ⟨sortsAfter_iff.mp (by decide +kernel), .inr isTestFile_linked⟩
  · intro hmem
    obtain ⟨-, ⟨-, hlink⟩ | htest⟩ := (hnames _ isName_linked.1).mp hmem
    · exact hlink ⟨_, _, place_linked, rfl⟩
    · exact absurd htest.ending (by decide)

/-- What is reported are not the compiled files: a link to a source is missing, and a test is
there. -/
theorem a_link_behind_the_injected_file_is_not_reported :
    Scan.sourceFiles linkedWorld.view project.directory = .ok ["/shop/zzz_test.go"] ∧
      later (fileName (linkedWorld.nextSuffix host)) ["/shop/zzz_test.go"] =
        ["/shop/zzz_test.go"] ∧
      Scan.IsCompiled linkedWorld.view project.directory "zzz.go" ∧
      IsBehind (linkedWorld.nextSuffix host) "zzz.go" ∧
      ¬ Scan.IsCompiled linkedWorld.view project.directory "zzz_test.go" :=
  ⟨sourceFiles_linked, by decide +kernel, isCompiled_linked, isBehind_linked,
    fun h => h.noTest isTestFile_linked.ending⟩

end Sample
end Graft
