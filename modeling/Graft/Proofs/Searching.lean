-- Where settings are searched. The search goes from one path to the one above
-- it, and each of these paths is looked up in the tree. Here is which places
-- that are: from a path that starts at the root and takes no step upwards they
-- are the directories that contain the start, and the nearest come first.
import Graft.Proofs.PathNames
import Graft.Proofs.Reporting
import Graft.Proofs.Runs

namespace Graft

/-! ## Walks without links -/

namespace Files

/-- Where names lead from a place if no link is on the way. -/
def Place.follow (here : Place) (names : List String) : Place :=
  names.foldl (fun p name => if name = ".." then p.dropLast else p ++ [name]) here

theorem Place.follow_of_notMem {names : List String} (h : ".." ∉ names) (here : Place) :
    here.follow names = here ++ names := by
  induction names generalizing here with
  | nil => exact (List.append_nil here).symm
  | cons name rest ih =>
    rw [List.mem_cons, not_or] at h
    unfold Place.follow at ih ⊢
    rw [List.foldl_cons, if_neg (Ne.symm h.1), ih h.2, List.append_assoc]
    rfl

namespace Store

/-- No link stands anywhere. -/
def HasNoLinks (s : Store) : Prop := ∀ p target, s.at? p ≠ some (.link target)

/-- The place and all places on the way to it are directories. -/
def IsReached (s : Store) (p : Place) : Prop := ∀ q, q <+: p → s.at? q = some .directory

variable {s : Store} {here q : Place} {name : String} {names : List String}

/-- What stands at a place is listed, or it is the root. -/
theorem mem_entries_of_at? {p : Place} {e : Entry} (h : s.at? p = some e) :
    e = .directory ∨ ∃ x ∈ s.entries, x.2 = e := by
  unfold at? at h
  split at h
  · exact .inl (Option.some.inj h).symm
  · obtain ⟨x, hx, he⟩ := Option.map_eq_some_iff.mp h
    exact .inr ⟨x, List.mem_of_find?_eq_some hx, he⟩

theorem hasNoLinks_of_entries (h : ∀ e ∈ s.entries, ∀ target, e.2 ≠ .link target) :
    s.HasNoLinks := by
  intro p target hp
  rcases mem_entries_of_at? hp with hd | ⟨x, hx, htarget⟩
  · cases hd
  · exact h x hx target htarget

theorem isReached_root (s : Store) : s.IsReached [] := by
  intro q hq
  rw [List.prefix_nil.mp hq]
  simp [at?]

theorem IsReached.up (h : s.IsReached here) : s.IsReached here.dropLast := fun q hq =>
  h q (hq.trans (List.dropLast_prefix here))

theorem IsReached.into (h : s.IsReached here) (hn : s.at? (here ++ [name]) = some .directory) :
    s.IsReached (here ++ [name]) := by
  intro q hq
  rcases List.prefix_concat_iff.mp hq with rfl | hq
  · exact hn
  · exact h q hq

/-- A walk to a directory goes from directory to directory. -/
theorem walk_to_directory (hs : s.HasNoLinks) {follow : Bool} {links : Nat}
    (hh : s.IsReached here) (hw : s.walk follow links here names = .ok q)
    (hq : s.at? q = some .directory) :
    q = here.follow names ∧ ∀ front, front <+: names → s.IsReached (here.follow front) := by
  induction names generalizing here with
  | nil =>
    rw [walk] at hw
    cases hw
    refine ⟨rfl, ?_⟩
    intro front hfront
    rw [List.prefix_nil.mp hfront]
    exact hh
  | cons name rest ih =>
    -- The first step leads to a directory, and the walk goes on from there.
    obtain ⟨next, hnext, hreached, hrest⟩ : ∃ next : Place,
        next = here.follow [name] ∧ s.IsReached next ∧ s.walk follow links next rest = .ok q := by
      rw [walk] at hw
      by_cases hup : name = ".."
      · rw [if_pos hup] at hw
        exact ⟨here.dropLast, by simp [Place.follow, hup], hh.up, hw⟩
      · rw [if_neg hup] at hw
        refine ⟨here ++ [name], by simp [Place.follow, hup], ?_⟩
        split at hw
        · rename_i hat
          split at hw
          · cases hw
            cases hat.symm.trans hq
          · cases hw
        · rename_i hat
          exact ⟨hh.into hat, hw⟩
        · rename_i hat
          split at hw
          · cases hw
            cases hat.symm.trans hq
          · cases hw
        · rename_i target hat
          exact absurd hat (hs _ target)
    obtain ⟨hend, hfront⟩ := ih hreached hrest
    have hfollow : ∀ more, here.follow (name :: more) = next.follow more := by
      intro more
      rw [hnext]
      rfl
    refine ⟨hend.trans (hfollow rest).symm, ?_⟩
    intro front hpre
    rcases List.prefix_cons_iff.mp hpre with rfl | ⟨more, rfl, hmore⟩
    · exact hh
    · rw [hfollow]
      exact hfront more hmore

/-- From directory to directory, a walk can be taken up where the first names lead. -/
theorem walk_append {follow : Bool} {links : Nat} (more : List String)
    (hreached : ∀ front, front <+: names → s.IsReached (here.follow front)) :
    s.walk follow links here (names ++ more) = s.walk follow links (here.follow names) more := by
  induction names generalizing here with
  | nil => rfl
  | cons name rest ih =>
    have hfollow : ∀ front, here.follow (name :: front) = (here.follow [name]).follow front :=
      fun front => rfl
    have hrest : ∀ front, front <+: rest → s.IsReached ((here.follow [name]).follow front) := by
      intro front hfront
      rw [← hfollow]
      exact hreached _ (List.cons_prefix_cons.mpr ⟨rfl, hfront⟩)
    rw [hfollow, ← ih hrest, List.cons_append, walk]
    by_cases hup : name = ".."
    · rw [if_pos hup]
      simp [Place.follow, hup]
    · have hstep : here.follow [name] = here ++ [name] := by simp [Place.follow, hup]
      have hat : s.at? (here ++ [name]) = some .directory := by
        rw [← hstep]
        exact hrest [] List.nil_prefix _ List.prefix_rfl
      rw [if_neg hup, hat, hstep]

end Store
end Files

open Files

namespace Config

/-! ## What the search comes to -/

variable {ε : Type}

/-- The settings that a file at the path states. -/
def stated (v : View) (path : String) : Option Config :=
  (v.readText path).toOption.bind parse

theorem result_readFile? (path : String) (h : Host) (w : World) :
    ((readFile? path : Act ε (Option Config)).perform h w).1 = .ok (stated w.view path) := by
  unfold readFile? stated
  rw [Act.perform_bind_of_ok (Act.perform_view _ _)]
  cases w.view.readText path with
  | error fault => cases fault <;> rfl
  | ok text =>
    dsimp only [Except.toOption, Option.bind]
    cases parse text <;> rfl

theorem result_firstIn (dirs : List String) (h : Host) (w : World) :
    ((firstIn dirs : Act ε (Option Config)).perform h w).1 =
      .ok (dirs.findSome? fun dir => stated w.view (Path.join dir fileName)) := by
  induction dirs generalizing w with
  | nil => rfl
  | cons dir dirs ih =>
    have hread := result_readFile? (ε := ε) (Path.join dir fileName) h w
    have hu := onlyReports_readFile? (ε := ε) (Path.join dir fileName) h w
    unfold firstIn
    rw [Act.perform_bind, List.findSome?_cons]
    generalize (readFile? (Path.join dir fileName) : Act ε (Option Config)).perform h w = z
      at hread hu ⊢
    rcases z with ⟨r, u⟩
    dsimp only at hread hu
    subst hread
    cases stated w.view (Path.join dir fileName) with
    | some c => rfl
    | none =>
      dsimp only
      rw [ih, hu.view]

theorem result_search (start : String) (h : Host) (w : World) :
    ((search start : Act ε Config).perform h w).1 =
      .ok ((((Path.ancestors searchDepth start).findSome? fun dir =>
        stated w.view (Path.join dir fileName)).getD default).withBinary w.goBinary) := by
  have hfound := result_firstIn (ε := ε) (Path.ancestors searchDepth start) h w
  have hu := onlyReports_firstIn (ε := ε) (Path.ancestors searchDepth start) h w
  unfold search
  rw [Act.perform_bind]
  generalize (firstIn (Path.ancestors searchDepth start) : Act ε (Option Config)).perform h w = z
    at hfound hu ⊢
  rcases z with ⟨r, u⟩
  dsimp only at hfound hu
  subst hfound
  rw [← hu.goBinary]
  rfl

theorem isName_fileName : Path.IsName fileName where
  nonempty := by decide
  no_slash := by decide
  not_dot := by decide
  not_up := by decide

/-- The settings that the file behind these names states. -/
def statedBehind (v : View) (absolute : Bool) (names : List String) : Option Config :=
  match v.store.walk true Store.linkLimit (if absolute then [] else v.cwd) (names ++ [fileName]) with
  | .ok p =>
    match v.store.at? p with
    | some (.file bytes _) => (View.decode? bytes).bind parse
    | _ => none
  | .error _ => none

/-- Only where a path starts and its names decide which settings it leads to. -/
theorem stated_join (v : View) (dir : String) :
    stated v (Path.join dir fileName) = statedBehind v (Path.isAbsolute dir) (Path.parts dir) := by
  have hrelative : Path.isAbsolute fileName = false := Path.isAbsolute_of_name isName_fileName
  have hparts : Path.parts fileName = [fileName] := by decide
  unfold stated statedBehind View.readText View.readBytes View.find
  rw [Store.place_of_endsIn (Path.endsIn_join isName_fileName dir),
    Path.isAbsolute_join hrelative, Path.parts_join hrelative, hparts]
  cases v.store.walk true Store.linkLimit _ (Path.parts dir ++ [fileName]) with
  | error fault => rfl
  | ok p =>
    dsimp only
    cases v.store.at? p with
    | none => rfl
    | some e =>
      cases e with
      | file bytes x =>
        dsimp only
        cases View.decode? bytes <;> rfl
      | _ => rfl

/-- The settings that the file in a directory states. -/
def statedIn (s : Store) (dir : Place) : Option Config :=
  match s.at? (dir ++ [fileName]) with
  | some (.file bytes _) => (View.decode? bytes).bind parse
  | _ => none

theorem statedBehind_of_reached {v : View} (hs : v.store.HasNoLinks) {absolute : Bool}
    {names : List String} (hreached : ∀ front, front <+: names →
      v.store.IsReached ((if absolute then [] else v.cwd : Place).follow front)) :
    statedBehind v absolute names =
      statedIn v.store ((if absolute then [] else v.cwd : Place).follow names) := by
  unfold statedBehind statedIn
  rw [Store.walk_append [fileName] hreached, Store.walk, if_neg isName_fileName.ne_up]
  generalize (if absolute then [] else v.cwd : Place).follow names ++ [fileName] = p
  cases hp : v.store.at? p with
  | none => simp [hp]
  | some e =>
    cases e with
    | file bytes x => simp [hp]
    | directory =>
      dsimp only
      rw [Store.walk]
      simp [hp]
    | link target => exact absurd hp (hs p target)

end Config

/-! ## The directories that are searched -/

namespace Path

theorem isPrefix_of_mem_upwards {names front : List String} (h : front ∈ upwards names) :
    front <+: names := by
  obtain ⟨n, -, rfl⟩ := List.mem_map.mp h
  exact List.take_prefix _ _

/-- Going up from a longer place begins with going up through its last names. -/
theorem map_append_upwards (base names : List String) :
    (upwards names).map (base ++ ·) = (upwards (base ++ names)).take (names.length + 1) := by
  unfold upwards
  rw [List.map_map, ← List.map_take, List.take_range, List.length_append,
    Nat.min_eq_left (by omega)]
  apply List.map_congr_left
  intro n hn
  rw [List.mem_range] at hn
  simp only [Function.comp_apply]
  rw [show base.length + names.length - n = base.length + (names.length - n) by omega,
    List.take_length_add_append]

end Path

namespace Config

/-- The nearest directories that contain a place, itself the first. -/
def nearest (q : Place) : List Place := (Path.upwards q).take searchDepth

/-- No more directories contain a place than it has names, and the root. -/
theorem take_nearest (q : Place) : (nearest q).take (q.length + 1) = nearest q := by
  apply List.take_of_length_le
  unfold nearest Path.upwards
  rw [List.length_take, List.length_map, List.length_range]
  omega

/-- The directories that are searched from a path. -/
def searched (v : View) (start : String) : List Place :=
  ((Path.upwards (Path.parts start)).take searchDepth).map
    (if Path.isAbsolute start then [] else v.cwd : Place).follow

/-- The settings that come first among the directories, or else the default ones. -/
def firstOf (w : World) (dirs : List Place) : Config :=
  ((dirs.findSome? (statedIn w.store)).getD default).withBinary w.goBinary

theorem findSome?_congr {α β : Type} {f g : α → Option β} {xs : List α}
    (h : ∀ x ∈ xs, f x = g x) : xs.findSome? f = xs.findSome? g := by
  induction xs with
  | nil => rfl
  | cons x xs ih =>
    rw [List.findSome?_cons, List.findSome?_cons, h x List.mem_cons_self,
      ih fun y hy => h y (List.mem_cons_of_mem x hy)]

/-- If all names of the start lead through directories, the settings are those of the first of
these directories, from the last one upwards. -/
theorem result_search_of_reached {ε : Type} {h : Host} {w : World} {start : String}
    (hs : w.store.HasNoLinks) (hreached : ∀ front, front <+: Path.parts start →
      w.store.IsReached ((if Path.isAbsolute start then [] else w.cwd : Place).follow front)) :
    ((search start : Act ε Config).perform h w).1 = .ok (firstOf w (searched w.view start)) := by
  have hstated : (fun dir => stated w.view (Path.join dir fileName)) =
      fun dir => statedBehind w.view (Path.isAbsolute dir) (Path.parts dir) :=
    funext (stated_join w.view)
  rw [result_search, hstated, Path.findSome?_ancestors]
  unfold firstOf searched
  rw [List.findSome?_map]
  congr 3
  apply findSome?_congr
  intro names hnames
  have hpre := Path.isPrefix_of_mem_upwards (List.mem_of_mem_take hnames)
  exact statedBehind_of_reached (v := w.view) hs fun front hfront =>
    hreached front (hfront.trans hpre)

/-- Without a step upwards, it is enough that the last name leads to a directory. -/
theorem isReached_follow {s : Store} {base : Place} {names : List String} (h : ".." ∉ names)
    (hr : s.IsReached (base ++ names)) :
    ∀ front, front <+: names → s.IsReached (base.follow front) := by
  intro front hfront
  rw [Place.follow_of_notMem fun hup => h (hfront.subset hup)]
  exact fun q hq => hr q (hq.trans ((List.prefix_append_right_inj base).mpr hfront))

/-- Without a step upwards, a directory is searched if it is one of the nearest ones, and if it
is not above the directory in which the path starts. -/
theorem searched_of_notMem {v : View} {start : String} (h : ".." ∉ Path.parts start) :
    searched v start =
      (nearest ((if Path.isAbsolute start then [] else v.cwd : Place).follow
        (Path.parts start))).take ((Path.parts start).length + 1) := by
  unfold searched nearest
  generalize (if Path.isAbsolute start then [] else v.cwd : Place) = base
  have hfollow : (Path.upwards (Path.parts start)).map base.follow =
      (Path.upwards (Path.parts start)).map (base ++ ·) := by
    apply List.map_congr_left
    intro names hnames
    refine Place.follow_of_notMem ?_ base
    intro hup
    exact h ((Path.isPrefix_of_mem_upwards hnames).subset hup)
  rw [List.map_take, hfollow, Path.map_append_upwards, Place.follow_of_notMem h, List.take_take,
    List.take_take, Nat.min_comm]

end Config

/-! ## Places as paths -/

theorem Text.notMem_of_mem_splitOn {α : Type} [BEq α] [LawfulBEq α] {sep : α} {xs p : List α}
    (h : p ∈ splitOn sep xs) : sep ∉ p := by
  induction xs generalizing p with
  | nil =>
    rw [List.mem_singleton.mp h]
    exact List.not_mem_nil
  | cons x xs ih =>
    unfold splitOn at h
    split at h
    · rcases List.mem_cons.mp h with rfl | h
      · exact List.not_mem_nil
      · exact ih h
    · rename_i hx
      obtain ⟨q, qs, hq⟩ := List.exists_cons_of_ne_nil (splitOn_ne_nil sep xs)
      rw [hq] at h ih
      rcases List.mem_cons.mp h with rfl | h
      · rw [List.mem_cons, not_or]
        refine ⟨?_, ih List.mem_cons_self⟩
        rintro rfl
        exact hx (beq_self_eq_true sep)
      · exact ih (List.mem_cons_of_mem q h)

namespace Path

theorem isName_of_mem_parts {path name : String} (h : name ∈ parts path) (hup : name ≠ "..") :
    IsName name := by
  rw [parts_eq] at h
  obtain ⟨piece, hpiece, rfl⟩ := List.mem_map.mp h
  obtain ⟨hmem, hpart⟩ := List.mem_filter.mp hpiece
  simp only [isPart, Bool.and_eq_true, Bool.not_eq_true', bne_iff_ne, List.isEmpty_eq_false_iff]
    at hpart
  refine ⟨?_, ?_, ?_, ?_⟩
  · rw [String.toList_ofList]
    exact hpart.1
  · rw [String.toList_ofList]
    exact Text.notMem_of_mem_splitOn hmem
  · rw [String.toList_ofList]
    exact hpart.2
  · intro hlist
    exact hup (String.toList_inj.mp hlist)

theorem names_of_isName {name : String} (h : IsName name) : names name.toList = [name.toList] := by
  rw [names_of_not_mem h.no_slash, if_pos]
  simp [isPart, h.nonempty, h.not_dot]

theorem parts_join_of_isName {name : String} (h : IsName name) (base : String) :
    parts (join base name) = parts base ++ [name] := by
  rw [parts_join (isAbsolute_of_name h), parts_eq name, names_of_isName h]
  simp

end Path

namespace Files.Place

variable {p : Place}

theorem toList_path (hp : p ≠ []) : p.path.toList = p.flatMap fun name => '/' :: name.toList := by
  unfold path
  rw [if_neg (by simpa using hp), String.toList_join, List.flatMap_map]
  congr 1
  funext name
  simp

theorem isAbsolute_path (p : Place) : Path.isAbsolute p.path = true := by
  cases p with
  | nil => decide
  | cons name rest =>
    unfold Path.isAbsolute
    rw [toList_path (List.cons_ne_nil name rest), List.flatMap_cons]
    rfl

/-- The path of a place leads through its names. -/
theorem parts_path (h : ∀ name ∈ p, Path.IsName name) : Path.parts p.path = p := by
  by_cases hp : p = []
  · subst hp
    decide
  · rw [Path.parts_eq, toList_path hp]
    clear hp
    induction p with
    | nil => rfl
    | cons name rest ih =>
      have hname := Path.names_of_isName (h name List.mem_cons_self)
      have hrest := ih fun n hn => h n (List.mem_cons_of_mem name hn)
      rw [List.flatMap_cons, List.cons_append, Path.names_slash]
      cases rest with
      | nil =>
        rw [List.flatMap_nil, List.append_nil, hname]
        simp
      | cons next more =>
        rw [List.flatMap_cons, List.cons_append, Path.names_slash] at hrest
        rw [List.flatMap_cons, List.cons_append, Path.names_append_cons, hname, List.map_append,
          hrest]
        simp

theorem isName_of_mem_follow {here : Place} {names : List String}
    (hh : ∀ name ∈ here, Path.IsName name)
    (hn : ∀ name ∈ names, name ≠ ".." → Path.IsName name) :
    ∀ name ∈ here.follow names, Path.IsName name := by
  induction names generalizing here with
  | nil => exact hh
  | cons first rest ih =>
    refine @ih (here.follow [first]) ?_ fun name hname =>
      hn name (List.mem_cons_of_mem first hname)
    intro name hname
    by_cases hup : first = ".."
    · have hstep : here.follow [first] = here.dropLast := by simp [follow, hup]
      rw [hstep] at hname
      exact hh name (List.dropLast_subset _ hname)
    · have hstep : here.follow [first] = here ++ [first] := by simp [follow, hup]
      rw [hstep] at hname
      rcases List.mem_append.mp hname with hname | hname
      · exact hh name hname
      · rw [List.mem_singleton.mp hname]
        exact hn first List.mem_cons_self hup

end Files.Place

/-- A path that leads to a directory leads there from name to name. -/
theorem Files.View.walk_of_find_directory {v : View} {path : String}
    (h : v.find path = .ok .directory) :
    ∃ q follow, v.store.place v.cwd true path = .ok q ∧ v.store.at? q = some .directory ∧
      v.store.walk follow Store.linkLimit (if Path.isAbsolute path then [] else v.cwd)
        (Path.parts path) = .ok q := by
  unfold find at h
  cases hp : v.store.place v.cwd true path with
  | error fault =>
    rw [hp] at h
    cases h
  | ok q =>
    rw [hp] at h
    dsimp only at h
    cases hat : v.store.at? q with
    | none =>
      rw [hat] at h
      cases h
    | some e =>
      rw [hat] at h
      cases h
      refine ⟨q, true || Path.wantsDirectory path, rfl, hat, ?_⟩
      unfold Store.place at hp
      split at hp
      · cases hp
      · split at hp
        · cases hp
        · rename_i p hw
          split at hp
          · split at hp
            · cases hp
            · cases hp
              exact hw
          · cases hp
            exact hw

/-- In a tree without links, a search from a path that leads to a directory looks into the
directories that its names lead through, from the last one upwards, at most ten. A search from
the path of this directory itself looks into the nearest ten that contain it. These are the
same if the path starts at the root and takes no step upwards. If it starts at the working
directory instead, those above the working directory are left out. -/
theorem the_settings_of_a_directory_are_searched_upwards {ε : Type} (h : Host) (w : World)
    (hs : w.store.HasNoLinks) (hcwd : w.store.IsReached w.cwd)
    (hnames : ∀ name ∈ w.cwd, Path.IsName name) (start : String)
    (hstart : w.view.find start = .ok .directory) :
    ∃ q : Place, w.store.place w.cwd true start = .ok q ∧
      ((Config.search q.path : Act ε Config).perform h w).1 =
        .ok (Config.firstOf w (Config.nearest q)) ∧
      ((Config.search start : Act ε Config).perform h w).1 =
        .ok (Config.firstOf w (Config.searched w.view start)) ∧
      (".." ∉ Path.parts start → Config.searched w.view start =
        if Path.isAbsolute start then Config.nearest q
        else (Config.nearest q).take ((Path.parts start).length + 1)) := by
  obtain ⟨q, follow, hplace, hat, hwalk⟩ := View.walk_of_find_directory hstart
  have hbase : w.store.IsReached (if Path.isAbsolute start then [] else w.cwd) ∧
      ∀ name ∈ (if Path.isAbsolute start then [] else w.cwd : Place), Path.IsName name := by
    split
    · exact ⟨w.store.isReached_root, by simp⟩
    · exact ⟨hcwd, hnames⟩
  obtain ⟨hq, hreached⟩ := Store.walk_to_directory hs hbase.1 hwalk hat
  have hqnames : ∀ name ∈ q, Path.IsName name := by
    rw [hq]
    exact Place.isName_of_mem_follow hbase.2 fun name hname hup =>
      Path.isName_of_mem_parts hname hup
  have hqreached : w.store.IsReached q := by
    rw [hq]
    exact hreached _ List.prefix_rfl
  have hparts : Path.parts q.path = q := Place.parts_path hqnames
  have hqup : ".." ∉ q := fun hup => (hqnames ".." hup).ne_up rfl
  have hqsearched : Config.searched w.view q.path = Config.nearest q := by
    rw [Config.searched_of_notMem (by rw [hparts]; exact hqup), Place.isAbsolute_path, hparts,
      if_pos rfl, Place.follow_of_notMem hqup, List.nil_append, Config.take_nearest]
  refine ⟨q, hplace, ?_, Config.result_search_of_reached hs hreached, ?_⟩
  · rw [← hqsearched]
    refine Config.result_search_of_reached hs ?_
    rw [hparts, Place.isAbsolute_path, if_pos rfl]
    exact Config.isReached_follow hqup hqreached
  · intro hup
    rw [Config.searched_of_notMem hup, show w.view.cwd = w.cwd from rfl, ← hq]
    split
    · rename_i habsolute
      rw [if_pos habsolute, Place.follow_of_notMem hup, List.nil_append] at hq
      rw [← hq, Config.take_nearest]
    · rfl

/-! ## A shop with settings -/

namespace Sample

/-- Settings that only name a flag for the linker. -/
def flagged : Config := { Config.default with ldflags := "-s" }

/-- A shop with a directory in it, where one works, and these settings in one of the two. -/
def nested (dir : Place) : World :=
  ⟨⟨[(["shop"], .directory), (["shop", "api"], .directory),
      (dir ++ [Config.fileName], .file (View.encode "[go]\nldflags = \"-s\"\n") false)]⟩,
    ["shop", "api"], none, .empty, 0, []⟩

theorem hasNoLinks_nested (dir : Place) : (nested dir).store.HasNoLinks :=
  Store.hasNoLinks_of_entries (by simp [nested])

theorem isReached_nested (dir : Place) : (nested dir).store.IsReached ["shop", "api"] :=
  ((nested dir).store.isReached_root.into rfl).into rfl

theorem isName_nested : ∀ name ∈ (["shop", "api"] : Place), Path.IsName name := by
  intro name hname
  simp only [List.mem_cons, List.not_mem_nil, or_false] at hname
  rcases hname with rfl | rfl
  · exact ⟨by decide, by decide, by decide, by decide⟩
  · exact ⟨by decide, by decide, by decide, by decide⟩

theorem find_here (dir : Place) : (nested dir).view.find "." = .ok .directory := by
  have hplace : (nested dir).store.place ["shop", "api"] true "." = .ok ["shop", "api"] := by
    have hempty : ".".isEmpty = false := by decide
    have habsolute : Path.isAbsolute "." = false := by decide
    have hparts : Path.parts "." = [] := by decide
    unfold Store.place
    rw [hempty, habsolute, hparts]
    simp [Store.walk, isReached_nested dir _ List.prefix_rfl]
  unfold View.find
  rw [World.store_view, show (nested dir).view.cwd = ["shop", "api"] from rfl, hplace]
  dsimp only
  rw [isReached_nested dir _ List.prefix_rfl]

theorem the_settings_of_the_nested_shop_are_searched_upwards :
    ∃ q : Place, (nested ["shop"]).store.place ["shop", "api"] true "." = .ok q ∧
      ((Config.search q.path : Act Failure Config).perform host (nested ["shop"])).1 =
        .ok (Config.firstOf (nested ["shop"]) (Config.nearest q)) ∧
      ((Config.search "." : Act Failure Config).perform host (nested ["shop"])).1 =
        .ok (Config.firstOf (nested ["shop"]) (Config.searched (nested ["shop"]).view ".")) ∧
      (".." ∉ Path.parts "." → Config.searched (nested ["shop"]).view "." =
        if Path.isAbsolute "." then Config.nearest q
        else (Config.nearest q).take ((Path.parts ".").length + 1)) :=
  the_settings_of_a_directory_are_searched_upwards host (nested ["shop"]) (hasNoLinks_nested _)
    (isReached_nested _) isName_nested "." (find_here _)

/-- From the working directory, written as a dot, the settings above it are not found, but from
its full path they are. From two dots, the settings of the working directory are found, which
does not contain the directory above it. -/
theorem the_settings_of_the_nested_shop_depend_on_the_spelling :
    ((Config.search "." : Act Failure Config).perform host (nested ["shop"])).1 =
        .ok .default ∧
      ((Config.search "/shop/api" : Act Failure Config).perform host (nested ["shop"])).1 =
        .ok flagged ∧
      ((Config.search ".." : Act Failure Config).perform host (nested ["shop", "api"])).1 =
        .ok flagged ∧
      ((Config.search "/shop" : Act Failure Config).perform host (nested ["shop", "api"])).1 =
        .ok .default := by
  have hshop : ∀ dir, (nested dir).store.IsReached ["shop"] := fun dir => (isReached_nested dir).up
  refine ⟨?_, ?_, ?_, ?_⟩
  · rw [Config.result_search_of_reached (hasNoLinks_nested _)]
    · exact congrArg Except.ok (by decide)
    · rw [show Path.parts "." = [] by decide]
      exact Config.isReached_follow (by simp) (isReached_nested _)
  · rw [Config.result_search_of_reached (hasNoLinks_nested _)]
    · exact congrArg Except.ok (by decide +kernel)
    · rw [show Path.parts "/shop/api" = ["shop", "api"] by decide,
        show Path.isAbsolute "/shop/api" = true by decide]
      exact Config.isReached_follow (by simp) (isReached_nested _)
  · rw [Config.result_search_of_reached (hasNoLinks_nested _)]
    · exact congrArg Except.ok (by decide +kernel)
    · rw [show Path.parts ".." = [".."] by decide,
        show Path.isAbsolute ".." = false by decide]
      intro front hfront
      rcases List.prefix_cons_iff.mp hfront with rfl | ⟨more, rfl, hmore⟩
      · exact isReached_nested _
      · rw [List.prefix_nil.mp hmore]
        exact hshop _
  · rw [Config.result_search_of_reached (hasNoLinks_nested _)]
    · exact congrArg Except.ok (by decide)
    · rw [show Path.parts "/shop" = ["shop"] by decide,
        show Path.isAbsolute "/shop" = true by decide]
      exact Config.isReached_follow (by simp) (hshop _)

end Sample
end Graft
