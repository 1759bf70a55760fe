-- Which file of settings decides. The search stops at the first directory
-- that states settings, and not at the first one with a file for them. So a
-- valid file decides alone, and a file that cannot be read or is not valid is
-- reported and passed over, as if it were not there.
import Graft.Proofs.Searching

namespace Graft

open Act Files

/-! ## Warnings -/

namespace World

/-- The world after these warnings. -/
def warned (w : World) (texts : List String) : World :=
  texts.foldl (fun w text => w.record (.said .warning text)) w

theorem view_warned (w : World) (texts : List String) : (w.warned texts).view = w.view := by
  induction texts generalizing w with
  | nil => rfl
  | cons text more ih => exact ih (w.record (.said .warning text))

theorem goBinary_warned (w : World) (texts : List String) :
    (w.warned texts).goBinary = w.goBinary := by
  induction texts generalizing w with
  | nil => rfl
  | cons text more ih => exact ih (w.record (.said .warning text))

theorem events_warned (w : World) (texts : List String) :
    (w.warned texts).events = w.events ++ texts.map (Event.said .warning) := by
  induction texts generalizing w with
  | nil => exact (List.append_nil _).symm
  | cons text more ih =>
    have hrecord : (w.record (.said .warning text)).events =
        w.events ++ [.said .warning text] := by
      simp [events, record]
    rw [List.map_cons, List.append_cons, ← hrecord]
    exact ih (w.record (.said .warning text))

end World

namespace Config

/-! ## What the search says -/

/-- What is said about a file that is there but states no settings. -/
def complaint? (h : Host) (v : View) (path : String) : Option String :=
  match v.readText path with
  | .error .notFound => none
  | .error fault => some ("Failed to read config file " ++ path ++ ": " ++ fault.message)
  | .ok text =>
    match parse text with
    | some _ => none
    | none =>
      some ("Failed to parse " ++ fileName ++ ": " ++ h.settingsFault text ++ ". Using defaults.")

/-- What is said about the directories that are passed over: those in front of the first one
that states settings. -/
def complaints (h : Host) (v : View) (dirs : List String) : List String :=
  (dirs.takeWhile fun dir => (stated v (Path.join dir fileName)).isNone).filterMap fun dir =>
    complaint? h v (Path.join dir fileName)

/-- The settings of the first of the directories that states any. -/
def firstStated (v : View) (dirs : List String) : Option Config :=
  dirs.findSome? fun dir => stated v (Path.join dir fileName)

section

variable {ε : Type} (h : Host) (w : World)

theorem perform_readFile? (path : String) :
    (readFile? path : Act ε (Option Config)).perform h w =
      (.ok (stated w.view path), w.warned (complaint? h w.view path).toList) := by
  unfold readFile? stated complaint?
  rw [perform_bind_of_ok (perform_view h w)]
  cases w.view.readText path with
  | error fault => cases fault <;> rfl
  | ok text =>
    dsimp only [Except.toOption, Option.bind]
    cases parse text <;> rfl

theorem perform_firstIn (dirs : List String) :
    (firstIn dirs : Act ε (Option Config)).perform h w =
      (.ok (firstStated w.view dirs), w.warned (complaints h w.view dirs)) := by
  induction dirs generalizing w with
  | nil => rfl
  | cons dir dirs ih =>
    unfold firstIn firstStated complaints
    rw [perform_bind_of_ok (perform_readFile? h w _), List.findSome?_cons, List.takeWhile_cons]
    cases hstated : stated w.view (Path.join dir fileName) with
    | some c =>
      -- A file that states settings is not complained about.
      have hnone : complaint? h w.view (Path.join dir fileName) = none := by
        unfold stated at hstated
        unfold complaint?
        cases ht : w.view.readText (Path.join dir fileName) with
        | error fault =>
          rw [ht] at hstated
          cases hstated
        | ok text =>
          rw [ht] at hstated
          have hparse : parse text = some c := hstated
          dsimp only
          rw [hparse]
      rw [hnone]
      rfl
    | none =>
      dsimp only
      rw [ih, World.view_warned, if_pos Option.isNone_none, List.filterMap_cons]
      cases complaint? h w.view (Path.join dir fileName) with
      | none => rfl
      | some text => rfl

/-- A search never fails. It comes to the first settings that are stated, and it says what is
wrong with the files in front of them. -/
theorem perform_search (start : String) :
    (search start : Act ε Config).perform h w =
      (.ok (((firstStated w.view (Path.ancestors searchDepth start)).getD default).withBinary
          w.goBinary),
        w.warned (complaints h w.view (Path.ancestors searchDepth start))) := by
  unfold search
  rw [perform_bind_of_ok (perform_firstIn h w _), ← w.goBinary_warned]
  rfl

end

/-! ## The nearest file -/

variable {h : Host} {v : View} {before after : List String} {dir path : String}

theorem stated_of_not_exists (hex : v.exists? path = false) : stated v path = none := by
  unfold View.exists? at hex
  unfold stated View.readText View.readBytes
  cases hf : v.find path with
  | ok e =>
    rw [hf] at hex
    cases hex
  | error fault => rfl

theorem stated_of_readText {text : String} (hread : v.readText path = .ok text) :
    stated v path = parse text := by
  unfold stated
  rw [hread]
  rfl

theorem stated_eq_none_iff :
    stated v path = none ↔ ∀ text, v.readText path = .ok text → parse text = none := by
  unfold stated
  cases v.readText path with
  | error fault =>
    refine ⟨?_, fun _ => rfl⟩
    rintro - text ⟨⟩
  | ok text =>
    refine ⟨?_, fun hnone => hnone text rfl⟩
    rintro hnone text ⟨⟩
    exact hnone

/-- Only a file that states settings, or one that is not there, is passed in silence. -/
theorem exists_complaint (hex : v.exists? path = true) (hnone : stated v path = none) :
    ∃ text, complaint? h v path = some text := by
  have hfound : v.readText path ≠ .error .notFound := by
    intro hread
    unfold View.exists? at hex
    unfold View.readText View.readBytes at hread
    cases hf : v.find path with
    | error fault =>
      rw [hf] at hex
      cases hex
    | ok e =>
      rw [hf] at hread
      cases e with
      | file bytes x =>
        dsimp only at hread
        cases hd : View.decode? bytes with
        | none =>
          rw [hd] at hread
          cases hread
        | some text =>
          rw [hd] at hread
          cases hread
      | directory => cases hread
      | link target => cases hread
  unfold complaint?
  cases hread : v.readText path with
  | error fault =>
    cases fault with
    | notFound => exact absurd hread hfound
    | _ => exact ⟨_, rfl⟩
  | ok text =>
    have hparse := stated_eq_none_iff.mp hnone text hread
    dsimp only
    rw [hparse]
    exact ⟨_, rfl⟩

theorem firstStated_append
    (hbefore : ∀ d ∈ before, stated v (Path.join d fileName) = none) :
    firstStated v (before ++ after) = firstStated v after := by
  unfold firstStated
  rw [List.findSome?_append, List.findSome?_eq_none_iff.mpr hbefore, Option.none_or]

/-- Up to a directory that states no settings, every file is complained about. -/
theorem mem_complaints {text : String}
    (hbefore : ∀ d ∈ before, stated v (Path.join d fileName) = none)
    (hdir : stated v (Path.join dir fileName) = none)
    (htext : complaint? h v (Path.join dir fileName) = some text) :
    text ∈ complaints h v (before ++ dir :: after) := by
  have hpassed : ∀ d ∈ before, (stated v (Path.join d fileName)).isNone = true := by
    intro d hd
    rw [hbefore d hd]
    rfl
  unfold complaints
  rw [List.takeWhile_append_of_pos hpassed, List.takeWhile_cons, hdir,
    if_pos Option.isNone_none]
  exact List.mem_filterMap.mpr ⟨dir, by simp, htext⟩

end Config

/-- Without a file for settings in the directories that are searched, the default settings
count. Of the first of these directories with such a file, one of two is true. If the file is
valid, its contents alone decide, whatever stands further up. If it cannot be read or is not
valid, this is said, but then the directories further up decide, and the default settings count
only if no directory there states settings. -/
theorem the_nearest_settings_decide_if_they_are_valid {ε : Type} (h : Host) (w : World)
    (start : String) :
    ((∀ dir ∈ Path.ancestors Config.searchDepth start,
        w.view.exists? (Path.join dir Config.fileName) = false) →
      ((Config.search start : Act ε Config).perform h w).1 =
        .ok (Config.default.withBinary w.goBinary)) ∧
    ∀ before dir after, Path.ancestors Config.searchDepth start = before ++ dir :: after →
      (∀ d ∈ before, w.view.exists? (Path.join d Config.fileName) = false) →
      (∀ text c, w.view.readText (Path.join dir Config.fileName) = .ok text →
        Config.parse text = some c →
        ((Config.search start : Act ε Config).perform h w).1 =
          .ok (c.withBinary w.goBinary)) ∧
      ((∀ text, w.view.readText (Path.join dir Config.fileName) = .ok text →
          Config.parse text = none) →
        ((Config.search start : Act ε Config).perform h w).1 =
            .ok (((Config.firstStated w.view after).getD .default).withBinary w.goBinary) ∧
          ((∀ d ∈ after, Config.stated w.view (Path.join d Config.fileName) = none) →
            ((Config.search start : Act ε Config).perform h w).1 =
              .ok (Config.default.withBinary w.goBinary)) ∧
          (w.view.exists? (Path.join dir Config.fileName) = true →
            ∃ text, Config.complaint? h w.view (Path.join dir Config.fileName) = some text ∧
              Event.said .warning text ∈
                ((Config.search start : Act ε Config).perform h w).2.events)) := by
  rw [Config.perform_search]
  dsimp only
  rw [World.events_warned]
  refine ⟨?_, ?_⟩
  · intro habsent
    have hnone : Config.firstStated w.view (Path.ancestors Config.searchDepth start) = none :=
      List.findSome?_eq_none_iff.mpr fun dir hdir => Config.stated_of_not_exists (habsent dir hdir)
    rw [hnone]
    rfl
  · intro before dir after hdirs habsent
    have hbefore : ∀ d ∈ before, Config.stated w.view (Path.join d Config.fileName) = none :=
      fun d hd => Config.stated_of_not_exists (habsent d hd)
    rw [hdirs, Config.firstStated_append hbefore]
    refine ⟨?_, ?_⟩
    · intro text c htext hparse
      have hstated : Config.stated w.view (Path.join dir Config.fileName) = some c :=
        (Config.stated_of_readText htext).trans hparse
      unfold Config.firstStated
      rw [List.findSome?_cons, hstated]
      rfl
    · intro hinvalid
      have hstated := Config.stated_eq_none_iff.mpr hinvalid
      have hdir : ∀ d ∈ [dir], Config.stated w.view (Path.join d Config.fileName) = none := by
        intro d hd
        rw [List.mem_singleton.mp hd]
        exact hstated
      have hafter : Config.firstStated w.view (dir :: after) = Config.firstStated w.view after :=
        Config.firstStated_append hdir
      rw [hafter]
      refine ⟨rfl, ?_, ?_⟩
      · intro hnone
        have hfirst : Config.firstStated w.view after = none :=
          List.findSome?_eq_none_iff.mpr hnone
        rw [hfirst]
        rfl
      · intro hex
        obtain ⟨text, htext⟩ := Config.exists_complaint hex hstated
        refine ⟨text, htext, List.mem_append_right _ (List.mem_map_of_mem ?_)⟩
        exact Config.mem_complaints hbefore hstated htext

/-! ## A shop with settings twice -/

theorem Config.ancestors_eq_cons (start : String) : Path.ancestors searchDepth start =
    start :: (Path.ancestors searchDepth start).tail := rfl

theorem Config.statedIn_of_at? {s : Store} {dir : Place} {bytes : List UInt8} {x : Bool}
    (h : s.at? (dir ++ [fileName]) = some (.file bytes x)) :
    statedIn s dir = (View.decode? bytes).bind parse := by
  unfold statedIn
  rw [h]

/-- What stands where the settings of a directory are looked up. -/
theorem Config.find_fileName {v : View} {dir : String} (hs : v.store.HasNoLinks)
    (hreached : ∀ front, front <+: Path.parts dir →
      v.store.IsReached ((if Path.isAbsolute dir then [] else v.cwd : Place).follow front)) :
    v.find (Path.join dir fileName) =
      match v.store.at? ((if Path.isAbsolute dir then [] else v.cwd : Place).follow
        (Path.parts dir) ++ [fileName]) with
      | some e => .ok e
      | none => .error .notFound := by
  have hrelative : Path.isAbsolute fileName = false := Path.isAbsolute_of_name isName_fileName
  have hparts : Path.parts fileName = [fileName] := by decide
  unfold View.find
  rw [Store.place_of_endsIn (Path.endsIn_join isName_fileName dir),
    Path.isAbsolute_join hrelative, Path.parts_join hrelative, hparts,
    Store.walk_append [fileName] hreached, Store.walk, if_neg isName_fileName.ne_up]
  generalize (if Path.isAbsolute dir then [] else v.cwd : Place).follow (Path.parts dir) ++
    [fileName] = p
  cases hp : v.store.at? p with
  | none => simp [hp]
  | some e =>
    cases e with
    | file bytes x => simp [hp]
    | directory =>
      dsimp only
      rw [Store.walk]
      simp [hp]
    | link target => exact absurd hp (hs p target)

namespace Sample

/-- No settings. -/
def spoiled : String := "not toml ["

/-- Settings that only name a flag for the linker, as they are written. -/
def flaggedText : String := "[go]\nldflags = \"-s\"\n"

/-- One text is no settings, and the other one is. -/
theorem parse_settings :
    Config.parse spoiled = none ∧ Config.parse flaggedText = some flagged := by
  decide +kernel

/-- The shop with settings and with spoiled settings in the directory in it, where one works in
one of its directories or at the root. -/
def twiceSet (cwd : Place) : World :=
  ⟨⟨[(["shop"], .directory), (["shop", "api"], .directory),
      (["shop", Config.fileName], .file (View.encode flaggedText) false),
      (["shop", "api", Config.fileName], .file (View.encode spoiled) false)]⟩,
    cwd, none, .empty, 0, []⟩

section

variable (cwd : Place)

theorem hasNoLinks_twiceSet : (twiceSet cwd).store.HasNoLinks :=
  Store.hasNoLinks_of_entries (by simp [twiceSet])

theorem isReached_twiceSet : (twiceSet cwd).store.IsReached ["shop", "api"] :=
  ((twiceSet cwd).store.isReached_root.into rfl).into rfl

/-- Each path leads through the directories of the shop, from the root or from where one works. -/
theorem find_settings_twiceSet {dir : String} {p : Place} (hp : p <+: ["shop", "api"])
    (hdir : (if Path.isAbsolute dir then [] else cwd) ++ Path.parts dir = p) :
    (twiceSet cwd).view.find (Path.join dir Config.fileName) =
      match (twiceSet cwd).store.at? (p ++ [Config.fileName]) with
      | some e => .ok e
      | none => .error .notFound := by
  have hup : ".." ∉ Path.parts dir := by
    intro hmem
    have hp' : ".." ∈ p := hdir ▸ List.mem_append_right _ hmem
    exact absurd (hp.subset hp') (by simp)
  have hcwd : (twiceSet cwd).view.cwd = cwd := rfl
  rw [Config.find_fileName (hasNoLinks_twiceSet cwd), hcwd, Place.follow_of_notMem hup, hdir]
  · rfl
  · rw [hcwd]
    refine Config.isReached_follow hup fun q hq => isReached_twiceSet cwd q ?_
    exact (hdir ▸ hq).trans hp

end

theorem find_inner_settings :
    (twiceSet []).view.find (Path.join "/shop/api" Config.fileName) =
      .ok (.file (View.encode spoiled) false) :=
  find_settings_twiceSet [] List.prefix_rfl (by decide)

theorem find_outer_settings :
    (twiceSet []).view.find (Path.join "/shop" Config.fileName) =
      .ok (.file (View.encode flaggedText) false) :=
  find_settings_twiceSet [] (p := ["shop"]) ⟨["api"], rfl⟩ (by decide)

/-- Spoiled settings state nothing, wherever they stand. -/
theorem parse_of_find_spoiled {v : View} {path : String} {executable : Bool}
    (h : v.find path = .ok (.file (View.encode spoiled) executable)) :
    ∀ text, v.readText path = .ok text → Config.parse text = none := by
  intro text htext
  rw [View.readText_of_find h] at htext
  cases htext
  exact parse_settings.1

/-- At the root there are no settings, in the shop there are valid ones, and in the directory in it
there are spoiled ones, with the directories above it and by themselves. -/
theorem the_nearest_settings_of_the_twice_set_shop_decide_if_they_are_valid :
    ((Config.search "" : Act Failure Config).perform host (twiceSet [])).1 = .ok .default ∧
      ((Config.search "/shop" : Act Failure Config).perform host (twiceSet [])).1 =
        .ok flagged ∧
      (((Config.search "/shop/api" : Act Failure Config).perform host (twiceSet [])).1 =
          .ok (((Config.firstStated (twiceSet []).view
            (Path.ancestors Config.searchDepth "/shop/api").tail).getD .default).withBinary none) ∧
        ∃ text, Config.complaint? host (twiceSet []).view (Path.join "/shop/api" Config.fileName) =
            some text ∧
          Event.said .warning text ∈
            ((Config.search "/shop/api" : Act Failure Config).perform host
              (twiceSet [])).2.events) ∧
      ((Config.search "" : Act Failure Config).perform host (twiceSet ["shop", "api"])).1 =
        .ok .default := by
  have hrelative : Path.ancestors Config.searchDepth "" = [""] := Path.ancestors_empty 9
  refine ⟨?_, ?_, ?_, ?_⟩
  · refine (the_nearest_settings_decide_if_they_are_valid host (twiceSet []) "").1 ?_
    intro dir hdir
    rw [hrelative, List.mem_singleton] at hdir
    unfold View.exists?
    rw [hdir, find_settings_twiceSet [] (p := []) List.nil_prefix (by decide)]
    rfl
  · refine ((the_nearest_settings_decide_if_they_are_valid host (twiceSet []) "/shop").2 []
      "/shop" _ (Config.ancestors_eq_cons _) (by simp)).1 flaggedText flagged ?_ parse_settings.2
    exact View.readText_of_find find_outer_settings
  · obtain ⟨hpassed, -, hsaid⟩ :=
      ((the_nearest_settings_decide_if_they_are_valid host (twiceSet []) "/shop/api").2 []
        "/shop/api" _ (Config.ancestors_eq_cons _) (by simp)).2 (parse_of_find_spoiled find_inner_settings)
    refine ⟨hpassed, hsaid ?_⟩
    unfold View.exists?
    rw [find_inner_settings]
    rfl
  · have hfind : (twiceSet ["shop", "api"]).view.find (Path.join "" Config.fileName) =
        .ok (.file (View.encode spoiled) false) :=
      find_settings_twiceSet _ List.prefix_rfl (by decide)
    exact (((the_nearest_settings_decide_if_they_are_valid host (twiceSet ["shop", "api"]) "").2
      [] "" [] hrelative (by simp)).2 (parse_of_find_spoiled hfind)).2.1 (by simp)

/-- The nearest settings of the directory in the shop are spoiled, but those of the shop itself
count for it, and not the default ones. -/
theorem the_spoiled_settings_of_the_shop_are_passed_over :
    (Path.ancestors Config.searchDepth "/shop/api").head? = some "/shop/api" ∧
      (twiceSet []).view.exists? (Path.join "/shop/api" Config.fileName) = true ∧
      (∀ text, (twiceSet []).view.readText (Path.join "/shop/api" Config.fileName) = .ok text →
        Config.parse text = none) ∧
      ((Config.search "/shop/api" : Act Failure Config).perform host (twiceSet [])).1 =
        .ok flagged ∧
      flagged ≠ Config.default.withBinary (twiceSet []).goBinary := by
  refine ⟨rfl, ?_, parse_of_find_spoiled find_inner_settings, ?_, by decide⟩
  · unfold View.exists?
    rw [find_inner_settings]
    rfl
  · have hparts : Path.parts "/shop/api" = ["shop", "api"] := by decide
    have habsolute : Path.isAbsolute "/shop/api" = true := by decide
    have hinner : Config.statedIn (twiceSet []).store ["shop", "api"] = none := by
      have hat : (twiceSet []).store.at? (["shop", "api"] ++ [Config.fileName]) =
          some (.file (View.encode spoiled) false) := rfl
      rw [Config.statedIn_of_at? hat, View.decode?_encode, Option.bind_some]
      exact parse_settings.1
    have houter : Config.statedIn (twiceSet []).store ["shop"] = some flagged := by
      have hat : (twiceSet []).store.at? (["shop"] ++ [Config.fileName]) =
          some (.file (View.encode flaggedText) false) := rfl
      rw [Config.statedIn_of_at? hat, View.decode?_encode, Option.bind_some]
      exact parse_settings.2
    have hsearched : Config.searched (twiceSet []).view "/shop/api" =
        [["shop", "api"], ["shop"], []] := by
      unfold Config.searched
      rw [hparts, habsolute]
      rfl
    rw [Config.result_search_of_reached (hasNoLinks_twiceSet [])]
    · unfold Config.firstOf
      rw [hsearched, List.findSome?_cons, hinner]
      dsimp only
      rw [List.findSome?_cons, houter]
      rfl
    · rw [hparts, habsolute, if_pos rfl]
      exact Config.isReached_follow (by simp) (isReached_twiceSet [])

end Sample
end Graft
