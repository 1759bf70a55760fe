-- The program that an injection builds, and what is made of its answers. A
-- run of it is for one name: it gives the table of everything that it holds,
-- or calls what it holds under the name. What this came to is written in
-- JSON, without the members that hold nothing, and is read as what it was.
import Graft.Proofs.Answers
import Graft.Proofs.Base64Texts
import Graft.Proofs.JsonTexts
import Graft.Proofs.Runs

namespace Graft

/-! ## The program -/

/-- How a call ends. A panic has a text unless it was raised with no value at all. -/
inductive CallEnd (α : Type)
  | returned (x : α)
  | panicked (text : Option String)

/-- What a program holds under a name: a function, with how its call ends, or something that
cannot be called. An error is known by its message. -/
inductive Held
  | plain (call : CallEnd (Option String))
  | bytes (call : CallEnd (List UInt8 × Option String))
  | other (type : String)

def Held.typeText : Held → String
  | .plain _ => "func() error"
  | .bytes _ => "func() ([]uint8, error)"
  | .other type => type

/-- A program with functions that were injected. -/
structure Guest where
  held : List (String × Held)
  distinct : (held.map Prod.fst).Nodup

/-- What a run of the program has to tell. A table without entries tells nothing. -/
structure Told where
  data : Option String
  error : Option String
  symbols : List (String × String)

/-- How the library of the program writes: the spelling of characters, the order in which a
table is written, and the quoting of names in messages. -/
structure Library extends Json.Writer where
  arrange : List (String × String) → List (String × String)
  perm_arrange : ∀ table, (arrange table).Perm table
  quote : String → String

namespace Told

def nothing : Told := ⟨none, none, []⟩

def message (text : String) : Told := ⟨none, some text, []⟩

/-- What is told about a call: a panic is told as its text, and one without a value is told
as nothing. -/
def ofCall {α : Type} (result : α → Told) : CallEnd α → Told
  | .returned x => result x
  | .panicked none => nothing
  | .panicked (some text) => message ("panic: " ++ text)

end Told

namespace Library

variable (L : Library)

def textMember (key s : String) : Json.Member := ⟨key, L.string s, .string (some s)⟩

def tableMember (table : List (String × String)) : Json.Member :=
  let entries := table.map fun e => L.textMember e.1 e.2
  ⟨"symbols", L.object entries, .object (entries.map Json.Member.read)⟩

/-- The members of an answer: those that hold something. -/
def members (t : Told) : List Json.Member :=
  (t.data.map (L.textMember "data")).toList ++ (t.error.map (L.textMember "error")).toList ++
    if t.symbols.isEmpty then [] else [L.tableMember (L.arrange t.symbols)]

def answer (t : Told) : String := String.ofList (L.object (L.members t))

/-- How a careful library spells a character: it escapes what has no place in a string, and
what could be taken for something else inside a page. -/
def carefulSpelling (c : Char) : List Char :=
  match (Json.shortEscapes.find? fun e => e.1 == c).filter fun e => e.1 != '/' with
  | some e => ['\\', e.2]
  | none =>
    if c.toNat < 0x20 ∨ c ∈ ['<', '>', '&', '\u2028', '\u2029'] then
      '\\' :: 'u' :: Json.fourDigits c.toNat
    else [c]

theorem spells_carefulSpelling (c : Char) : Json.Spells c (carefulSpelling c) := by
  unfold carefulSpelling
  split
  · rename_i e he
    obtain ⟨hfind, -⟩ := Option.filter_eq_some_iff.1 he
    obtain rfl : e.1 = c := by simpa using List.find?_some hfind
    exact .short (List.mem_of_find?_eq_some hfind)
  · rename_i hnone
    split
    · rename_i hc
      refine .unit ?_
      rcases hc with hc | hc
      · omega
      · have hall : ∀ d ∈ ['<', '>', '&', '\u2028', '\u2029'], d.toNat < 0x10000 := by simp
        exact hall c hc
    · rename_i hc
      refine .plain (Nat.le_of_not_lt fun hlow => hc (.inl hlow)) ?_ ?_
      · rintro rfl
        cases hnone
      · rintro rfl
        cases hnone

/-- A library that is careful about pages and writes tables by name. -/
def careful : Library where
  spell := carefulSpelling
  spells := spells_carefulSpelling
  arrange table := table.mergeSort fun a b => Files.Store.nameLe a.1 b.1
  perm_arrange table := List.mergeSort_perm table _
  quote := Text.quoted

end Library

namespace Guest

variable (L : Library) (g : Guest)

/-- Everything that the program holds, with its type. -/
def types : List (String × String) := g.held.map fun e => (e.1, e.2.typeText)

def held? (name : String) : Option Held := (g.held.find? fun e => e.1 == name).map Prod.snd

/-- What a run for the name tells. -/
def tells (name : String) : Told :=
  if name = Artifact.tableSymbol then ⟨none, none, g.types⟩
  else
    match g.held? name with
    | some (.plain call) =>
      Told.ofCall (fun error => (error.map Told.message).getD .nothing) call
    | some (.bytes call) =>
      Told.ofCall (fun r => (r.2.map Told.message).getD ⟨some (Base64.text r.1), none, []⟩) call
    | _ => Told.message ("symbol " ++ L.quote name ++ " cannot be invoked")

/-- A value of the environment, empty if it is not set. -/
def valueIn (l : Launch) (name : String) : String :=
  ((l.environment.find? fun e => e.1 == name).map Prod.snd).getD ""

/-- The file that a run writes and the answer in it. Without a name, the program runs as if
nothing had been injected. -/
def writes (l : Launch) : Option (String × String) :=
  let name := valueIn l Artifact.symbolVariable
  if name = "" then none
  else some (valueIn l Artifact.resultVariable, L.answer (g.tells L name))

/-- What a run for the name calls. -/
def called? (name : String) : Option Held :=
  if name = "" ∨ name = Artifact.tableSymbol then none else g.held? name

/-- The run of the artifact for the symbol is a run of the program, and the file of the answer
holds what the program wrote. -/
def Ran (h : Host) (path directory symbol : String) (w : World) : Prop :=
  let l := Artifact.runFor path directory symbol (Artifact.resultPath h.tempDir (w.nextSuffix h))
  ∃ outcome u, (Act.launch l).perform h { w with drawn := w.drawn + 1 } = (.ok outcome, u) ∧
    ∀ file text, g.writes L l = some (file, text) →
      u.view.readBytes file = .ok (Files.View.encode text)

end Guest

/-- What a call should be reported as. -/
def Held.reported (L : Library) (name : String) : Held → Except SymbolError (List UInt8)
  | .plain (.returned none) => .ok []
  | .bytes (.returned (data, none)) => .ok data
  | .plain (.returned (some message)) => .error (.returned name message)
  | .bytes (.returned (_, some message)) => .error (.returned name message)
  | .plain (.panicked (some text)) => .error (.returned name ("panic: " ++ text))
  | .bytes (.panicked (some text)) => .error (.returned name ("panic: " ++ text))
  | .plain (.panicked none) => .ok []
  | .bytes (.panicked none) => .ok []
  | .other _ => .error (.returned name ("symbol " ++ L.quote name ++ " cannot be invoked"))

/-! ## Tables -/

namespace Envelope

theorem perm_insertSymbol {name : String} (type : String) {table : List (String × String)}
    (h : name ∉ table.map Prod.fst) :
    (insertSymbol name type table).Perm ((name, type) :: table) := by
  induction table with
  | nil => exact .refl _
  | cons e table ih =>
    obtain ⟨hne, hrest⟩ : name ≠ e.1 ∧ name ∉ table.map Prod.fst := by simpa using h
    unfold insertSymbol
    rw [if_neg (by simpa using Ne.symm hne)]
    split
    · exact .refl _
    · exact ((ih hrest).cons e).trans (.swap _ _ _)

/-- A table whose names differ is read whole. -/
theorem symbolTable?_members (L : Library) (table : List (String × String))
    {entries : List (String × String)} (h : ((table ++ entries).map Prod.fst).Nodup) :
    ∃ read, symbolTable? ((entries.map fun e => L.textMember e.1 e.2).map Json.Member.read) table =
      some read ∧ read.Perm (table ++ entries) := by
  induction entries generalizing table with
  | nil => exact ⟨table, rfl, by rw [List.append_nil]⟩
  | cons e entries ih =>
    have hmiddle : (table ++ e :: entries).Perm (e :: (table ++ entries)) := List.perm_middle
    have hnew : e.1 ∉ table.map Prod.fst := by
      have hnodup := (hmiddle.map Prod.fst).nodup_iff.1 h
      intro hin
      refine (List.nodup_cons.1 hnodup).1 ?_
      rw [List.map_append]
      exact List.mem_append_left _ hin
    have hperm : (insertSymbol e.1 e.2 table ++ entries).Perm (table ++ e :: entries) :=
      ((perm_insertSymbol e.2 hnew).append_right entries).trans hmiddle.symm
    obtain ⟨read, hread, hp⟩ := ih _ ((hperm.map Prod.fst).nodup_iff.2 h)
    exact ⟨read, hread, hp.trans hperm⟩

end Envelope

/-! ## Answers -/

namespace Library

variable (L : Library)

theorem reads_textMember (key s : String) :
    Json.Reads (L.textMember key s).text (L.textMember key s).value :=
  Json.reads_string L.toWriter s

theorem reads_tableMember (table : List (String × String)) :
    Json.Reads (L.tableMember table).text (L.tableMember table).value := by
  refine Json.reads_object L.toWriter fun m hm => ?_
  obtain ⟨e, -, rfl⟩ := List.mem_map.1 hm
  exact L.reads_textMember e.1 e.2

theorem reads_members (t : Told) : ∀ m ∈ L.members t, Json.Reads m.text m.value := by
  intro m hm
  unfold members at hm
  rcases List.mem_append.1 hm with hm | hm
  · rcases List.mem_append.1 hm with hm | hm
    · obtain ⟨s, -, rfl⟩ := Option.map_eq_some_iff.1 (Option.mem_toList.1 hm)
      exact L.reads_textMember "data" s
    · obtain ⟨s, -, rfl⟩ := Option.map_eq_some_iff.1 (Option.mem_toList.1 hm)
      exact L.reads_textMember "error" s
  · split at hm
    · cases hm
    · obtain rfl := List.mem_singleton.1 hm
      exact L.reads_tableMember _

/-- The members of an answer are read one by one, and none of them twice. -/
theorem ofMembers?_members {t : Told} (h : (t.symbols.map Prod.fst).Nodup) :
    ∃ table, Envelope.ofMembers? .empty ⟨false, false, false⟩
        ((L.members t).map Json.Member.read) = some ⟨t.data, t.error, table⟩ ∧
      (table.getD []).Perm t.symbols := by
  obtain ⟨data, error, symbols⟩ := t
  have hperm := L.perm_arrange symbols
  obtain ⟨read, hread, hp⟩ := Envelope.symbolTable?_members L []
    ((hperm.map Prod.fst).nodup_iff.2 h)
  by_cases hs : symbols = []
  · subst hs
    refine ⟨none, ?_, .refl _⟩
    cases data <;> cases error <;> rfl
  · refine ⟨some read, ?_, hp.trans hperm⟩
    have hshown : symbols.isEmpty = false := by simpa using hs
    unfold members
    rw [hshown]
    have hsymbols : Envelope.symbols? (L.tableMember (L.arrange symbols)).value =
        some (some read) := by
      show (Envelope.symbolTable? _ []).map some = some (some read)
      rw [hread]
      rfl
    have hlast : ∀ e seen, seen.symbols = false →
        Envelope.ofMembers? e seen [(L.tableMember (L.arrange symbols)).read] =
          some { e with symbols := some read } := by
      intro e seen hseen
      have hmember : Envelope.member? e seen "symbols" (L.tableMember (L.arrange symbols)).value =
          some ({ e with symbols := some read }, { seen with symbols := true }) := by
        unfold Envelope.member?
        rw [hsymbols, hseen]
        rfl
      have hkey : (L.tableMember (L.arrange symbols)).key = "symbols" := rfl
      unfold Json.Member.read
      rw [hkey, Envelope.ofMembers?, hmember]
      rfl
    cases data <;> cases error <;> exact hlast _ _ rfl

/-- The answer that a program wrote is read as what it told. -/
theorem parse_answer {t : Told} (h : (t.symbols.map Prod.fst).Nodup) :
    ∃ table, Envelope.parse (L.answer t) = some ⟨t.data, t.error, table⟩ ∧
      (table.getD []).Perm t.symbols := by
  obtain ⟨table, hmembers, hp⟩ := L.ofMembers?_members h
  refine ⟨table, ?_, hp⟩
  unfold Envelope.parse answer
  rw [String.toList_ofList, Json.parse_of_reads (Json.reads_object L.toWriter (L.reads_members t)),
    Option.bind_some]
  exact hmembers

example : careful.answer ⟨none, some "a < b", []⟩ =
    "\x7b\"error\":\"a \\u003c b\"\x7d" := by
  decide

end Library

/-! ## Runs of the program -/

namespace Guest

variable {L : Library} {g : Guest} {h : Host} {w : World} {path directory symbol name : String}

theorem called?_eq_some {held : Held} (hc : g.called? name = some held) :
    name ≠ "" ∧ name ≠ Artifact.tableSymbol ∧ g.held? name = some held := by
  unfold called? at hc
  split at hc
  · cases hc
  · rename_i hne
    obtain ⟨hempty, htable⟩ := not_or.1 hne
    exact ⟨hempty, htable, hc⟩

theorem writes_runFor (L : Library) (g : Guest) (path directory symbol result : String) :
    g.writes L (Artifact.runFor path directory symbol result) =
      if symbol = "" then none else some (result, L.answer (g.tells L symbol)) := by
  simp [writes, valueIn, Artifact.runFor, Artifact.symbolVariable, Artifact.resultVariable]

/-- In a run of the program, the artifact answers with what the program tells. -/
theorem Ran.answer (hr : g.Ran L h path directory symbol w) (hs : symbol ≠ "") :
    ∃ exit, Artifact.answer h path directory symbol w =
      .ok (exit, some (L.answer (g.tells L symbol))) := by
  obtain ⟨outcome, u, hlaunch, hfile⟩ := hr
  have hwrites := g.writes_runFor L path directory symbol
    (Artifact.resultPath h.tempDir (w.nextSuffix h))
  rw [if_neg hs] at hwrites
  have hbytes := hfile _ _ hwrites
  have hread : u.view.readText (Artifact.resultPath h.tempDir (w.nextSuffix h)) =
      .ok (L.answer (g.tells L symbol)) := by
    unfold Files.View.readText
    rw [hbytes]
    dsimp only
    rw [Files.View.decode?_encode]
  refine ⟨outcome.exit, ?_⟩
  unfold Artifact.answer
  dsimp only
  rw [hlaunch]
  dsimp only
  rw [hread]
  rfl

/-- Only a run for the table tells a table. -/
theorem symbols_tells :
    (g.tells L name).symbols = if name = Artifact.tableSymbol then g.types else [] := by
  unfold tells
  split
  · rfl
  · split
    · rename_i call _
      rcases call with (_ | message) | (_ | text) <;> rfl
    · rename_i call _
      rcases call with ⟨data, _ | message⟩ | (_ | text) <;> rfl
    · rfl

theorem distinct_tells : ((g.tells L name).symbols.map Prod.fst).Nodup := by
  rw [symbols_tells]
  split
  · have hnames : g.types.map Prod.fst = g.held.map Prod.fst := by
      simp [types, Function.comp_def]
    rw [hnames]
    exact g.distinct
  · exact List.nodup_nil

/-- In a run of the program, what is read is what the program tells. -/
theorem Ran.reading (hr : g.Ran L h path directory symbol w) (hs : symbol ≠ "") :
    ∃ table, Artifact.reading h symbol (Artifact.answer h path directory symbol w) =
        .ok ⟨(g.tells L symbol).data, (g.tells L symbol).error, table⟩ ∧
      (table.getD []).Perm (g.tells L symbol).symbols := by
  obtain ⟨exit, hanswer⟩ := hr.answer hs
  obtain ⟨table, hparse, hp⟩ := L.parse_answer g.distinct_tells
  refine ⟨table, ?_, hp⟩
  rw [hanswer, Artifact.reading, hparse]

/-- What is told about a call is what the call should be reported as. -/
theorem resultOf_tells {held : Held} (hc : g.called? name = some held)
    (table : Option (List (String × String))) :
    BoundSymbol.resultOf name ⟨(g.tells L name).data, (g.tells L name).error, table⟩ =
      held.reported L name := by
  obtain ⟨-, htable, hheld⟩ := called?_eq_some hc
  unfold tells
  rw [if_neg htable, hheld]
  rcases held with ((_ | message) | (_ | text)) | (⟨data, _ | message⟩ | (_ | text)) | type
  case bytes.returned.none =>
    dsimp only [Told.ofCall, Option.map_none, Option.getD_none]
    unfold BoundSymbol.resultOf
    dsimp only
    rw [Base64.decode_text]
    rfl
  all_goals rfl

end Guest

/-! ## A host that runs the program -/

namespace Files.View

variable {v : View} {path name : String} {q : Place}

/-- A file can be written where the path offers a place for it, and is read back. -/
theorem Offers.write (hq : v.Offers path q) (h : Path.EndsIn path name) (bytes : List UInt8) :
    ∃ s, v.write path bytes = .ok s ∧ readBytes ⟨s, v.cwd⟩ path = .ok bytes := by
  have hback : ∀ x, readBytes ⟨v.store.put q (.file bytes x), v.cwd⟩ path = .ok bytes := by
    intro x
    have hways := Store.sameWays_put bytes x hq.2
    have hfind := (hq.1.of_sameWays h hways).find h (hways.isOpen hq.2)
    unfold readBytes
    rw [hfind, Store.at?_put_self (hq.1.ne_root h)]
    rfl
  have hplace : v.store.place v.cwd true path = .ok q := by
    have hleads := hq.1
    rw [Leads, Store.place_of_endsIn h] at hleads
    rw [Store.place_of_endsIn h]
    exact Store.walk_follow hleads hq.2 true
  unfold View.write
  rw [hplace]
  dsimp only
  rcases Store.isOpen_iff.mp hq.2 with hn | ⟨old, x, hf⟩
  · rw [hn]
    exact ⟨_, rfl, hback false⟩
  · rw [hf]
    exact ⟨_, rfl, hback x⟩

end Files.View

/-- The program as it is run: it writes its answer and ends, or complains if it cannot. -/
def Guest.launch (L : Library) (g : Guest) (l : Launch) (v : Files.View) : Outcome :=
  match g.writes L l with
  | none => ⟨v.store, .code 0, []⟩
  | some (file, text) =>
    match v.write file (Files.View.encode text) with
    | .ok store => ⟨store, .code 0, []⟩
    | .error fault => ⟨v.store, .code 2, Files.View.encode fault.message⟩

/-- Where its answer can be written, the program runs as it should. -/
theorem Guest.ran_launch {L : Library} {g : Guest} {h : Host} {w : World} {q : Files.Place}
    {path directory symbol : String} (hl : ∀ n l v, h.launch n l v = .ok (g.launch L l v))
    (hq : w.view.Offers (Artifact.resultPath h.tempDir (w.nextSuffix h)) q) :
    g.Ran L h path directory symbol w := by
  have hn := Artifact.endsIn_resultPath h.tempDir (w.nextSuffix h)
  generalize hr : Artifact.resultPath h.tempDir (w.nextSuffix h) = result at hn hq
  unfold Ran Act.launch
  rw [hr]
  dsimp only [Act.perform_ofFunction]
  rw [hl]
  refine ⟨_, _, rfl, fun file text hw => ?_⟩
  have hwrites := g.writes_runFor L path directory symbol result
  rw [hw] at hwrites
  split at hwrites
  · cases hwrites
  · cases hwrites
    obtain ⟨s, hs, hread⟩ := hq.write hn (Files.View.encode (L.answer (g.tells L symbol)))
    unfold Guest.launch
    rw [hw]
    dsimp only
    have hwritten : (World.record (.launched (Artifact.runFor path directory symbol result))
        { w with drawn := w.drawn + 1 }).view.write result
          (Files.View.encode (L.answer (g.tells L symbol))) = .ok s := hs
    rw [hwritten]
    exact hread

/-! ## What is reported -/

/-- Whatever a run of an injected program comes to is reported as that: the table is the one
that the program holds, and a call gives the bytes, the error or the panic of the function. -/
theorem the_outcome_of_a_guest_is_reported (L : Library) (g : Guest) (h : Host) (w : World)
    (path directory : String) :
    (g.Ran L h path directory Artifact.tableSymbol w →
      ∃ table, ((Artifact.load path directory).perform h w).1 = .ok ⟨path, directory, table⟩ ∧
        table.Perm g.types) ∧
    ∀ (f : BoundSymbol) (held : Held), g.called? f.name = some held →
      g.Ran L h f.artifact.path f.artifact.directory f.name w →
      (f.call.perform h w).1 = held.reported L f.name := by
  constructor
  · intro hr
    obtain ⟨table, hread, hp⟩ := hr.reading (by decide)
    refine ⟨table.getD [], ?_, hp⟩
    rw [Artifact.result_load, hread]
    rfl
  · intro f held hc hr
    obtain ⟨table, hread, -⟩ := hr.reading (Guest.called?_eq_some hc).1
    rw [BoundSymbol.result_call, hread]
    exact Guest.resultOf_tells hc table

namespace Sample

/-- A program of the shop in which much goes wrong. -/
def guest : Guest where
  held :=
    [("Migrate", .plain (.returned none)),
     ("Describe", .bytes (.returned ([255, 0], none))),
     ("Clear", .plain (.returned (some ""))),
     ("Seed", .bytes (.panicked (some "no <shop> at \"home\""))),
     ("Version", .other "string")]
  distinct := by decide

/-- A host on which every program is the one of the shop. -/
def hosting : Host := { host with launch := fun _ l v => .ok (guest.launch .careful l v) }

theorem ran_hosting (path directory symbol : String) :
    guest.Ran .careful hosting path directory symbol world := by
  have hparts : Path.parts (Artifact.resultPath hosting.tempDir (world.nextSuffix hosting)) =
      ["tmp", "gyv-inject-result-1000-7-0.json"] := by decide
  have habsolute :
      Path.isAbsolute (Artifact.resultPath hosting.tempDir (world.nextSuffix hosting)) = true := by
    decide
  have hq : world.view.Has (Artifact.resultPath hosting.tempDir (world.nextSuffix hosting))
      ["tmp", "gyv-inject-result-1000-7-0.json"] none := by
    have hnone : world.view.store.at? ["tmp", "gyv-inject-result-1000-7-0.json"] = none := by
      decide
    exact ⟨Files.View.leads_of_parts (Artifact.endsIn_resultPath _ _) habsolute hparts (by decide)
      (by decide) (Files.Store.isOpen_iff.mpr (.inl hnone)), hnone⟩
  exact Guest.ran_launch (fun _ _ _ => rfl) hq.offers

def shopArtifact : Artifact := ⟨"/tmp/gyv-code-injection-1000-7-0", "/shop", []⟩

theorem the_outcomes_of_the_guest_of_the_shop_are_reported :
    (∃ table, ((Artifact.load shopArtifact.path shopArtifact.directory).perform hosting world).1 =
        .ok ⟨shopArtifact.path, shopArtifact.directory, table⟩ ∧
      table.Perm [("Migrate", "func() error"), ("Describe", "func() ([]uint8, error)"),
        ("Clear", "func() error"), ("Seed", "func() ([]uint8, error)"), ("Version", "string")]) ∧
    ((BoundSymbol.call ⟨shopArtifact, "Migrate", .nothing⟩).perform hosting world).1 = .ok [] ∧
    ((BoundSymbol.call ⟨shopArtifact, "Describe", .bytes⟩).perform hosting world).1 =
      .ok [255, 0] ∧
    ((BoundSymbol.call ⟨shopArtifact, "Clear", .nothing⟩).perform hosting world).1 =
      .error (.returned "Clear" "") ∧
    ((BoundSymbol.call ⟨shopArtifact, "Seed", .bytes⟩).perform hosting world).1 =
      .error (.returned "Seed" "panic: no <shop> at \"home\"") := by
  obtain ⟨hload, hcall⟩ := the_outcome_of_a_guest_is_reported .careful guest hosting world
    shopArtifact.path shopArtifact.directory
  refine ⟨hload (ran_hosting _ _ _), ?_, ?_, ?_, ?_⟩
  · exact hcall ⟨shopArtifact, "Migrate", .nothing⟩ _ (by rfl) (ran_hosting _ _ _)
  · exact hcall ⟨shopArtifact, "Describe", .bytes⟩ _ (by rfl) (ran_hosting _ _ _)
  · exact hcall ⟨shopArtifact, "Clear", .nothing⟩ _ (by rfl) (ran_hosting _ _ _)
  · exact hcall ⟨shopArtifact, "Seed", .bytes⟩ _ (by rfl) (ran_hosting _ _ _)

end Sample
end Graft
