-- What a failed run of the build tool reports. What the tool complained about
-- is read line by line, and each line is kept with one line feed at its end.
-- No character is read across a line feed, so the lines together are the whole
-- stream as it is read at once, with the line feed that it may lack at its end.
import Graft.Proofs.LossyTexts
import Graft.Proofs.Runs

namespace Graft

open Files

namespace Toolchain

variable {line more : List UInt8}

/-! ## Lines -/

/-- A line ends with its line feed. -/
theorem streamLines_line (h : 10 ∉ line) :
    streamLines (line ++ 10 :: more) = (line ++ [10]) :: streamLines more := by
  induction line with
  | nil => rfl
  | cons b line ih =>
    rw [List.mem_cons, not_or] at h
    obtain ⟨hb, hline⟩ := h
    rw [List.cons_append, streamLines, if_neg (Ne.symm hb), ih hline]
    rfl

/-- What stands behind the last line feed is a line, if it is something. -/
theorem streamLines_last (h : 10 ∉ line) (hne : line ≠ []) : streamLines line = [line] := by
  induction line with
  | nil => exact absurd rfl hne
  | cons b line ih =>
    rw [List.mem_cons, not_or] at h
    obtain ⟨hb, hline⟩ := h
    rw [streamLines, if_neg (Ne.symm hb)]
    cases line with
    | nil => rfl
    | cons b' line => rw [ih hline (List.cons_ne_nil _ _)]

theorem keptLine_line (line : List UInt8) :
    keptLine (line ++ [10]) = Text.decodeLossy line ++ ['\n'] := by
  have hread : Text.decodeLossy (line ++ [10]) = Text.decodeLossy line ++ ['\n'] := by
    rw [Text.decodeLossy_append_lineFeed, Text.decodeLossy]
  unfold keptLine
  rw [hread]
  simp

theorem keptLine_last (h : 10 ∉ line) : keptLine line = Text.decodeLossy line ++ ['\n'] := by
  have hend : (Text.decodeLossy line).getLast? ≠ some '\n' := fun hlast =>
    h ((Text.decodes_decodeLossy line).mem_of_lineFeed (List.mem_of_getLast? hlast))
  unfold keptLine
  dsimp only
  rw [if_neg hend]

/-! ## Whole streams -/

/-- The line feed that a stream lacks at its end. An empty stream lacks none. -/
def missingEnd (stream : List UInt8) : List Char :=
  if stream = [] ∨ stream.getLast? = some 10 then [] else ['\n']

theorem missingEnd_append (line more : List UInt8) :
    missingEnd (line ++ 10 :: more) = missingEnd more := by
  unfold missingEnd
  cases more with
  | nil => simp
  | cons b more => simp [List.getLast?_append, List.getLast?_cons_cons]

/-- The lines that are kept are the whole stream. The induction goes from line to line. -/
theorem flatMap_keptLine (stream : List UInt8) :
    (streamLines stream).flatMap keptLine = Text.decodeLossy stream ++ missingEnd stream := by
  by_cases hfeed : 10 ∈ stream
  · obtain ⟨line, more, rfl, hline⟩ := List.eq_append_cons_of_mem hfeed
    have ih := flatMap_keptLine more
    rw [streamLines_line hline, List.flatMap_cons, keptLine_line, ih,
      Text.decodeLossy_append_lineFeed, missingEnd_append, List.append_assoc, List.append_assoc]
    rfl
  · by_cases hne : stream = []
    · subst hne
      rw [Text.decodeLossy]
      rfl
    · have hend : stream.getLast? ≠ some 10 := fun hlast => hfeed (List.mem_of_getLast? hlast)
      rw [streamLines_last hfeed hne, List.flatMap_singleton, keptLine_last hfeed, missingEnd,
        if_neg (not_or.mpr ⟨hne, hend⟩)]
termination_by stream.length

theorem kept_eq (stream : List UInt8) :
    kept stream = String.ofList (Text.decodeLossy stream ++ missingEnd stream) :=
  congrArg String.ofList (flatMap_keptLine stream)

/-! ## Runs -/

variable {t : Toolchain} {directory program : String} {arguments : List String} {h : Host}
  {w u : World} {outcome : Outcome}

theorem perform_run (hfound : findProgram h.searchPath w.view t.binary = some program)
    (hran : (Act.launch ⟨program, arguments, directory, []⟩).perform h w = (.ok outcome, u)) :
    ((t.run directory arguments).perform h w).1 =
      if outcome.exit.isSuccess then .ok ()
      else .error (.failed (t.binary ++ " " ++ spaced arguments) outcome.exit
        (kept outcome.complaint)) := by
  unfold run
  rw [Act.perform_bind_of_ok (Act.perform_read h w),
    Act.perform_bind_of_ok (Act.perform_view h w), hfound]
  dsimp only
  rw [Act.perform_bind, Act.perform_mapError, hran]
  dsimp only [Except.mapError]
  split <;> rfl

end Toolchain

/-- A run of the build tool that is read to its end succeeds exactly if the tool says so. If it does
not, the whole complaint is reported: the characters that the bytes are read as, in the one way in
which they can be, and a line feed if there are bytes and they do not end with one. A text is read
as it is. -/
theorem a_failed_run_reports_the_whole_complaint {t : Toolchain} {directory program : String}
    {arguments : List String} {h : Host} {w u : World} {outcome : Outcome}
    (hfound : Toolchain.findProgram h.searchPath w.view t.binary = some program)
    (hran : (Act.launch ⟨program, arguments, directory, []⟩).perform h w = (.ok outcome, u)) :
    ∃ cs, Text.Decodes outcome.complaint cs ∧
      (∀ ds, Text.Decodes outcome.complaint ds → ds = cs) ∧
      (∀ text, outcome.complaint = View.encode text → cs = text.toList) ∧
      (((t.run directory arguments).perform h w).1 = .ok () ↔ outcome.exit = .code 0) ∧
      (outcome.exit ≠ .code 0 → ((t.run directory arguments).perform h w).1 =
        .error (.failed (t.binary ++ " " ++ Toolchain.spaced arguments) outcome.exit
          (String.ofList (cs ++
            if outcome.complaint = [] ∨ outcome.complaint.getLast? = some 10 then []
            else ['\n'])))) := by
  have hread := Text.decodes_decodeLossy outcome.complaint
  refine ⟨_, hread, fun ds hds => hds.unique hread, fun text htext => ?_, ?_⟩
  · rw [← String.ofList_toList (s := text), View.encode_ofList] at htext
    rw [htext] at hread ⊢
    exact hread.unique (Text.decodes_encoded text.toList)
  have hsuccess : outcome.exit.isSuccess = true ↔ outcome.exit = .code 0 := by
    cases outcome.exit <;> simp [Exit.isSuccess]
  rw [Toolchain.perform_run hfound hran, Toolchain.kept_eq, ← hsuccess]
  constructor
  · split <;> simp [*]
  · intro hfailed
    rw [if_neg (mt hsuccess.mp hfailed)]
    rfl

namespace Sample

/-- A build tool that complains in bytes that are no text, and ends amid a character. -/
def grumble : List UInt8 := [0x63, 0x61, 0x66, 0xE9, 0x2F, 0x0A, 0xE2, 0x82]

def grumbling : Host := { host with launch := fun _ _ v => .ok ⟨v.store, .code 1, grumble⟩ }

/-- The shop with a build tool. -/
def equipped : World :=
  { world with store := ⟨(["go"], .file [] true) :: world.store.entries⟩ }

theorem findProgram_equipped :
    Toolchain.findProgram grumbling.searchPath equipped.view "/go" = some "/go" := by
  have hparts : Path.parts "/go" = ["go"] := by decide
  have habsolute : Path.isAbsolute "/go" = true := by decide
  have hplace : equipped.view.store.place equipped.view.cwd true "/go" = .ok ["go"] := by
    rw [Store.place_eq_walk (by decide) (by decide), hparts, habsolute]
    simp [Store.walk, Store.at?, World.view, equipped, world, sums]
  have hfind : equipped.view.find "/go" = .ok (.file [] true) := by
    unfold View.find
    rw [hplace]
    rfl
  have hpath : Path.join (Place.path equipped.view.cwd) "/go" = "/go" := by decide +kernel
  unfold Toolchain.findProgram Toolchain.canRun
  dsimp only
  rw [hpath, hfind, if_neg (by decide), if_pos (by decide)]
  rfl

theorem the_complaint_of_the_tool_of_the_shop_is_reported :
    Toolchain.findProgram grumbling.searchPath equipped.view "/go" = some "/go" ∧
      (∃ u, (Act.launch ⟨"/go", ["mod", "tidy"], "/shop", []⟩).perform grumbling equipped =
        (.ok ⟨equipped.store, .code 1, grumble⟩, u)) ∧
      ((Toolchain.run ⟨"/go", ""⟩ "/shop" ["mod", "tidy"]).perform grumbling equipped).1 =
        .error (.failed "/go mod tidy" (.code 1) "caf\uFFFD/\n\uFFFD\n") := by
  have hran : ∃ u, (Act.launch ⟨"/go", ["mod", "tidy"], "/shop", []⟩).perform grumbling equipped =
      (.ok ⟨equipped.store, .code 1, grumble⟩, u) := ⟨_, rfl⟩
  refine ⟨findProgram_equipped, hran, ?_⟩
  obtain ⟨u, hran⟩ := hran
  obtain ⟨cs, hcs, -, -, -, hfailed⟩ :=
    a_failed_run_reports_the_whole_complaint (t := ⟨"/go", ""⟩) findProgram_equipped hran
  have hread : cs = "caf\uFFFD/\n\uFFFD".toList := by
    rw [hcs.unique (Text.decodes_decodeLossy _)]
    decide +kernel
  rw [hfailed (by decide), hread]
  rfl

end Sample
end Graft
