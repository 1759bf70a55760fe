-- Scripts that change no file. A command is quiet if it sends nothing into a
-- file and runs, under a name that is written plainly, none of the commands
-- that change files. Whatever quiet commands say, loop over and decide, the
-- tree stays as it was.
import Graft.Rehearsal.Shell

namespace Graft.Rehearsal

/-! ## Quiet commands -/

/-- The commands that change files. -/
def writers : List String := ["rm", "mkdir", "ln", "chmod", "rmdir", "mv", "touch", "cp"]

/-- The word stands for its own letters. -/
def isPlain (w : Word) : Bool := isBare w && !w.isEmpty && !w.contains (.plain '*') &&
  !w.contains (.plain '?')

/-- The words behind the assignments in front. -/
def behindAssignments (words : List Word) : List Word :=
  words.dropWhile fun w => (Shell.assignment? w).isSome

/-- The words only assign, or run a command that changes no file. -/
def areQuiet (words : List Word) : Bool :=
  match behindAssignments words with
  | [] => true
  | w :: _ =>
    isPlain w && bareText w != "exec" && !writers.contains (Shell.commandName (bareText w))

/-- The redirection opens no file. -/
def Redirection.isQuiet : Redirection → Bool
  | .like _ _ => true
  | .into _ _ _ => false

mutual
/-- The command changes no file, whichever way it goes. -/
def Command.isQuiet : Command → Bool
  | .simple words redirections => areQuiet words && redirections.all Redirection.isQuiet
  | .forEach _ _ body => allQuiet body
  | .repeatWhile condition body => allQuiet condition && allQuiet body
  | .ifThen condition yes no => allQuiet condition && allQuiet yes && allQuiet no
  | .choose _ branches => branchesQuiet branches
  | .group body redirections => allQuiet body && redirections.all Redirection.isQuiet
  | .negated c => c.isQuiet
  | .andThen first second => first.isQuiet && second.isQuiet
  | .orElse first second => first.isQuiet && second.isQuiet

def allQuiet : List Command → Bool
  | [] => true
  | c :: cs => c.isQuiet && allQuiet cs

def branchesQuiet : List (List Word × List Command) → Bool
  | [] => true
  | b :: bs => allQuiet b.2 && branchesQuiet bs
end

theorem allQuiet_of_mem {branches : List (List Word × List Command)}
    (h : branchesQuiet branches = true) {b : List Word × List Command} (hb : b ∈ branches) :
    allQuiet b.2 = true := by
  induction branches with
  | nil => cases hb
  | cons x xs ih =>
    rw [branchesQuiet, Bool.and_eq_true] at h
    rcases List.mem_cons.mp hb with rfl | hb
    · exact h.1
    · exact ih h.2 hb

namespace Shell

/-! ## The field of a plain word -/

theorem eq_of_isBare {w : Word} (hw : isBare w = true) :
    w = (bareText w).toList.map Piece.plain := by
  unfold bareText
  rw [String.toList_ofList]
  induction w with
  | nil => rfl
  | cons p ps ih =>
    rw [isBare, List.all_cons, Bool.and_eq_true] at hw
    match p with
    | .plain c => simpa using ih hw.2
    | .quoted cs => simp at hw
    | .variable name inQuotes => simp at hw

theorem foldl_addPiece (sh : Shell) (cs : List Char) (closed : List (List Mark)) (ms : List Mark) :
    (cs.map Piece.plain).foldl sh.addPiece ⟨closed, some ms⟩ =
      ⟨closed, some (ms ++ cs.map fun c => (c, true))⟩ := by
  induction cs generalizing ms with
  | nil => simp
  | cons c cs ih =>
    rw [List.map_cons, List.foldl_cons]
    have hadd : sh.addPiece ⟨closed, some ms⟩ (.plain c) = ⟨closed, some (ms ++ [(c, true)])⟩ := rfl
    rw [hadd, ih, List.map_cons, List.append_assoc, List.singleton_append]

/-- A plain word is one field, whatever the variables hold and whatever files there are. -/
theorem fields_of_isPlain (sh : Shell) {w : Word} (hw : isPlain w = true) :
    sh.fields w = [bareText w] := by
  simp only [isPlain, Bool.and_eq_true, Bool.not_eq_true', List.contains_eq_mem,
    decide_eq_false_iff_not] at hw
  obtain ⟨⟨⟨hbare, hne⟩, hstar⟩, hmark⟩ := hw
  have hpieces := eq_of_isBare hbare
  cases hcs : (bareText w).toList with
  | nil =>
    rw [hcs] at hpieces
    rw [hpieces] at hne
    cases hne
  | cons c cs =>
    rw [hcs] at hpieces
    have hplain : ¬ isPattern ((c :: cs).map fun c => (c, true)) := by
      intro hp
      obtain ⟨m, hm, hwild⟩ := List.any_eq_true.mp hp
      obtain ⟨d, hd, rfl⟩ := List.mem_map.mp hm
      have hd' : Piece.plain d ∈ w := hpieces ▸ List.mem_map_of_mem hd
      simp only [Bool.true_and, Bool.or_eq_true, beq_iff_eq] at hwild
      rcases hwild with rfl | rfl
      · exact hstar hd'
      · exact hmark hd'
    have hfields : sh.fields w = sh.expand ((c :: cs).map fun c => (c, true)) := by
      unfold fields
      rw [hpieces, List.map_cons, List.foldl_cons]
      have hadd : sh.addPiece .start (.plain c) = ⟨[], some [(c, true)]⟩ := rfl
      rw [hadd, foldl_addPiece]
      simp [Fields.close]
    rw [hfields, expand, if_neg hplain]
    have hletters : letters ((c :: cs).map fun c => (c, true)) = c :: cs := by
      simp [letters, Function.comp_def]
    rw [hletters, ← hcs, String.ofList_toList]

/-! ## What known commands leave alone -/

theorem store_foldl {α : Type} {f : Shell → α → Shell}
    (hf : ∀ sh x, (f sh x).view.store = sh.view.store) (xs : List α) (sh : Shell) :
    (xs.foldl f sh).view.store = sh.view.store := by
  induction xs generalizing sh with
  | nil => rfl
  | cons x xs ih => exact (ih (f sh x)).trans (hf sh x)

/-- A command that is no writer leaves the tree as it is. -/
theorem store_runKnown (sh : Shell) {name : String} (hname : writers.contains name = false)
    (words : List String) : (sh.runKnown name words).view.store = sh.view.store := by
  unfold runKnown
  -- Most commands only speak, and the writers are excluded.
  split <;> try first | rfl | cases hname
  · split <;> rfl
  · split <;> rfl
  · split
    · split <;> rfl
    · rfl
  · refine store_foldl (fun sh path => ?_) _ _
    split <;> rfl

/-! ## Redirections into no file -/

theorem foldl_openFile {redirections : List Redirection}
    (h : redirections.all Redirection.isQuiet = true) (sh : Shell) :
    redirections.foldl openFile sh = sh := by
  induction redirections with
  | nil => rfl
  | cons r rs ih =>
    rw [List.all_cons, Bool.and_eq_true] at h
    cases r with
    | into stream append file => cases h.1
    | like stream other => exact ih h.2

/-- The stream goes where the script itself speaks. -/
def Sink.IsOwn : Sink → Prop
  | .file _ => False
  | _ => True

theorem isOwn_redirect {redirections : List Redirection}
    (h : redirections.all Redirection.isQuiet = true) (sh : Shell) (sinks : Sink × Sink)
    (hs : sinks.1.IsOwn ∧ sinks.2.IsOwn) :
    (redirections.foldl sh.redirect sinks).1.IsOwn ∧
      (redirections.foldl sh.redirect sinks).2.IsOwn := by
  induction redirections generalizing sinks with
  | nil => exact hs
  | cons r rs ih =>
    rw [List.all_cons, Bool.and_eq_true] at h
    cases r with
    | into stream append file => cases h.1
    | like stream other =>
      refine ih h.2 _ ?_
      dsimp only [redirect]
      have htarget : (if other == 2 then sinks.2 else sinks.1).IsOwn := by
        split
        · exact hs.2
        · exact hs.1
      split
      · exact ⟨hs.1, htarget⟩
      · exact ⟨htarget, hs.2⟩

theorem store_send {sink : Sink} (h : sink.IsOwn) (bytes : List UInt8) (sh : Shell) :
    (send bytes sh sink).view.store = sh.view.store := by
  cases sink with
  | output => rfl
  | complaint => rfl
  | file path => cases h

theorem store_redirected {redirections : List Redirection}
    (h : redirections.all Redirection.isQuiet = true) {f : Shell → Shell}
    (hf : ∀ sh, (f sh).view.store = sh.view.store) (sh : Shell) :
    (sh.redirected redirections f).view.store = sh.view.store := by
  obtain ⟨hout, hcomplaint⟩ :=
    isOwn_redirect h sh (.output, .complaint) ⟨trivial, trivial⟩
  unfold redirected
  rw [foldl_openFile h]
  dsimp only
  rw [store_send hcomplaint, store_send hout]
  exact hf _

/-! ## What quiet commands leave alone -/

theorem assignAll_spec (sh : Shell) (words : List Word) :
    (sh.assignAll words).1.view = sh.view ∧
      (sh.assignAll words).2 = behindAssignments words := by
  induction words generalizing sh with
  | nil => exact ⟨rfl, rfl⟩
  | cons w ws ih =>
    unfold assignAll behindAssignments
    cases ha : assignment? w with
    | none => simp [ha]
    | some a =>
      rw [List.dropWhile_cons_of_pos (by simp [ha])]
      exact ih _

theorem store_runSimple (sh : Shell) {words : List Word} {redirections : List Redirection}
    (hw : areQuiet words = true) (hr : redirections.all Redirection.isQuiet = true) :
    (sh.runSimple words redirections).view.store = sh.view.store := by
  obtain ⟨hview, hrest⟩ := sh.assignAll_spec words
  unfold runSimple
  dsimp only
  rw [hrest, ← congrArg Files.View.store hview]
  refine store_redirected hr (fun opened => ?_) _
  unfold areQuiet at hw
  cases hwords : behindAssignments words with
  | nil => rfl
  | cons w ws =>
    rw [hwords] at hw
    simp only [Bool.and_eq_true, bne_iff_ne, ne_eq, Bool.not_eq_true'] at hw
    obtain ⟨⟨hplain, hexec⟩, hname⟩ := hw
    rw [List.flatMap_cons, fields_of_isPlain _ hplain]
    simp only [List.singleton_append, List.head?_cons]
    have hkeeps : (some (bareText w) == some "exec") = false := by simpa using hexec
    simp only [hkeeps, Bool.false_and, Bool.false_eq_true, if_false]
    exact store_runKnown opened hname _

/-- What the commands of a script do to the tree, for all that the depth can hold. -/
structure KeepStore (n : Nat) : Prop where
  command : ∀ sh c, c.isQuiet = true → (runCommand n sh c).view.store = sh.view.store
  all : ∀ sh cs, allQuiet cs = true → (runAll n sh cs).view.store = sh.view.store
  repeated : ∀ condition body sh, allQuiet condition = true → allQuiet body = true →
    (runWhile n condition body sh).view.store = sh.view.store
  loop : ∀ name body sh items, allQuiet body = true →
    (runLoop n name body sh items).view.store = sh.view.store

theorem KeepStore.command_succ {n : Nat} (h : KeepStore n) (sh : Shell) (c : Command)
    (hc : c.isQuiet = true) : (runCommand (n + 1) sh c).view.store = sh.view.store := by
  unfold runCommand
  split
  · rfl
  cases c with
  | simple words redirections =>
    rw [Command.isQuiet, Bool.and_eq_true] at hc
    exact store_runSimple sh hc.1 hc.2
  | forEach name items body =>
    rw [Command.isQuiet] at hc
    exact h.loop name body sh _ hc
  | repeatWhile condition body =>
    rw [Command.isQuiet, Bool.and_eq_true] at hc
    exact h.repeated condition body sh hc.1 hc.2
  | ifThen condition yes no =>
    rw [Command.isQuiet, Bool.and_eq_true, Bool.and_eq_true] at hc
    obtain ⟨⟨hcondition, hyes⟩, hno⟩ := hc
    dsimp only
    split
    · exact (h.all _ yes hyes).trans (h.all sh condition hcondition)
    · exact (h.all _ no hno).trans (h.all sh condition hcondition)
  | choose subject branches =>
    rw [Command.isQuiet] at hc
    dsimp only
    split
    · rename_i b hb
      exact h.all _ b.2 (allQuiet_of_mem hc (List.mem_of_find?_eq_some hb))
    · rfl
  | group body redirections =>
    rw [Command.isQuiet, Bool.and_eq_true] at hc
    exact store_redirected hc.2 (fun inner => h.all inner body hc.1) sh
  | negated c =>
    rw [Command.isQuiet] at hc
    dsimp only
    split
    · exact h.command sh c hc
    · exact h.command sh c hc
  | andThen a b =>
    rw [Command.isQuiet, Bool.and_eq_true] at hc
    dsimp only
    split
    · exact (h.command _ b hc.2).trans (h.command sh a hc.1)
    · exact h.command sh a hc.1
  | orElse a b =>
    rw [Command.isQuiet, Bool.and_eq_true] at hc
    dsimp only
    split
    · exact h.command sh a hc.1
    · exact (h.command _ b hc.2).trans (h.command sh a hc.1)

/-- Quiet commands leave the tree as it is, however deep they are nested and however often
their loops go round. -/
theorem keepStore (n : Nat) : KeepStore n := by
  induction n with
  | zero => exact ⟨fun _ _ _ => rfl, fun _ _ _ => rfl, fun _ _ _ _ _ => rfl, fun _ _ _ _ _ => rfl⟩
  | succ n ih =>
    refine ⟨ih.command_succ, ?_, ?_, ?_⟩
    · intro sh cs hcs
      cases cs with
      | nil => rfl
      | cons c cs =>
        rw [allQuiet, Bool.and_eq_true] at hcs
        exact (ih.all _ cs hcs.2).trans (ih.command sh c hcs.1)
    · intro condition body sh hcondition hbody
      have hasked := ih.all sh condition hcondition
      unfold runWhile
      dsimp only
      split
      · exact hasked
      · split
        · exact (ih.repeated _ _ _ hcondition hbody).trans ((ih.all _ body hbody).trans hasked)
        · exact hasked
    · intro name body sh items hbody
      cases items with
      | nil => rfl
      | cons item items =>
        exact (ih.loop name body _ items hbody).trans (ih.all _ body hbody)

end Shell

/-- A script of quiet commands leaves every file as it is. -/
theorem store_runScript (v : Files.View) (arguments : List String)
    (environment : List (String × String)) {text : List Char}
    (h : allQuiet (commandsOf text) = true) :
    (runScript v arguments environment text).view.store = v.store :=
  (Shell.keepStore _).all _ _ h

end Graft.Rehearsal
