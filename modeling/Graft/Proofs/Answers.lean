-- What a run of the artifact comes to, from what the artifact answers: how it
-- ended, and the text that it left. Nothing else decides whether an artifact
-- can be loaded or what a call of a symbol gives, least of all whether the
-- file of the answer can be removed.
import Graft.Proofs.Deeds

namespace Graft

open Act

namespace Artifact

variable (h : Host) (path directory symbol : String) (w : World)

/-- What the artifact answers when it runs for a symbol: how it ended, and the text of its
answer if it gave one. -/
def answer : Except Files.Fault (Exit × Option String) :=
  let result := resultPath h.tempDir (w.nextSuffix h)
  match (launch (runFor path directory symbol result)).perform h
    { w with drawn := w.drawn + 1 } with
  | (.error fault, _) => .error fault
  | (.ok outcome, u) => .ok (outcome.exit, (u.view.readText result).toOption)

/-- Where no program can be run, the artifact does not answer. -/
theorem answer_of_fault {h : Host} {path directory symbol : String} {w : World}
    {fault : Files.Fault} (hl : ∀ n l v, h.launch n l v = .error fault) :
    answer h path directory symbol w = .error fault := by
  unfold answer launch
  dsimp only [perform_ofFunction]
  rw [hl]

/-- What is made of an answer for a symbol. -/
def reading (h : Host) (symbol : String) : Except Files.Fault (Exit × Option String) →
    Except SymbolError Envelope
  | .error fault => .error (.invocation symbol fault.message)
  | .ok (exit, none) =>
    .error (.invocation symbol ("exited (" ++ exit.message ++ ") without reporting a result"))
  | .ok (_, some text) =>
    match Envelope.parse text with
    | some e => .ok e
    | none => .error (.invocation symbol ("malformed result: " ++ h.answerFault text))

theorem result_execute :
    ((execute path directory symbol).perform h w).1 =
      reading h symbol (answer h path directory symbol w) := by
  unfold execute answer
  rw [perform_bind_of_ok (perform_read _ _), perform_bind_of_ok (perform_drawSuffix _ _),
    perform_bind, perform_mapError]
  dsimp only
  rcases (launch (runFor path directory symbol (resultPath h.tempDir (w.nextSuffix h)))).perform h
    { w with drawn := w.drawn + 1 } with ⟨fault | outcome, u⟩
  · rfl
  · dsimp only [Except.mapError]
    rw [perform_bind_of_ok (perform_view _ _)]
    cases u.view.readText (resultPath h.tempDir (w.nextSuffix h)) with
    | error fault => rfl
    | ok text =>
      dsimp only [Except.toOption, reading]
      rw [perform_bind_of_ok (Prod.ext (perform_removeOrWarn h u _ _).1 rfl)]
      cases Envelope.parse text <;> rfl

theorem result_load :
    ((load path directory).perform h w).1 =
      (loaded path (reading h tableSymbol (answer h path directory tableSymbol w))).map
        fun symbols => ⟨path, directory, symbols⟩ := by
  rw [perform_load, result_execute]
  cases loaded path (reading h tableSymbol (answer h path directory tableSymbol w)) <;> rfl

end Artifact

theorem BoundSymbol.result_call (h : Host) (f : BoundSymbol) (w : World) :
    (f.call.perform h w).1 =
      (Artifact.reading h f.name
        (Artifact.answer h f.artifact.path f.artifact.directory f.name w)).bind
          (resultOf f.name) := by
  have he := Artifact.result_execute h f.artifact.path f.artifact.directory f.name w
  unfold call
  rw [perform_bind, ← he]
  rcases (Artifact.execute f.artifact.path f.artifact.directory f.name).perform h w with
    ⟨e | e, u⟩ <;> rfl

end Graft
