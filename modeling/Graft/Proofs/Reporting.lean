-- Steps that only look around and report. They say something in the journal
-- and leave everything else as it is. So do the search for settings, the
-- search for the routes and what plans a task without routes.
import Graft.Proofs.Steps
import Graft.Task

namespace Graft

open Act

/-- From the first world to the second, only reports were made. -/
def World.Reported (w u : World) : Prop :=
  ∃ reports : List (Level × String), u =
    { w with journal := w.journal ++ reports.map fun r => ⟨.said r.1 r.2, w.context, w.store⟩ }

namespace World.Reported

variable {w u z : World}

theorem refl (w : World) : w.Reported w := ⟨[], by simp⟩

theorem trans (hu : w.Reported u) (hz : u.Reported z) : w.Reported z := by
  obtain ⟨reports, rfl⟩ := hu
  obtain ⟨more, rfl⟩ := hz
  exact ⟨reports ++ more, by simp⟩

theorem said (w : World) (level : Level) (text : String) :
    w.Reported (w.record (.said level text)) := ⟨[(level, text)], rfl⟩

theorem view (hu : w.Reported u) : u.view = w.view := by
  obtain ⟨reports, rfl⟩ := hu
  rfl

theorem goBinary (hu : w.Reported u) : u.goBinary = w.goBinary := by
  obtain ⟨reports, rfl⟩ := hu
  rfl

end World.Reported

namespace Act

variable {ε ε' α β : Type} {a : Act ε α} {f : α → Act ε β}

/-- Whatever the step comes to, it only reports. -/
def OnlyReports (a : Act ε α) : Prop := ∀ h w, World.Reported w (a.perform h w).2

theorem onlyReports_pure (x : α) : (pure x : Act ε α).OnlyReports := fun _ w => .refl w

theorem onlyReports_read : (read : Act ε Host).OnlyReports := fun _ w => .refl w

theorem onlyReports_view : (view : Act ε Files.View).OnlyReports := fun _ w => .refl w

theorem onlyReports_ofExcept (r : Except ε α) : (ofExcept r).OnlyReports := fun _ w => .refl w

theorem onlyReports_info (text : String) : (info text : Act ε Unit).OnlyReports :=
  fun _ w => .said w .info text

theorem onlyReports_warn (text : String) : (warn text : Act ε Unit).OnlyReports :=
  fun _ w => .said w .warning text

theorem OnlyReports.bind (ha : a.OnlyReports) (hf : ∀ x, (f x).OnlyReports) :
    (a >>= f).OnlyReports :=
  fun h w => relates_bind (R := World.Reported) h w World.Reported.trans ha hf

theorem OnlyReports.mapError (ha : a.OnlyReports) (g : ε → ε') : (mapError g a).OnlyReports :=
  fun h w => ha h w

end Act

/-! ## What only reports -/

namespace Config

variable {ε : Type}

theorem onlyReports_readFile? (path : String) :
    (readFile? path : Act ε (Option Config)).OnlyReports := by
  refine onlyReports_view.bind fun v => ?_
  split
  · exact onlyReports_pure _
  · exact (onlyReports_warn _).bind fun _ => onlyReports_pure _
  · split
    · exact onlyReports_pure _
    · refine onlyReports_read.bind fun h => ?_
      exact (onlyReports_warn _).bind fun _ => onlyReports_pure _

theorem onlyReports_firstIn (dirs : List String) :
    (firstIn dirs : Act ε (Option Config)).OnlyReports := by
  induction dirs with
  | nil => exact onlyReports_pure _
  | cons dir dirs ih =>
    refine (onlyReports_readFile? _).bind ?_
    intro found
    cases found with
    | none => exact ih
    | some c => exact onlyReports_pure _

theorem onlyReports_search (start : String) : (search start : Act ε Config).OnlyReports :=
  (onlyReports_firstIn _).bind fun _ _ w => .refl w

end Config

theorem Resolve.onlyReports_routeRegistrer (directory importPath : String) :
    (Resolve.routeRegistrer directory importPath).OnlyReports := by
  refine onlyReports_view.bind fun v => ?_
  dsimp only
  split
  · exact onlyReports_ofExcept _
  · exact onlyReports_ofExcept _
  · split
    · exact (onlyReports_warn _).bind fun _ => onlyReports_ofExcept _
    · exact onlyReports_ofExcept _

/-- The description of the routes is the only task whose planning enters a phase. -/
theorem Task.onlyReports_plan (p : Project) {t : Task} (ht : t ≠ .openapi) :
    (t.plan p).OnlyReports := by
  cases t with
  | migrate => exact onlyReports_ofExcept _
  | clear => exact onlyReports_ofExcept _
  | seed seeders =>
    unfold plan
    dsimp only
    split
    · refine (onlyReports_info _).bind fun _ => ?_
      exact onlyReports_view.bind fun _ => onlyReports_ofExcept _
    · exact onlyReports_view.bind fun _ => onlyReports_ofExcept _
  | openapi => exact absurd rfl ht

theorem Injection.onlyReports_warnLater (paths : List String) : (warnLater paths).OnlyReports := by
  induction paths with
  | nil => exact onlyReports_pure _
  | cons path more ih => exact (onlyReports_warn _).bind fun _ => ih

end Graft
