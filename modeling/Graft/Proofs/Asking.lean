-- What a run asks of the build tool, in which order, and whether the injected
-- file is there when it asks. The journal of the world tells the same story
-- as the deeds of the run.
import Graft.Proofs.Runs

namespace Graft

open Act Deed Files Injection

/-! ## What the journal tells -/

/-- The build tool does not write to the journal that it was asked for something. That is
left to the run. -/
def BuildTool.IsQuiet (tool : BuildTool) : Prop :=
  ∀ directory c h w, ((tool.ask directory c).perform h w).2.asks = w.asks

/-- A program that is run as the build tool is quiet. -/
theorem Toolchain.isQuiet_tool (t : Toolchain) : t.tool.IsQuiet := by
  intro directory c h w
  unfold tool run
  rw [perform_bind_of_ok (perform_read _ _), perform_bind_of_ok (perform_view _ _)]
  split
  · rfl
  · rename_i program _
    have hl := asks_launch h w ⟨program, t.arguments c, directory, []⟩
    rw [perform_bind, perform_mapError]
    generalize (launch ⟨program, t.arguments c, directory, []⟩).perform h w = z at hl ⊢
    rcases z with ⟨fault | outcome, u⟩
    · exact hl
    · dsimp only [Except.mapError]
      split <;> exact hl

namespace Deed

/-- The moment of the journal in which the build tool was asked for the deed. -/
def moment? (d : Deed) : Option Moment :=
  d.call?.map fun c => ⟨.asked c, d.before.context, d.before.store⟩

/-- The journal tells of the deed if the build tool was asked for it, and of nothing else. -/
def IsTold (d : Deed) : Prop := d.after.asks = d.before.asks ++ d.moment?.toList

/-- The journal tells of a chain of deeds what it tells of each of them. -/
theorem Chain.asks {w u : World} {ds : List Deed} (hc : Chain w ds u)
    (ht : ∀ d ∈ ds, d.IsTold) : u.asks = w.asks ++ ds.filterMap moment? := by
  induction hc with
  | done ha => rw [ha.asks, List.filterMap_nil, List.append_nil]
  | @next d ds w u hd _ ih =>
    have hfirst : d.after.asks = d.before.asks ++ d.moment?.toList := ht d List.mem_cons_self
    rw [ih fun e he => ht e (List.mem_cons_of_mem _ he), hfirst, hd.asks, List.append_assoc]
    cases hm : d.moment? <;> simp [hm]

end Deed

/-! ## Dependencies in their order -/

namespace Run

variable (r : Run)

/-- The deed of tidying, if a dependency was to be added. -/
def tidies : List Deed :=
  if !r.missing.isEmpty then
    [asked r.tool r.project.directory .tidy r.host
      (cleared r.file r.host (r.built.2.entered .cleanup))]
  else []

theorem cleanUpDeeds_eq :
    r.cleanUpDeeds = removed r.file r.host (r.built.2.entered .cleanup) :: r.tidies := rfl

theorem exists_asked_of_mem_tidies {r : Run} {d : Deed} (hd : d ∈ r.tidies) :
    d = asked r.tool r.project.directory .tidy r.host
      (cleared r.file r.host (r.built.2.entered .cleanup)) := by
  unfold tidies at hd
  split at hd
  · exact List.mem_singleton.mp hd
  · cases hd

end Run

namespace Sample

end Sample
end Graft
