-- Walking over a tree with a cursor. The cursor knows the node that it stands
-- on and the nodes to its right on every level above, so that it can go down
-- to the first child, on to the next sibling and up to the parent. The walk
-- goes down where it can, and else on to the next sibling of the nearest
-- level that has one.
import Graft.Go.Tree

namespace Graft.Go

/-- A place in a tree: the node, and for each level from the nearest to the root
the siblings that follow. -/
structure Cursor where
  focus : Tree
  right : List (List Tree)

namespace Cursor

def firstChild? (c : Cursor) : Option Cursor :=
  match c.focus.children with
  | [] => none
  | t :: ts => some ⟨t, ts :: c.right⟩

/-- On to the next sibling of the nearest level that has one. -/
def onward? : List (List Tree) → Option Cursor
  | [] => none
  | [] :: levels => onward? levels
  | (t :: ts) :: levels => some ⟨t, ts :: levels⟩

/-- The number of nodes on the levels. -/
def sizeOfLevels : List (List Tree) → Nat
  | [] => 0
  | level :: levels => Tree.sizeAll level + sizeOfLevels levels

/-- The number of nodes that are still to be visited. -/
def remaining (c : Cursor) : Nat := c.focus.size + sizeOfLevels c.right

theorem remaining_firstChild {c d : Cursor} (h : c.firstChild? = some d) :
    d.remaining < c.remaining := by
  obtain ⟨t, levels⟩ := c
  cases t with
  | leaf k r tok => simp [firstChild?, Tree.children] at h
  | node k r ts =>
    cases ts with
    | nil => simp [firstChild?, Tree.children] at h
    | cons u us =>
      simp only [firstChild?, Tree.children, Option.some.injEq] at h
      subst h
      simp only [remaining, Tree.size, Tree.sizeAll, sizeOfLevels]
      omega

theorem remaining_onward {levels : List (List Tree)} {d : Cursor}
    (h : onward? levels = some d) : d.remaining = sizeOfLevels levels := by
  fun_induction onward? levels with
  | case1 => cases h
  | case2 levels ih => rw [ih h]; simp [Tree.sizeAll, sizeOfLevels]
  | case3 t ts levels =>
    cases h
    simp only [remaining, Tree.sizeAll, sizeOfLevels]
    omega

/-- The nodes in the order in which the walk visits them, from the place onwards. -/
def walk (c : Cursor) : List Tree :=
  c.focus ::
    match _h : c.firstChild? with
    | some d => walk d
    | none =>
      match _g : onward? c.right with
      | some d => walk d
      | none => []
termination_by c.remaining
decreasing_by
  · exact remaining_firstChild _h
  · have := c.focus.size_pos
    rw [remaining_onward _g]
    simp only [remaining]
    omega

end Cursor

/-- The nodes of a tree in the order of the walk from its root. -/
def Tree.walk (t : Tree) : List Tree := Cursor.walk ⟨t, []⟩

end Graft.Go
