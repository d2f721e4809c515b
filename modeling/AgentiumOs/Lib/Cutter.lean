import Mathlib

/-! A stream that arrives in chunks and is cut into pieces. What is cut off a buffer does not
change when more arrives behind it, so the pieces do not depend on the chunks. -/

namespace AgentiumOs.Lib

/-- How the first piece is cut off a buffer, if one is complete. -/
structure Cutter (α : Type*) where
  cut : List α → Option (List α × List α)
  shorter : ∀ {xs piece rest}, cut xs = some (piece, rest) → rest.length < xs.length
  stable : ∀ {xs piece rest} (more : List α), cut xs = some (piece, rest) →
    cut (xs ++ more) = some (piece, rest ++ more)

namespace Cutter

variable {α : Type*} (c : Cutter α) {xs piece rest : List α}

/-- The complete pieces of a buffer, and what is left behind them. -/
def pieces (xs : List α) : List (List α) × List α :=
  match _h : c.cut xs with
  | none => ([], xs)
  | some (piece, rest) => (piece :: (pieces rest).1, (pieces rest).2)
termination_by xs.length
decreasing_by all_goals exact c.shorter ‹_›

variable {c}

theorem pieces_of_none (h : c.cut xs = none) : c.pieces xs = ([], xs) := by
  rw [pieces]
  split <;> simp_all

theorem pieces_of_some (h : c.cut xs = some (piece, rest)) :
    c.pieces xs = (piece :: (c.pieces rest).1, (c.pieces rest).2) := by
  rw [pieces]
  split <;> simp_all

variable (c)

/-- The pieces of a buffer stay when more arrives; the further pieces come out of what was left. -/
theorem pieces_append (xs more : List α) :
    c.pieces (xs ++ more) = ((c.pieces xs).1 ++ (c.pieces ((c.pieces xs).2 ++ more)).1,
      (c.pieces ((c.pieces xs).2 ++ more)).2) := by
  induction xs using pieces.induct c with
  | case1 xs h => simp [pieces_of_none h]
  | case2 xs piece rest h ih => simp [pieces_of_some h, pieces_of_some (c.stable more h), ih]

/-- Nothing can be cut off what is left. -/
theorem cut_tail (xs : List α) : c.cut (c.pieces xs).2 = none := by
  induction xs using pieces.induct c with
  | case1 xs h => simpa [pieces_of_none h] using h
  | case2 xs piece rest h ih => simpa [pieces_of_some h] using ih

end Cutter

end AgentiumOs.Lib
