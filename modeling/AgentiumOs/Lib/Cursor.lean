import Mathlib

/-! Reading a list page by page. A page source answers a cursor with some items and,
while there is more to read, the next cursor; a reader follows the cursors and joins
the items. Where the cursors increase below a bound the reader comes to an end, and
what it has read is told by what is left after each cursor. -/

namespace AgentiumOs.Lib.Cursor

variable {α : Type*} (items : ℕ → List α) (next : ℕ → Option ℕ)

/-- The items of all pages from a cursor on, when the last page comes within `fuel` pages. -/
def merge : ℕ → ℕ → Option (List α)
  | 0, _ => none
  | fuel + 1, cursor =>
      match next cursor with
      | none => some (items cursor)
      | some cursor' => (merge fuel cursor').map (items cursor ++ ·)

/-- The cursors met when reading from `start`. -/
inductive Reached (start : ℕ) : ℕ → Prop
  | start : Reached start start
  | step {cursor cursor' : ℕ} : Reached start cursor → next cursor = some cursor' → Reached start cursor'

variable {next} {start cursor b fuel : ℕ}

/-- Every reached cursor was the start, or follows a reached one. -/
theorem Reached.eq_start_or (h : Reached next start cursor) :
    cursor = start ∨ ∃ p, Reached next start p ∧ next p = some cursor := by
  cases h with
  | start => exact .inl rfl
  | step hp hn => exact .inr ⟨_, hp, hn⟩

/-- Cursors that increase and stay below a bound come to a last page. -/
theorem exists_merge (hn : ∀ cursor cursor', Reached next start cursor → next cursor = some cursor' →
      cursor < cursor' ∧ cursor' ≤ b) :
    ∃ fuel merged, merge items next fuel start = some merged := by
  suffices ∀ room cursor, b - cursor ≤ room → Reached next start cursor →
      ∃ fuel merged, merge items next fuel cursor = some merged from
    this _ start (Nat.le_refl _) .start
  intro room
  -- each further page leaves less room below the bound
  induction room with
  | zero =>
    intro cursor hro hr
    refine ⟨1, items cursor, ?_⟩
    cases hc : next cursor with
    | none => simp [merge, hc]
    | some cursor' =>
      obtain ⟨hlt, hle⟩ := hn cursor cursor' hr hc
      omega
  | succ room ih =>
    intro cursor hro hr
    cases hc : next cursor with
    | none => exact ⟨1, items cursor, by simp [merge, hc]⟩
    | some cursor' =>
      obtain ⟨hlt, hle⟩ := hn cursor cursor' hr hc
      obtain ⟨fuel, merged, hm⟩ := ih cursor' (by omega) (.step hr hc)
      exact ⟨fuel + 1, items cursor ++ merged, by simp [merge, hc, hm]⟩

theorem merge_eq_none_of_stuck (h : next cursor = some cursor) (fuel : ℕ) :
    merge items next fuel cursor = none := by
  induction fuel with
  | zero => rfl
  | succ fuel ih => simp [merge, h, ih]

variable {items}

/-- Where each page keeps the first part of what is left after its cursor, and the
last page all of it, reading to the end keeps what was left at the start. -/
theorem filter_merge {keep : α → Bool} {left : ℕ → List α}
    (hl : ∀ cursor, Reached next start cursor → next cursor = none → (items cursor).filter keep = left cursor)
    (hp : ∀ cursor cursor', Reached next start cursor → next cursor = some cursor' →
      (items cursor).filter keep ++ left cursor' = left cursor)
    {m : List α} (hm : merge items next fuel start = some m) :
    m.filter keep = left start := by
  suffices ∀ fuel cursor m, Reached next start cursor →
      merge items next fuel cursor = some m → m.filter keep = left cursor from
    this fuel start m .start hm
  intro fuel
  induction fuel with
  | zero => intro cursor m _ h; exact absurd h (by simp [merge])
  | succ fuel ih =>
    intro cursor m hr h
    rw [merge] at h
    cases hc : next cursor with
    | none =>
      simp only [hc, Option.some.injEq] at h
      rw [← h, hl cursor hr hc]
    | some cursor' =>
      simp only [hc, Option.map_eq_some_iff] at h
      obtain ⟨rest, hre, rfl⟩ := h
      rw [List.filter_append, ih cursor' rest (.step hr hc) hre, hp cursor cursor' hr hc]

end AgentiumOs.Lib.Cursor
