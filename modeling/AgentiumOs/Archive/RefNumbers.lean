import AgentiumOs.Archive.RefTable

/-! The numbers that the table of references gives out. A number taken from the counter is free
unless an archived result was put under it from outside without moving the counter. -/

namespace AgentiumOs.Archive

open Function List

open Tools (ShortRef)

namespace RefTable

/-- A flat `@N` or `#N` has the number. -/
def InUse (t : RefTable) (n : ℕ) : Prop := t.get ⟨1, n⟩ ≠ none ∨ t.getHistory n ≠ none

/-- Nothing that one table holds is missing or different in the other. -/
structure Keeps (t t' : RefTable) : Prop where
  entries : ∀ r entry, t.get r = some entry → t'.get r = some entry
  history : ∀ n entry, t.getHistory n = some entry → t'.getHistory n = some entry

variable {t : RefTable}

@[simp] theorem inUse_fetchAdd (n : ℕ) : t.fetchAdd.InUse n ↔ t.InUse n := Iff.rfl

@[simp] theorem inUse_fetchMax (m n : ℕ) : (t.fetchMax m).InUse n ↔ t.InUse n := Iff.rfl

@[simp] theorem inUse_putKey (key : String) (m n : ℕ) : (t.putKey key m).InUse n ↔ t.InUse n := Iff.rfl

@[simp] theorem inUse_putText (aa c : String) (n : ℕ) :
    (t.putText aa c).InUse n ↔ t.InUse n := Iff.rfl

@[simp] theorem inUse_putEntry (r : ShortRef) (e : ArchiveEntry) (n : ℕ) :
    (t.putEntry r e).InUse n ↔ t.InUse n ∨ r = ⟨1, n⟩ := by
  by_cases hr : r = ⟨1, n⟩
  · simp [InUse, get, putEntry, hr]
  · simp [InUse, get, getHistory, putEntry, update_of_ne (Ne.symm hr), hr]

@[simp] theorem inUse_putHistory (m : ℕ) (e : HistoryEntry) (n : ℕ) :
    (t.putHistory m e).InUse n ↔ t.InUse n ∨ m = n := by
  by_cases hm : m = n
  · simp [InUse, getHistory, putHistory, hm]
  · simp [InUse, get, getHistory, putHistory, update_of_ne (Ne.symm hm), hm]

theorem inUse_of_history (h : t.history n ≠ none) : t.InUse n := .inr h

end RefTable

namespace RefOp

/-- The flat number under which `insert_at` puts a result. -/
def placed? : RefOp → Option ℕ
  | insertAt r _ => if r.table = 1 then some r.index else none
  | _ => none

/-- The flat number that an operation gives from outside and moves the counter past. -/
def given : RefOp → ℕ
  | insertVirtualArchive n _ | insertVirtualHistory n _ _ => n
  | insertVirtualArchiveRef r _ => if r.table = 1 then r.index else 0
  | _ => 0

/-- The number under which an operation stores something. -/
def takes (t : RefTable) : RefOp → Option ℕ
  | insert _ => some t.next
  | insertAt r _ | insertVirtualArchiveRef r _ => if r.table = 1 then some r.index else none
  | insertHistory entry _ => some ((t.historyStableKeyToN (historyStableKey entry)).getD t.next)
  | insertVirtualArchive n _ => some n
  | insertVirtualHistory n entry _ =>
      if (t.historyStableKeyToN (historyStableKey entry)).getD n = n then some n else none

variable {t t' : RefTable} {op : RefOp}

theorem Acts.inUse_iff (h : Acts t op t') (n : ℕ) : t'.InUse n ↔ t.InUse n ∨ op.takes t = some n := by
  have hf : ∀ r : ShortRef, r = ⟨1, n⟩ ↔ r.table = 1 ∧ r.index = n := fun r => by cases r; simp
  cases h with
  | repeats entry c m hk hh =>
    have hu : t.InUse m := RefTable.inUse_of_history hh
    simp only [takes, hk, Option.some.injEq]
    exact ⟨.inl, fun h => h.elim id fun hm => hm ▸ hu⟩
  | _ => simp_all [takes]

theorem Acts.key_eq_none_iff (h : Acts t op t') (key : String) : t'.historyStableKeyToN key = none ↔
      t.historyStableKeyToN key = none ∧ ∀ entry, op.line? = some entry → historyStableKey entry ≠ key := by
  have hp : ∀ (n : ℕ) (k : String), update t.historyStableKeyToN k (some n) key = none ↔
      t.historyStableKeyToN key = none ∧ k ≠ key := by
    intro n k
    by_cases hk : k = key
    · simp [hk]
    · simp [update_of_ne (Ne.symm hk), hk]
  have hkn : ∀ {n : ℕ} {k : String}, t.historyStableKeyToN k = some n →
      (t.historyStableKeyToN key = none ↔ t.historyStableKeyToN key = none ∧ k ≠ key) := by
    intro n k hn
    refine ⟨fun h => ⟨h, fun hk => ?_⟩, And.left⟩
    rw [hk, h] at hn
    cases hn
  cases h <;> simp only [line?, Option.some.injEq, forall_eq', reduceCtorEq, false_imp_iff, implies_true, and_true]
  case repeats entry content n hk hh => exact hkn hk
  case refills entry content n hk hh => exact hkn hk
  case registers entry content hk => exact hp t.next (historyStableKey entry)
  case replaysLine n entry content hk => exact hkn hk
  case registersLine n entry content hk => exact hp n (historyStableKey entry)
  case asserts n entry content m hk hne => exact hkn hk
  all_goals exact Iff.rfl

/-- The number of every pair is the number of a line. -/
def Registered (t : RefTable) : Prop := ∀ key n, t.historyStableKeyToN key = some n → t.history n ≠ none

theorem Acts.registered (h : Acts t op t') (ht : Registered t) : Registered t' := by
  intro key n hn
  have hp : ∀ (m : ℕ) (entry : HistoryEntry), t.history n ≠ none ∨ m = n →
      update t.history m (some entry) n ≠ none := by
    intro m entry hm
    by_cases hmn : m = n
    · simp [hmn]
    · simpa [update_of_ne (Ne.symm hmn)] using hm.resolve_right hmn
  have hke : ∀ (m : ℕ) (k : String), update t.historyStableKeyToN k (some m) key = some n →
      t.history n ≠ none ∨ m = n := by
    intro m k hm
    by_cases hk : k = key
    · rw [hk, update_self] at hm
      exact .inr (Option.some.inj hm)
    · rw [update_of_ne (Ne.symm hk)] at hm
      exact .inl (ht key n hm)
  cases h with
  | refills entry c m hky hh | replaysLine m entry c hky => exact hp m entry (.inl (ht key n hn))
  | registers entry c hky => exact hp t.next entry (hke _ _ hn)
  | registersLine m entry c hky => exact hp m entry (hke _ _ hn)
  | _ => exact ht key n hn

theorem Acts.next_cases (h : Acts t op t') : (t'.next = t.next ∧
      ∀ n, op.takes t = some n → op.placed? = some n ∨ ∃ key, t.historyStableKeyToN key = some n) ∨
    (t'.next = (t.next + 1) % numbers ∧ op.takes t = some t.next) ∨
    (t'.next = max t.next (saturatingSucc op.given) ∧ op.takes t = some op.given) := by
  cases h with
  | draws entry => exact .inr (.inl ⟨rfl, rfl⟩)
  | places r entry => exact .inl ⟨rfl, fun n hn => .inl hn⟩
  | repeats entry c m hk hh | refills entry c m hk hh =>
    refine .inl ⟨rfl, fun n hn => .inr ⟨historyStableKey entry, ?_⟩⟩
    rwa [takes, hk, Option.getD_some, ← hk] at hn
  | registers entry c hk => exact .inr (.inl ⟨rfl, by simp [takes, hk]⟩)
  | replays n entry | replaysFlat n entry => exact .inr (.inr ⟨rfl, rfl⟩)
  | replaysComposite r entry hr => exact .inl ⟨rfl, by simp [takes, hr]⟩
  | replaysLine n entry c hk
  | registersLine n entry c hk => exact .inr (.inr ⟨rfl, by simp [takes, hk, given]⟩)
  | asserts n entry c m hk hne => exact .inl ⟨rfl, by simp [takes, hk, hne]⟩

end RefOp

open RefOp

namespace RefTable

variable {t : RefTable}

theorem keeps_putEntry (e : ArchiveEntry) (h : t.get r = none) : t.Keeps (t.putEntry r e) where
  entries r' _ hr' := by
    have hne : r' ≠ r := fun heq => by simp [heq, h] at hr'
    exact (update_of_ne hne _ _).trans hr'
  history _ _ hn := hn

theorem keeps_putHistory (e : HistoryEntry) (h : t.getHistory n = none) : t.Keeps (t.putHistory n e) where
  entries _ _ hr := hr
  history m _ hm := by
    have hne : m ≠ n := fun heq => by simp [heq, h] at hm
    exact (update_of_ne hne _ _).trans hm

theorem keeps_of_free {op : RefOp} {n : ℕ} (hkn : Registered t) (hr : op.returned t = some n)
    (hf : ¬ t.InUse n) : t.Keeps (op.apply t) := by
  obtain ⟨hen, hl⟩ := not_or.mp hf
  rw [not_not] at hen hl
  cases op with
  | insert entry =>
    cases hr
    obtain ⟨he, hh⟩ := keeps_putEntry entry hen
    exact ⟨he, hh⟩
  | insertHistory entry c =>
    simp only [returned, insertHistory, apply] at hr ⊢
    cases hk : t.historyStableKeyToN (historyStableKey entry) with
    | none =>
      simp only [hk] at hr ⊢
      cases hr
      obtain ⟨he, hh⟩ := keeps_putHistory entry hl
      exact ⟨he, hh⟩
    | some m =>
      simp only [hk] at hr
      cases hr
      exact absurd hl (hkn _ _ hk)
  | _ => cases hr

end RefTable

/-- What the operations so far say about the table: the counter is within `bound`, and a number in
use is below it or was given to `insert_at`. -/
structure Tracks (bound : ℕ) (ops : List RefOp) (t : RefTable) : Prop where
  next_le : t.next ≤ bound + ops.length + 1
  inUse : ∀ n, t.InUse n → n < t.next ∨ n ∈ ops.filterMap placed?
  placed : ∀ n ∈ ops.filterMap placed?, t.InUse n
  registered : Registered t
  keys : ∀ key, t.historyStableKeyToN key = none ↔
    ∀ op ∈ ops, ∀ entry, op.line? = some entry → historyStableKey entry ≠ key

theorem Tracks.new (bo : ℕ) : Tracks bo [] .new where
  next_le := Nat.le_add_left 1 _
  inUse _ h := by simp [RefTable.InUse, RefTable.new, RefTable.get, RefTable.getHistory] at h
  placed _ h := by cases h
  registered _ _ h := by cases h
  keys _ := ⟨fun _ _ h => (by cases h), fun _ => rfl⟩

variable {ops : List RefOp} {b : ℕ} {t : RefTable}

theorem Tracks.step (h : Tracks b ops t) (op : RefOp) (hg : op.given ≤ b)
    (hr : b + ops.length + 2 < numbers) : Tracks b (ops ++ [op]) (op.apply t) := by
  have ha := acts t op
  have hne := h.next_le
  have had : (t.next + 1) % numbers = t.next + 1 := Nat.mod_eq_of_lt (by omega)
  have hm : saturatingSucc op.given = op.given + 1 := min_eq_left (by omega)
  -- a number taken by the operation is passed by the counter, or was placed, or was in use before
  have hc : t.next ≤ (op.apply t).next ∧ (op.apply t).next ≤ b + ops.length + 2 ∧
      ∀ n, op.takes t = some n → n < (op.apply t).next ∨ op.placed? = some n ∨ t.InUse n := by
    obtain ⟨hs, ht⟩ | ⟨hd, ht⟩ | ⟨hmo, ht⟩ := ha.next_cases
    · refine ⟨hs.ge, by omega, fun n hn => .inr ((ht n hn).imp_right ?_)⟩
      rintro ⟨key, hk⟩
      exact RefTable.inUse_of_history (h.registered key n hk)
    · refine ⟨by omega, by omega, fun n hn => .inl ?_⟩
      cases ht.symm.trans hn
      omega
    · refine ⟨by omega, by omega, fun n hn => .inl ?_⟩
      cases ht.symm.trans hn
      omega
  obtain ⟨hup, hb, hta⟩ := hc
  constructor
  · rw [length_append]
    omega
  · intro n hn
    rw [filterMap_append, mem_append]
    have ho : t.InUse n → n < (op.apply t).next ∨ n ∈ ops.filterMap placed? := fun hu =>
      (h.inUse n hu).imp_left fun hlt => hlt.trans_le hup
    rcases (ha.inUse_iff n).mp hn with hu | ht
    · exact (ho hu).imp_right .inl
    · rcases hta n ht with hlt | hp | hu
      · exact .inl hlt
      · exact .inr (.inr (by simp [hp]))
      · exact (ho hu).imp_right .inl
  · intro n hn
    rw [filterMap_append, mem_append] at hn
    refine (ha.inUse_iff n).mpr (hn.imp (h.placed n) fun hp => ?_)
    obtain ⟨op', hop', hf⟩ := mem_filterMap.mp hp
    rw [mem_singleton.mp hop'] at hf
    cases op with
    | insertAt r entry => exact hf
    | _ => cases hf
  · exact ha.registered h.registered
  · intro key
    rw [ha.key_eq_none_iff, h.keys, forall_mem_append, forall_mem_singleton]

/-- The numbers given from outside leave room below `2 ^ 32` for the operations. -/
def InRange (ops : List RefOp) : Prop := ∀ op ∈ ops, op.given + ops.length + 1 < numbers

instance (ops : List RefOp) : Decidable (InRange ops) := by
  unfold InRange
  infer_instance

theorem tracks_run (hg : ∀ op ∈ ops, op.given ≤ b) (hr : b + ops.length + 1 < numbers) :
    Tracks b ops (.run ops) := by
  induction ops using reverseRecOn with
  | nil => exact .new b
  | append_singleton ops op ih =>
    rw [length_append] at hr
    rw [RefTable.run_concat]
    exact (ih (fun op' h => hg op' (mem_append_left _ h)) (by omega)).step op
      (hg op (mem_append_right _ mem_cons_self)) (by omega)

theorem InRange.tracks (h : InRange ops) : Tracks (numbers - ops.length - 2) ops (.run ops) := by
  cases ops with
  | nil => exact .new _
  | cons op ops =>
    have hr := h op mem_cons_self
    exact tracks_run (fun op' hop' => by have := h op' hop'; omega) (by omega)

/-- A line of the sequence has the key of the line that the operation inserts. A pair that is new
may still share its key with another one, since the key only joins two texts with a NUL. -/
def SharesKey (ops : List RefOp) (op : RefOp) : Prop :=
  ∃ entry, op.line? = some entry ∧ ∃ op' ∈ ops, ∃ entry', op'.line? = some entry' ∧
    historyStableKey entry' = historyStableKey entry

theorem Tracks.next_inUse_iff (h : Tracks b ops t) : t.InUse t.next ↔ t.next ∈ ops.filterMap placed? :=
  ⟨fun hu => (h.inUse t.next hu).resolve_left (lt_irrefl _), h.placed t.next⟩

/-- A pair with a key of its own gets the number of the counter, another one a number in use. -/
theorem Tracks.returned_inUse_iff (h : Tracks b ops t) (hr : op.returned t = some n) :
    t.InUse n ↔ n ∈ ops.filterMap placed? ∨ SharesKey ops op := by
  cases op with
  | insert entry =>
    cases hr
    have hn : ¬ SharesKey ops (.insert entry) := by simp [SharesKey, line?]
    rw [or_iff_left hn]
    exact h.next_inUse_iff
  | insertHistory entry c =>
    simp only [returned, RefTable.insertHistory] at hr
    cases hk : t.historyStableKeyToN (historyStableKey entry) with
    | none =>
      simp only [hk] at hr
      cases hr
      have hn : ¬ SharesKey ops (.insertHistory entry c) := by
        rintro ⟨_, he, op', hop', entry', hl, hs⟩
        cases he
        exact (h.keys _).mp hk op' hop' entry' hl hs
      rw [or_iff_left hn]
      exact h.next_inUse_iff
    | some m =>
      simp only [hk] at hr
      cases hr
      refine iff_of_true (RefTable.inUse_of_history (h.registered _ _ hk)) (.inr ⟨entry, rfl, ?_⟩)
      by_contra hn
      push Not at hn
      rw [(h.keys _).mpr hn] at hk
      cases hk
  | _ => cases hr

/-- After any sequence of operations with room for its numbers, the number that `insert` or
`insert_history` returns is in use by no flat `@N` or `#N`, and nothing is overwritten, exactly when
no `insert_at` of the sequence put a result under that number and the pair has a key that is new. -/
theorem returned_number_free_iff {ops : List RefOp} (op : RefOp) {n : ℕ} (hrange : InRange ops)
    (hret : op.returned (.run ops) = some n) :
    (¬ (RefTable.run ops).InUse n ∧ (RefTable.run ops).Keeps (op.apply (.run ops))) ↔
      n ∉ ops.filterMap placed? ∧ ¬ SharesKey ops op := by
  have ht := hrange.tracks
  have hu := ht.returned_inUse_iff hret
  rw [← not_or, ← hu]
  exact ⟨And.left, fun hf => ⟨hf, RefTable.keeps_of_free ht.registered hret hf⟩⟩

def resultEntry (toolName : String) : ArchiveEntry :=
  .new (.fromLines [toolName]) toolName none "" "tool_result"

/-- The number after a replayed `@7` is free. -/
theorem number_after_replay_free : InRange [.insertVirtualArchive 7 (resultEntry "a")] ∧
      (RefTable.run [.insertVirtualArchive 7 (resultEntry "a")]).next = 8 ∧
      ¬ (RefTable.run [.insertVirtualArchive 7 (resultEntry "a")]).InUse 8 := by
  have hr : InRange [.insertVirtualArchive 7 (resultEntry "a")] := by decide
  refine ⟨hr, rfl, ((returned_number_free_iff (.insert (resultEntry "b")) hr rfl).mpr ⟨?_, ?_⟩).1⟩
  · exact not_mem_nil
  · rintro ⟨entry, hl, -⟩
    cases hl

/-- A result put under `@1` by `insert_at` is overwritten by the next insertion. -/
theorem placed_number_overwritten : InRange [.insertAt ⟨1, 1⟩ (resultEntry "a")] ∧
      (RefTable.run [.insertAt ⟨1, 1⟩ (resultEntry "a")]).get ⟨1, 1⟩ = some (resultEntry "a") ∧
      ((RefTable.run [.insertAt ⟨1, 1⟩ (resultEntry "a")]).insert (resultEntry "b")).1 = ⟨1, 1⟩ ∧
      ((RefTable.run [.insertAt ⟨1, 1⟩ (resultEntry "a")]).insert (resultEntry "b")).2.get ⟨1, 1⟩ =
        some (resultEntry "b") :=
  ⟨by decide, rfl, rfl, rfl⟩

end AgentiumOs.Archive
