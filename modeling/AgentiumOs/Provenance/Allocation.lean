import AgentiumOs.Lib.Protocol
import AgentiumOs.Provenance.RefCalls

/-! Calls of `archive_allocate_and_put` that run between the statements of one another, with
statements that fail. A call searches for its anchor, draws a number that nobody else has, and
puts its body where none is. -/

namespace AgentiumOs.Provenance

open Function RefOperation Lib Lib.Program
open Tools (ShortRef)
open Archive (ArchiveEntry)

structure AllocateCall where
  contextId : String
  agentId : String
  activityAnchor : String
  entry : ArchiveEntry

inductive Stage where
  | searching
  | drawn (r : ShortRef)
  | settled (r : ShortRef)
  | spent

namespace AllocateCall

def program (call : AllocateCall) : RefM ShortRef :=
  archiveAllocateAndPut call.contextId call.agentId call.activityAnchor call.entry

def row (call : AllocateCall) (r : ShortRef) : BodyRow :=
  bodyRow call.contextId r call.agentId call.activityAnchor call.entry

def place (call : AllocateCall) (r : ShortRef) : String × ℕ × ℕ := (call.contextId, r.table, r.index)

inductive Allows (call : AllocateCall) : Stage → RefOperation → Prop
  | search : Allows call .searching (.selectRef call.contextId call.activityAnchor)
  | mint {op : RefOperation} (h : op.OnPrefixes call.contextId) : Allows call .searching op
  | update (p : ℕ) : Allows call .searching (.updateCounter (.archiveLocal call.contextId p))
  | create (p : ℕ) : Allows call .searching (.createCounter (.archiveLocal call.contextId p))
  | put (r : ShortRef) : Allows call (.drawn r) (.upsertBody (call.row r))
  | recheck : Allows call .spent (.selectRef call.contextId call.activityAnchor)

def after (stage : Stage) : (op : RefOperation) → op.Answer → Stage
  | .selectRef _ _, .ok (some (p, l)) => .settled ⟨p, l⟩
  | .updateCounter (.archiveLocal _ p), .ok (some n) => .drawn ⟨p, n⟩
  | .createCounter (.archiveLocal _ p), .ok n => .drawn ⟨p, n⟩
  | .upsertBody row, .ok _ => .settled ⟨row.archivePrefix, row.archiveLocal⟩
  | .upsertBody _, .error _ => .spent
  | _, _ => stage

def protocol (call : AllocateCall) : Protocol RefOperation RefOperation.Answer Stage := ⟨call.Allows, after⟩

/-! ### A call follows the protocol -/

section Follows

variable {α β : Type}

/-- What a part of a call comes to, if it does not fail. -/
def Leaves (Q : Stage → α → Prop) (stage : Stage) : Except ProvenanceError α → Prop
  | .ok a => Q stage a
  | .error _ => True

variable {P : Protocol RefOperation RefOperation.Answer Stage} {k : Stage} {Q : Stage → α → Prop}
  {Q' : Stage → β → Prop} {f : β → RefM α} {aa : String}

theorem follows_bind (hm : P.Follows (Leaves Q') m.run k) (hf : ∀ k b, Q' k b → P.Follows (Leaves Q) (f b).run k) :
    P.Follows (Leaves Q) (m >>= f).run k :=
  Protocol.follows_bind hm (fun _ _ _ => trivial) hf

theorem follows_checkAndTakeZero_bind (h : ∀ b, ro = .ok b → P.Follows (Leaves Q) (f b).run k) :
    P.Follows (Leaves Q) (checkAndTakeZero ro >>= f).run k := by
  cases ro with
  | ok b => exact h b rfl
  | error failure => trivial

variable {n : ℕ} {r : String}

theorem follows_toU32 {Q : Stage → ℕ → Prop} (h : Q k n) : P.Follows (Leaves Q) (toU32 aa r n).run k := by
  unfold toU32
  split
  · exact h
  · trivial

theorem follows_toU32_bind {f : ℕ → RefM α} (h : P.Follows (Leaves Q) (f n).run k) :
    P.Follows (Leaves Q) (toU32 aa r n >>= f).run k := by
  unfold toU32
  split
  · exact h
  · trivial

end Follows

variable {call : AllocateCall} {k : Stage}

theorem follows_getRef (hk : call.Allows k (.selectRef call.contextId call.activityAnchor)) :
    call.protocol.Follows (Leaves fun k' found => k' = found.elim k Stage.settled)
      (archiveGetRefForActivityAnchor call.contextId call.activityAnchor).run k := by
  refine Protocol.follows_request_bind hk fun rows => follows_checkAndTakeZero_bind fun found hf => ?_
  subst hf
  match found with
  | none => rfl
  | some (p, l) => exact follows_toU32_bind (follows_toU32_bind rfl)

/-- After the counter could not be updated it is created, and a conflict starts over. -/
theorem follows_createCounter {p left : ℕ} {ac fi ca : String}
    (h : call.protocol.Follows (Leaves fun k' n => k' = .drawn ⟨p, n⟩)
      (nextNumber (.archiveLocal call.contextId p) ac fi ca left).run .searching) :
    call.protocol.Follows (Leaves fun k' n => k' = .drawn ⟨p, n⟩) (do
        let c : Except Failure ℕ ← ask (.createCounter (.archiveLocal call.contextId p))
        match c with
        | .ok n => toU32 ac (fi ++ " overflow: ") n
        | .error fa =>
            if isTransactionConflict fa.error || isDuplicateRecordWrite fa.error then
              nextNumber (.archiveLocal call.contextId p) ac fi ca left
            else throw (.storage fa.error) : RefM ℕ).run .searching := by
  refine Protocol.follows_request_bind (.create p) fun c => ?_
  cases c with
  | ok n => exact follows_toU32 rfl
  | error fa =>
    dsimp only
    split
    · exact h
    · trivial

theorem follows_nextNumber (p : ℕ) (ac fi c : String) (left : ℕ) :
    call.protocol.Follows (Leaves fun k' n => k' = .drawn ⟨p, n⟩)
      (nextNumber (.archiveLocal call.contextId p) ac fi c left).run .searching := by
  induction left with
  | zero => trivial
  | succ left ih =>
    refine Protocol.follows_request_bind (.update p) fun u => ?_
    rcases u with (e | e) | (_ | n)
    · dsimp only
      split_ifs
      · trivial
      · exact ih
      · trivial
    · exact follows_createCounter ih
    · exact follows_createCounter ih
    · exact follows_toU32 rfl

/-- A body that was put settles a call; after a failure only another search does. -/
theorem follows_put (r : ShortRef) : call.protocol.Follows
    (fun k put => k = match put with | .ok r => .settled r | .error _ => .spent)
    (do
      archivePutBody call.contextId r call.agentId call.activityAnchor call.entry
      return r : RefM ShortRef).run (.drawn r) := by
  refine Protocol.follows_request_bind (.put r) fun rows => ?_
  match rows with
  | .ok () => rfl
  | .error failure => rfl

theorem follows_program (call : AllocateCall) :
    call.protocol.Follows (Leaves fun k r => k = .settled r) call.program.run .searching := by
  refine follows_bind (follows_getRef .search) ?_
  rintro k found rfl
  cases found with
  | some r => rfl
  | none =>
    have hp : call.protocol.Follows (Leaves fun k' _ => k' = .searching)
        (archiveEnsurePrefix call.contextId call.agentId).run .searching := by
      refine (Protocol.follows_of_all ?_ (uses_archiveEnsurePrefix _ _).all).imp ?_
      · intro op hop
        refine ⟨.mint hop, fun answer => ?_⟩
        cases op <;> first | exact hop.elim | rfl
      · rintro k (e | p) rfl
        · trivial
        · rfl
    refine follows_bind hp ?_
    rintro k p rfl
    refine follows_bind (follows_nextNumber p _ _ _ _) ?_
    rintro k n rfl
    refine Protocol.follows_tryCatch (follows_put ⟨p, n⟩) (fun _ _ h => h) ?_
    rintro k e rfl
    split
    · refine follows_bind (follows_getRef .recheck) ?_
      rintro k found rfl
      cases found with
      | some r => rfl
      | none => trivial
    · trivial

/-! ### What an operation of a call does -/

/-- The store and the stage of a call, before and after one of its operations. -/
inductive Moved (call : AllocateCall) (s : RefStore) (k : Stage) (s' : RefStore) (k' : Stage) : Prop
  | same (hbodies : s'.bodies = s.bodies) (hcounters : s'.counters = s.counters) (hk' : k' = k ∨ k' = .spent)
  | found (row : BodyRow) (hrow : row ∈ s.bodies.table.rows)
      (hkey : row.anchorKey = (call.contextId, call.activityAnchor)) (hs' : s' = s)
      (hk' : k' = .settled ⟨row.archivePrefix, row.archiveLocal⟩)
  | drew (p n : ℕ) (hn : n = (s.counters (.archiveLocal call.contextId p)).getD 0 + 1) (hbodies : s'.bodies = s.bodies)
      (hcounters : s'.counters = Function.update s.counters (.archiveLocal call.contextId p) (some n))
      (hk' : k' = k ∨ k' = .drawn ⟨p, n⟩)
  | put (r : ShortRef) (hk : k = .drawn r) (hbodies : s.bodies.upsert (call.row r) = some s'.bodies)
      (hcounters : s'.counters = s.counters) (hk' : k' = .settled r ∨ k' = .spent)

variable {op : RefOperation}

theorem moved_of_reply (k₀ : Stage) (hr : ∀ fa answer, op.refusal fa = some answer → after k op answer = k₀)
    (hk₀ : k₀ = k ∨ k₀ = .spent) (hre : Moved call s k (op.reply s).2 (after k op (op.reply s).1))
    (hu : Moved call s k (op.reply s).2 k₀) (fau : Option (Fault Failure)) :
    Moved call s k (serve fau op s).2 (after k op (serve fau op s).1) := by
  rcases faulty_cases RefOperation.reply refusal fau op s with h | ⟨fa, answer, ha, h | h⟩ <;> rw [serve, h]
  · exact hre
  · exact .same rfl rfl ((hr fa answer ha).symm ▸ hk₀)
  · exact (hr fa answer ha).symm ▸ hu

variable (f : Option (Fault Failure)) (s : RefStore)

theorem moved_select (k : Stage) :
    Moved call s k (serve f (.selectRef call.contextId call.activityAnchor) s).2
      (after k _ (serve f (.selectRef call.contextId call.activityAnchor) s).1) := by
  refine moved_of_reply k ?_ (.inl rfl) ?_ (.same rfl rfl (.inl rfl)) f
  · rintro failure _ ⟨⟩
    rfl
  · rw [RefOperation.reply]
    cases hr : s.bodyOfAnchor call.contextId call.activityAnchor with
    | none => exact .same rfl rfl (.inl rfl)
    | some row => exact .found row (List.mem_of_find?_eq_some hr) (by simpa using List.find?_some hr) rfl rfl

theorem moved_update (k : Stage) (p : ℕ) :
    Moved call s k (serve f (.updateCounter (.archiveLocal call.contextId p)) s).2
      (after k _ (serve f (.updateCounter (.archiveLocal call.contextId p)) s).1) := by
  have hr : ∀ fa answer, refusal fa (.updateCounter (.archiveLocal call.contextId p)) =
      some answer → after k _ answer = k := by
    rintro fa _ ⟨⟩
    rfl
  cases hc : s.counters (.archiveLocal call.contextId p) with
  | none =>
    refine moved_of_reply k hr (.inl rfl) ?_ ?_ f <;> rw [reply_updateCounter_none hc]
    all_goals exact .same rfl rfl (.inl rfl)
  | some n =>
    have hn : n + 1 = (s.counters (.archiveLocal call.contextId p)).getD 0 + 1 := by rw [hc, Option.getD_some]
    refine moved_of_reply k hr (.inl rfl) ?_ ?_ f <;> rw [reply_updateCounter_some hc]
    · exact .drew p (n + 1) hn rfl rfl (.inr rfl)
    · exact .drew p (n + 1) hn rfl rfl (.inl rfl)

theorem moved_create (k : Stage) (p : ℕ) :
    Moved call s k (serve f (.createCounter (.archiveLocal call.contextId p)) s).2
      (after k _ (serve f (.createCounter (.archiveLocal call.contextId p)) s).1) := by
  have hr : ∀ fa answer, refusal fa (.createCounter (.archiveLocal call.contextId p)) =
      some answer → after k _ answer = k := by
    rintro fa _ ⟨⟩
    rfl
  cases hc : s.counters (.archiveLocal call.contextId p) with
  | none =>
    have hn : 1 = (s.counters (.archiveLocal call.contextId p)).getD 0 + 1 := by rw [hc, Option.getD_none]
    refine moved_of_reply k hr (.inl rfl) ?_ ?_ f <;> rw [reply_createCounter_none hc]
    · exact .drew p 1 hn rfl rfl (.inr rfl)
    · exact .drew p 1 hn rfl rfl (.inl rfl)
  | some n =>
    refine moved_of_reply k hr (.inl rfl) ?_ ?_ f <;> simp only [RefOperation.reply, hc]
    all_goals exact .same rfl rfl (.inl rfl)

theorem moved_put (r : ShortRef) :
    Moved call s (.drawn r) (serve f (.upsertBody (call.row r)) s).2
      (after (.drawn r) _ (serve f (.upsertBody (call.row r)) s).1) := by
  have hr : ∀ fa answer, refusal fa (.upsertBody (call.row r)) = some answer →
      after (.drawn r) _ answer = .spent := by
    rintro fa _ ⟨⟩
    rfl
  refine moved_of_reply .spent hr (.inr rfl) ?_ ?_ f <;> rw [RefOperation.reply] <;>
    cases hb : s.bodies.upsert (call.row r) with
  | none => exact .same rfl rfl (.inr rfl)
  | some bodies => first | exact .put r rfl hb rfl (.inl rfl) | exact .put r rfl hb rfl (.inr rfl)

theorem moved (hop : call.Allows k op) (f : Option (Fault Failure)) (s : RefStore) :
    Moved call s k (serve f op s).2 (after k op (serve f op s).1) := by
  cases hop with
  | search | recheck => exact moved_select f s _
  | mint h =>
    obtain ⟨hc, hb, -⟩ := serve_of_onPrefixes h f s
    refine .same hb hc (.inl ?_)
    cases op <;> first | exact h.elim | rfl
  | update p => exact moved_update f s _ p
  | create p => exact moved_create f s _ p
  | put r => exact moved_put f s r

end AllocateCall

/-- The bodies are what they were, or one of the call is new. -/
def AllocateCall.AddsBody (call : AllocateCall) (s s' : RefStore) : Prop :=
  s'.bodies = s.bodies ∨ ∃ r, s.bodies.table.row (call.row r).place = none ∧
    ∀ row, row ∈ s'.bodies.table.rows ↔ row = call.row r ∨ row ∈ s.bodies.table.rows

/-! ### The store and the stages of all calls -/

/-- The counter of a prefix has come to a number. -/
def RefStore.Issued (s : RefStore) (contextId : String) (p n : ℕ) : Prop :=
  ∃ c, s.counters (.archiveLocal contextId p) = some c ∧ n ≤ c

section Consistent

variable {ι : Type} (calls : ι → AllocateCall)

structure Consistent (s : RefStore) (stages : ι → Stage) : Prop where
  stored_issued : ∀ row ∈ s.bodies.table.rows, s.Issued row.contextId row.archivePrefix row.archiveLocal
  drawn_issued : ∀ i r, stages i = .drawn r → s.Issued (calls i).contextId r.table r.index
  drawn_free : ∀ i r, stages i = .drawn r → s.bodies.table.row ((calls i).place r) = none
  drawn_unique : ∀ i j r, stages i = .drawn r → stages j = .drawn r →
    (calls i).contextId = (calls j).contextId → i = j
  settled_stored : ∀ i r, stages i = .settled r → ∃ row ∈ s.bodies.table.rows,
    row.anchorKey = ((calls i).contextId, (calls i).activityAnchor) ∧ row.place = (calls i).place r

variable {calls} {s s' : RefStore} {st : ι → Stage} {i : ι} {k : Stage}

/-- No body is where a drawn number would put one, so none is replaced. -/
theorem Consistent.mem_rows_of_upsert (h : Consistent calls s st) {r : ShortRef} (hd : st i = .drawn r)
    (hb : s.bodies.upsert ((calls i).row r) = some s'.bodies) {row : BodyRow} :
    row ∈ s'.bodies.table.rows ↔ row = (calls i).row r ∨ row ∈ s.bodies.table.rows := by
  rw [Bodies.upsert_table hb, Table.mem_upsert]
  refine or_congr_right ⟨fun hr => hr.1, fun hr => ⟨hr, fun hp => ?_⟩⟩
  have hs := Table.row_of_mem hr
  rw [hp] at hs
  exact absurd ((h.drawn_free i r hd).symm.trans hs) nofun

theorem Consistent.addsBody (h : Consistent calls s st) (hm : (calls i).Moved s (st i) s' k) :
    (calls i).AddsBody s s' := by
  cases hm with
  | same hb | drew p n hn hb => exact .inl hb
  | found row hr hke hs' => exact .inl (by rw [hs'])
  | put r hk hb => exact .inr ⟨r, h.drawn_free i r hk, fun row => h.mem_rows_of_upsert hk hb⟩

variable [DecidableEq ι]

theorem Consistent.move (h : Consistent calls s st) (hb : s'.bodies = s.bodies)
    (hi : ∀ {contextId p n}, s.Issued contextId p n → s'.Issued contextId p n)
    (hd : ∀ r, k = .drawn r → st i = .drawn r ∨
      s'.Issued (calls i).contextId r.table r.index ∧ ¬ s.Issued (calls i).contextId r.table r.index)
    (hse : ∀ r, k = .settled r → ∃ row ∈ s.bodies.table.rows,
      row.anchorKey = ((calls i).contextId, (calls i).activityAnchor) ∧ row.place = (calls i).place r) :
    Consistent calls s' (Function.update st i k) := by
  have hc : ∀ j r, update st i k j = .drawn r → st j = .drawn r ∨
      j = i ∧ s'.Issued (calls j).contextId r.table r.index ∧ ¬ s.Issued (calls j).contextId r.table r.index := by
    intro j r hj
    by_cases hji : j = i
    · subst hji
      rw [update_self] at hj
      exact (hd r hj).imp_right fun hf => ⟨rfl, hf⟩
    · rw [update_of_ne hji] at hj
      exact .inl hj
  constructor
  · rw [hb]
    exact fun row hr => hi (h.stored_issued row hr)
  · intro j r hj
    rcases hc j r hj with ho | ⟨-, hn, -⟩
    · exact hi (h.drawn_issued j r ho)
    · exact hn
  · intro j r hj
    rw [hb]
    rcases hc j r hj with ho | ⟨-, -, hf⟩
    · exact h.drawn_free j r ho
    · by_contra hso
      obtain ⟨row, hr⟩ := Option.ne_none_iff_exists'.mp hso
      obtain ⟨hm, hpl⟩ := Table.row_eq_some.mp hr
      obtain ⟨hco, hp, hl⟩ : row.contextId = (calls j).contextId ∧ row.archivePrefix = r.table ∧
          row.archiveLocal = r.index := by simpa [BodyRow.place, AllocateCall.place] using hpl
      have hs := h.stored_issued row hm
      rw [hco, hp, hl] at hs
      exact hf hs
  · intro j j' r hj hj' hco
    rcases hc j r hj with ho | ⟨rfl, -, hf⟩
    · rcases hc j' r hj' with ho' | ⟨rfl, -, hf'⟩
      · exact h.drawn_unique j j' r ho ho' hco
      · exact absurd (hco ▸ h.drawn_issued j r ho) hf'
    · rcases hc j' r hj' with ho' | ⟨rfl, -, -⟩
      · exact absurd (hco ▸ h.drawn_issued j' r ho') hf
      · rfl
  · intro j r hj
    rw [hb]
    by_cases hji : j = i
    · subst hji
      rw [update_self] at hj
      exact hse r hj
    · rw [update_of_ne hji] at hj
      exact h.settled_stored j r hj

theorem Consistent.put (h : Consistent calls s st) (hd : st i = .drawn r)
    (hb : s.bodies.upsert ((calls i).row r) = some s'.bodies) (hco : s'.counters = s.counters)
    (hk : k = .settled r ∨ k = .spent) : Consistent calls s' (Function.update st i k) := by
  have hi : ∀ {contextId p n}, s.Issued contextId p n → s'.Issued contextId p n := by
    intro contextId p n hi
    rwa [RefStore.Issued, hco]
  have hc : ∀ j r', update st i k j = .drawn r' → j ≠ i ∧ st j = .drawn r' := by
    intro j r' hj
    by_cases hji : j = i
    · subst hji
      rw [update_self] at hj
      rcases hk with rfl | rfl <;> cases hj
    · rw [update_of_ne hji] at hj
      exact ⟨hji, hj⟩
  have hm := @Consistent.mem_rows_of_upsert _ _ _ s' _ i h r hd hb
  constructor
  · intro row hro
    rcases hm.mp hro with rfl | ho
    · exact hi (h.drawn_issued i r hd)
    · exact hi (h.stored_issued row ho)
  · exact fun j r' hj => hi (h.drawn_issued j r' (hc j r' hj).2)
  · intro j r' hj
    obtain ⟨hji, ho⟩ := hc j r' hj
    rw [Bodies.upsert_table hb, Table.row_upsert, if_neg]
    · exact h.drawn_free j r' ho
    · intro hpl
      obtain ⟨hcn, hp, hl⟩ : (calls j).contextId = (calls i).contextId ∧ r'.table = r.table ∧ r'.index = r.index := by
        simpa [BodyRow.place, AllocateCall.place, AllocateCall.row, bodyRow] using hpl
      have hr : r' = r := by
        cases r
        cases hp
        cases hl
        rfl
      exact hji (h.drawn_unique j i r (hr ▸ ho) hd hcn)
  · exact fun j j' r' hj hj' => h.drawn_unique j j' r' (hc j r' hj).2 (hc j' r' hj').2
  · intro j r' hj
    by_cases hji : j = i
    · subst hji
      rw [update_self] at hj
      rcases hk with rfl | rfl
      · cases hj
        exact ⟨_, hm.mpr (.inl rfl), rfl, rfl⟩
      · cases hj
    · rw [update_of_ne hji] at hj
      obtain ⟨row, hro, hke, hpl⟩ := h.settled_stored j r' hj
      exact ⟨row, hm.mpr (.inr hro), hke, hpl⟩

theorem Consistent.moved (h : Consistent calls s st) (hm : (calls i).Moved s (st i) s' k) :
    Consistent calls s' (Function.update st i k) := by
  cases hm with
  | same hb hco hk' =>
    refine h.move hb (fun hi => by rwa [RefStore.Issued, hco]) ?_ ?_
    · rintro r rfl
      rcases hk' with hk' | hk'
      · exact .inl hk'.symm
      · cases hk'
    · rintro r rfl
      rcases hk' with hk' | hk'
      · exact h.settled_stored i r hk'.symm
      · cases hk'
  | found row hr hke hs' hk' =>
    subst hs' hk'
    refine h.move rfl id nofun ?_
    rintro _ ⟨⟩
    have hcn : row.contextId = (calls i).contextId := congrArg Prod.fst hke
    exact ⟨row, hr, hke, by rw [BodyRow.place, hcn, AllocateCall.place]⟩
  | drew p n hn hb hco hk' =>
    refine h.move hb ?_ ?_ ?_
    · rintro contextId p' n' ⟨c, hc, hle⟩
      by_cases hs : CounterKey.archiveLocal contextId p' = .archiveLocal (calls i).contextId p
      · refine ⟨n, by rw [hco, hs, update_self], ?_⟩
        rw [hn, ← hs, hc, Option.getD_some]
        omega
      · exact ⟨c, by rw [hco, update_of_ne hs, hc], hle⟩
    · rintro r rfl
      rcases hk' with hk' | hk'
      · exact .inl hk'.symm
      · cases hk'
        refine .inr ⟨⟨n, by rw [hco, update_self], le_rfl⟩, ?_⟩
        rintro ⟨c, hc, (hle : n ≤ c)⟩
        rw [hc, Option.getD_some] at hn
        omega
    · rintro r rfl
      rcases hk' with hk' | hk'
      · exact h.settled_stored i r hk'.symm
      · cases hk'
  | put r hk hb hco hk' => exact h.put hk hb hco hk'

end Consistent

section Interleavings

variable {ι : Type} [DecidableEq ι] (calls : ι → AllocateCall)

/-- The calls on an empty store, after some of their operations. -/
def concurrently (moves : List (ι × Option (Fault Failure))) :
    Interleave.Pool RefStore (Program RefOperation RefOperation.Answer (Except ProvenanceError ShortRef)) ι :=
  Run.exec (poolStep serve) ⟨.empty, fun i => (calls i).program.run⟩ moves

def Returned (moves : List (ι × Option (Fault Failure))) (i : ι) (r : ShortRef) : Prop :=
  (concurrently calls moves).thread i = .done (.ok r)

/-- What `archive_get_body` returns after some operations. -/
def bodyAfter (moves : List (ι × Option (Fault Failure))) (contextId : String) (r : ShortRef) :
    Except ProvenanceError (Option ArchiveEntry) :=
  (perform (serve none) (archiveGetBody contextId r) (concurrently calls moves).shared).1

omit [DecidableEq ι] in
theorem consistent_empty : Consistent calls .empty fun _ => .searching :=
  ⟨fun _ h => absurd h List.not_mem_nil, nofun, nofun, nofun, nofun⟩

theorem inStages_concurrently (moves : List (ι × Option (Fault Failure))) :
    ∃ stages, InStages (fun i => (calls i).protocol) (fun _ => AllocateCall.Leaves fun k r => k = .settled r)
      (Consistent calls) (concurrently calls moves) stages :=
  InStages.exec (fun s _ _ fa _ h hop => h.moved (AllocateCall.moved hop fa s))
    ⟨consistent_empty calls, fun i => (calls i).follows_program⟩ moves

variable {calls} {moves pre : List (ι × Option (Fault Failure))}

variable {r r' : ShortRef}

/-- The body of a reference that was returned is stored, under the anchor of the call. -/
theorem Returned.stored (h : Returned calls moves i r) :
    ∃ row ∈ (concurrently calls moves).shared.bodies.table.rows,
      row.anchorKey = ((calls i).contextId, (calls i).activityAnchor) ∧ row.place = (calls i).place r := by
  obtain ⟨stages, hc, hf⟩ := inStages_concurrently calls moves
  have hi := hf i
  rw [h] at hi
  exact hc.settled_stored i r hi

/-- An operation of a call leaves the bodies as they are, or adds one where none was. -/
theorem addsBody_concat (moves : List (ι × Option (Fault Failure))) (i : ι) (fa : Option (Fault Failure)) :
    (calls i).AddsBody (concurrently calls moves).shared (concurrently calls (moves ++ [(i, fa)])).shared := by
  obtain ⟨sta, hs⟩ := inStages_concurrently calls moves
  rw [concurrently, concurrently, Run.exec_concat]
  refine hs.shared_poolStep (R := fun i => (calls i).AddsBody) (fun _ _ => .inl rfl) ?_ i fa
  intro s sta i fa op h hop
  exact h.addsBody (AllocateCall.moved hop fa s)

variable {row : BodyRow}

theorem mem_rows_append
    (hr : row ∈ (concurrently calls pre).shared.bodies.table.rows) (p : List (ι × Option (Fault Failure))) :
    row ∈ (concurrently calls (pre ++ p)).shared.bodies.table.rows := by
  induction p using List.reverseRecOn with
  | nil => rwa [List.append_nil]
  | append_singleton p move ih =>
    obtain ⟨i, fa⟩ := move
    rw [← List.append_assoc]
    rcases addsBody_concat (pre ++ p) i fa with hs | ⟨r, -, hm⟩
    · rwa [hs]
    · exact (hm row).mpr (.inr ih)

theorem created_of_mem_rows (hr : row ∈ (concurrently calls moves).shared.bodies.table.rows) :
    ∃ pre j fa po r, moves = pre ++ (j, fa) :: po ∧ row = (calls j).row r ∧
      (concurrently calls pre).shared.bodies.table.row row.place = none ∧
      row ∈ (concurrently calls (pre ++ [(j, fa)])).shared.bodies.table.rows := by
  obtain ⟨pre, ⟨j, fa⟩, po, hm, hn, ht⟩ :=
    Run.occurs_of_exec (poolStep serve) (P := fun p => row ∈ p.shared.bodies.table.rows) List.not_mem_nil hr
  rw [← Run.exec_concat] at ht
  rcases addsBody_concat pre j fa with hs | ⟨r, hf, hme⟩
  · exact absurd (hs ▸ ht) hn
  · have hp := ((hme row).mp ht).resolve_right hn
    exact ⟨pre, j, fa, po, r, hm, hp, hp ▸ hf, ht⟩

/-! ### References that were returned -/

theorem bodyAfter_of_mem_rows {call : AllocateCall}
    (h : call.row r ∈ (concurrently calls moves).shared.bodies.table.rows) :
    bodyAfter calls moves call.contextId r = .ok (some (readBack call.entry)) :=
  congrArg Prod.fst (perform_archiveGetBody_some (Table.row_of_mem h) (entryFromJson_entryToJson call.entry))

theorem Returned.eq_iff (hi : Returned calls moves i r) (hj : Returned calls moves j r')
    (hc : (calls i).contextId = (calls j).contextId) :
    r = r' ↔ (calls i).activityAnchor = (calls j).activityAnchor := by
  obtain ⟨row, hr, hk, hp⟩ := hi.stored
  obtain ⟨row', hr', hk', hp'⟩ := hj.stored
  constructor
  · rintro rfl
    have hs : row = row' := Table.eq_of_key_eq _ hr hr' (by rw [hp, hp', AllocateCall.place, hc]; rfl)
    exact congrArg Prod.snd (hk.symm.trans (hs ▸ hk'))
  · intro ha
    have hs : row = row' :=
      (concurrently calls moves).shared.bodies.anchor_unique row hr row' hr' (by rw [hk, hk', hc, ha])
    have hn := congrArg Prod.snd (hp.symm.trans (hs ▸ hp'))
    cases r
    cases hn
    rfl

/-- In every interleaving, references of a context are the same exactly for the same anchor, a
stored body stays as it is, and a reference that was returned shows the lines of the call that
first put a body there. -/
theorem concurrent_allocations (calls : ι → AllocateCall) (moves : List (ι × Option (Fault Failure))) :
    (∀ i j r r', Returned calls moves i r → Returned calls moves j r' → (calls i).contextId = (calls j).contextId →
      (r = r' ↔ (calls i).activityAnchor = (calls j).activityAnchor)) ∧
    (∀ pre, pre <+: moves → ∀ place row, (concurrently calls pre).shared.bodies.table.row place = some row →
      (concurrently calls moves).shared.bodies.table.row place = some row) ∧
    ∀ i r, Returned calls moves i r → ∃ pre j fault post, moves = pre ++ (j, fault) :: post ∧
      (calls j).contextId = (calls i).contextId ∧ (calls j).activityAnchor = (calls i).activityAnchor ∧
      bodyAfter calls pre (calls i).contextId r = .ok none ∧
      ∃ entry, bodyAfter calls (pre ++ [(j, fault)]) (calls i).contextId r = .ok (some entry) ∧
        bodyAfter calls moves (calls i).contextId r = .ok (some entry) ∧
        entry.content.lines = (calls j).entry.content.lines := by
  refine ⟨fun i j r r' => Returned.eq_iff, ?_, ?_⟩
  · rintro pre ⟨post, rfl⟩ place row hrow
    obtain ⟨hmem, rfl⟩ := Table.row_eq_some.mp hrow
    exact Table.row_of_mem (mem_rows_append hmem post)
  · intro i r h
    obtain ⟨row, hrow, hkey, hp⟩ := h.stored
    obtain ⟨pre, j, fault, post, r', hm, rfl, hf, ht⟩ := created_of_mem_rows hrow
    obtain ⟨hc, ha⟩ : (calls j).contextId = (calls i).contextId ∧
        (calls j).activityAnchor = (calls i).activityAnchor := Prod.ext_iff.mp hkey
    have hr : r' = r := by
      have hn := congrArg Prod.snd hp
      cases r
      cases hn
      rfl
    subst hr
    refine ⟨pre, j, fault, post, hm, hc, ha, ?_, readBack (calls j).entry,
      hc ▸ bodyAfter_of_mem_rows ht, hc ▸ bodyAfter_of_mem_rows hrow, rfl⟩
    rw [hp] at hf
    exact congrArg Prod.fst (perform_archiveGetBody_none hf)

/-- Both calls find no body; the second has drawn 2 when it is refused, and returns what the first stored. -/
example : let calls : Bool → AllocateCall := fun first =>
      ⟨"c", "a", "x", .new (.fromLines [if first then "1" else "2"]) "tool" none "x" "tool_result"⟩
    let moves : List (Bool × Option (Fault Failure)) :=
      [true, false, true, true, true, true, true, false, true, true, false, true, false, false].map (·, none)
    ∀ i, ((concurrently calls moves).thread i).result?.bind Except.toOption = some ⟨1, 1⟩ := by decide +kernel

end Interleavings

end AgentiumOs.Provenance
