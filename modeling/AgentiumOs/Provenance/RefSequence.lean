import AgentiumOs.Provenance.RefCalls

/-! Calls that draw references, one after the other. Lines of the history and archived results are
numbered by counters of their own, so the first of each kind in a context has the number 1. -/

namespace AgentiumOs.Provenance

open List RefOperation RefStore Lib Lib.Program
open Tools (ShortRef)
open Archive (ArchiveEntry)

/-- A reference `#N`, or `@N` and `@p/N`. -/
inductive GivenRef where
  | history (contextId : String) (n : ℕ)
  | archive (contextId : String) (r : ShortRef)
  deriving DecidableEq

namespace GivenRef

def key : GivenRef → CounterKey
  | history contextId _ => .sessionRef contextId
  | archive contextId r => .archiveLocal contextId r.table

def number : GivenRef → ℕ
  | history _ n => n
  | archive _ r => r.index

theorem eq_of_key_of_number {g g' : GivenRef} (hk : g.key = g'.key) (hn : g.number = g'.number) : g = g' := by
  rcases g with ⟨c, n⟩ | ⟨c, p, l⟩ <;> rcases g' with ⟨c', n'⟩ | ⟨c', p', l'⟩ <;> cases hk <;> cases hn <;> rfl

end GivenRef

inductive RefCall where
  | history (contextId activityAnchor source : String)
  | archive (contextId agentId activityAnchor : String) (entry : ArchiveEntry)

def RefCall.program : RefCall → RefM GivenRef
  | history contextId activityAnchor source => do
      return .history contextId (← historyRefEnsure contextId activityAnchor source)
  | archive contextId agentId activityAnchor entry => do
      return .archive contextId (← archiveAllocateAndPut contextId agentId activityAnchor entry)

def RefStore.call (s : RefStore) (c : RefCall) : RefStore × Except ProvenanceError GivenRef :=
  (perform (serve none) c.program s).swap

/-- The references that calls on an empty store returned. -/
def given (calls : List RefCall) : List GivenRef := (Run.outputs RefStore.call .empty calls).filterMap Except.toOption

def RefStore.Recorded (s : RefStore) : GivenRef → Prop
  | .history contextId n => ∃ row ∈ s.history, row.contextId = contextId ∧ row.historyN = n
  | .archive contextId r => ∃ row ∈ s.bodies.table.rows, row.place = (contextId, r.table, r.index)

/-- A call finds a row, or draws the next number of a counter and records it. -/
inductive Answered (s : RefStore) (result : Except ProvenanceError GivenRef) (s' : RefStore) : Prop
  | recalled (hcounters : s'.counters = s.counters) (hrecorded : ∀ g, s'.Recorded g → s.Recorded g)
  | drew (key : CounterKey) (n : ℕ) (hn : n = (s.counters key).getD 0 + 1)
      (hcounters : s'.counters = Function.update s.counters key (some n))
      (hrecorded : ∀ g, s'.Recorded g → s.Recorded g ∨ g.key = key)
      (hresult : n < 2 ^ 32 → ∃ g, result = .ok g ∧ g.key = key ∧ g.number = n)

section Answered

variable {s : RefStore}

section

variable (s : RefStore) (key : CounterKey) (aa : String)

theorem perform_toU32 (reason : String) (n : ℕ) : perform (serve none) (toU32 aa reason n) s =
      (if n < 2 ^ 32 then .ok n else .error (.invalidEvent aa (reason ++ toString n)), s) := by
  unfold toU32
  split <;> rfl

def RefStore.draw : RefStore :=
  { s with counters := Function.update s.counters key (some ((s.counters key).getD 0 + 1)) }

theorem perform_nextNumber (f c : String) (left : ℕ) :
    perform (serve none) (nextNumber key aa f c (left + 1)) s =
      perform (serve none) (toU32 aa (f ++ " overflow: ") ((s.counters key).getD 0 + 1)) (s.draw key) := by
  rw [nextNumber, ask, perform_bind, perform_request, RefStore.draw]
  cases hc : s.counters key with
  | some n =>
    rw [serve_none, reply_updateCounter_some hc]
    rfl
  | none =>
    rw [serve_none, reply_updateCounter_none hc]
    dsimp only
    rw [ask, perform_bind, perform_request, serve_none, reply_createCounter_none hc]
    rfl

end

section History

variable {c x source : String}

theorem recorded_of_historyNumber (h : s.historyNumber c x source = some n) : s.Recorded (.history c n) := by
  obtain ⟨row, hr, hn⟩ := Option.map_eq_some_iff.mp h
  have hk : row.lineKey = (c, x, source) := by simpa using find?_some hr
  exact ⟨row, mem_of_find?_eq_some hr, congrArg Prod.fst hk, hn⟩

theorem perform_historyRefEnsure_some (h : s.historyNumber c x source = some n) :
    perform (serve none) (historyRefEnsure c x source) s =
      perform (serve none) (toU32 x "history_n overflow: " n) s := by
  have hreply : serve none (.selectHistory c x source) s = (.ok (some n), s) := by
    simp [serve_none, RefOperation.reply, h]
  have hlookup : perform (serve none) (historyRefLookup c x source) s =
      perform (serve none) (toU32 x "history_n overflow: " n >>= fun n => pure (some n)) s := by
    rw [historyRefLookup, ask, perform_bind, perform_request, hreply]
    rfl
  rw [historyRefEnsure, perform_bind, hlookup, perform_bind_pure, perform_toU32]
  by_cases hlt : n < 2 ^ 32
  · rw [if_pos hlt]
    rfl
  · rw [if_neg hlt]
    rfl

def historyRow (contextId activityAnchor source : String) (n : ℕ) : HistoryRow :=
  ⟨contextId, activityAnchor, source, Archive.historyStableKey ⟨activityAnchor, source⟩, n⟩

theorem perform_historyRefEnsure_none (h : s.historyNumber c x source = none)
    (hn : n = (s.counters (.sessionRef c)).getD 0 + 1) :
    perform (serve none) (historyRefEnsure c x source) s = if n < 2 ^ 32 then
        (.ok n, { s.draw (.sessionRef c) with
          history := s.history ++ [historyRow c x source n] })
      else (.error (.invalidEvent "session_ref_counter" ("next_ref overflow: " ++ toString n)),
        s.draw (.sessionRef c)) := by
  have hreply : serve none (.selectHistory c x source) s = (.ok none, s) := by
    simp [serve_none, RefOperation.reply, h]
  have hlookup : perform (serve none) (historyRefLookup c x source) s = (.ok none, s) := by
    rw [historyRefLookup, ask, perform_bind, perform_request, hreply]
    rfl
  have hnew : ∀ row ∈ s.history, row.lineKey ≠ (c, x, source) := by
    simpa [historyNumber] using h
  rw [historyRefEnsure, perform_bind, hlookup]
  dsimp only
  rw [perform_bind, sessionRefNext, writeConflictMaxAttempts, perform_nextNumber, perform_toU32, ← hn]
  by_cases hlt : n < 2 ^ 32
  · have hinsert : serve none (.insertHistory (historyRow c x source n))
        (s.draw (.sessionRef c)) = (.ok n, { s.draw (.sessionRef c) with
          history := s.history ++ [historyRow c x source n] }) :=
      reply_insertHistory_of_new hnew
    rw [if_pos hlt, if_pos hlt]
    dsimp only
    rw [ask, perform_bind, perform_request, ← historyRow, hinsert]
    dsimp only
    rw [perform_toU32, if_pos hlt]
  · rw [if_neg hlt, if_neg hlt]
    rfl

theorem answered_history (s : RefStore) (c x source : String) :
    Answered s ((perform (serve none) (historyRefEnsure c x source) s).1.map (.history c))
      (perform (serve none) (historyRefEnsure c x source) s).2 := by
  cases hfound : s.historyNumber c x source with
  | some n =>
    rw [perform_historyRefEnsure_some hfound, perform_toU32]
    exact .recalled rfl fun _ h => h
  | none =>
    rw [perform_historyRefEnsure_none hfound rfl]
    by_cases hlt : (s.counters (.sessionRef c)).getD 0 + 1 < 2 ^ 32
    · rw [if_pos hlt]
      refine .drew (.sessionRef c) _ rfl rfl ?_ fun _ => ⟨_, rfl, rfl, rfl⟩
      rintro (⟨c', n⟩ | ⟨c', r⟩) hg
      · obtain ⟨row, hrow, rfl, rfl⟩ := hg
        rcases mem_append.mp hrow with hold | hnew
        · exact .inl ⟨row, hold, rfl, rfl⟩
        · rw [mem_singleton.mp hnew]
          exact .inr rfl
      · exact .inl hg
    · rw [if_neg hlt]
      exact .drew (.sessionRef c) _ rfl rfl (fun _ hg => .inl hg) fun h => absurd h hlt

end History

section Archive

variable {c a x : String} {en : ArchiveEntry}

theorem perform_archiveGetRef_none (h : s.bodyOfAnchor c x = none) :
    perform (serve none) (archiveGetRefForActivityAnchor c x) s = (.ok none, s) := by
  have hr : serve none (.selectRef c x) s = (.ok none, s) := by
    simp [serve_none, RefOperation.reply, h]
  rw [archiveGetRefForActivityAnchor, ask, perform_bind, perform_request, hr]
  rfl

variable {row : BodyRow}

theorem perform_archiveGetRef_some (h : s.bodyOfAnchor c x = some row) :
    ∃ r, perform (serve none) (archiveGetRefForActivityAnchor c x) s = (r, s) ∧
      ∀ found, r = .ok found → found = some ⟨row.archivePrefix, row.archiveLocal⟩ := by
  have hr : serve none (.selectRef c x) s =
      (.ok (some (row.archivePrefix, row.archiveLocal)), s) := by
    simp [serve_none, RefOperation.reply, h]
  rw [archiveGetRefForActivityAnchor, ask, perform_bind, perform_request, hr]
  dsimp only
  rw [perform_bind, checkAndTakeZero, perform_pure]
  dsimp only
  rw [perform_bind, perform_toU32]
  by_cases hp : row.archivePrefix < 2 ^ 32
  · rw [if_pos hp]
    dsimp only
    rw [perform_bind_pure, perform_toU32]
    by_cases hl : row.archiveLocal < 2 ^ 32
    · rw [if_pos hl]
      refine ⟨_, rfl, ?_⟩
      rintro _ ⟨⟩
      rfl
    · rw [if_neg hl]
      exact ⟨_, rfl, by rintro _ ⟨⟩⟩
  · rw [if_neg hp]
    exact ⟨_, rfl, by rintro _ ⟨⟩⟩

theorem perform_put {r : ShortRef} (h : ∀ row ∈ s.bodies.table.rows, row.anchorKey ≠ (c, x)) :
    ∃ bodies, s.bodies.upsert (bodyRow c r a x en) = some bodies ∧
      perform (serve none) (archivePutBody c r a x en) s = (.ok (), { s with bodies }) := by
  obtain ⟨bodies, hu, hr⟩ :=
    @reply_upsertBody_of_new s (bodyRow c r a x en) h
  refine ⟨bodies, hu, ?_⟩
  rw [archivePutBody, ask, perform_bind, perform_request, serve_none, hr]
  rfl

theorem perform_archiveEnsurePrefix (h : perform (serve none) (archiveEnsurePrefix c a) s = (p, s₁)) :
    s₁.counters = s.counters ∧ s₁.bodies = s.bodies ∧ s₁.history = s.history := by
  refine (uses_archiveEnsurePrefix c a).invariant
    (fun t => t.counters = s.counters ∧ t.bodies = s.bodies ∧ t.history = s.history) ?_ h ⟨rfl, rfl, rfl⟩
  intro op t hop ht
  obtain ⟨hc, hb, hh⟩ := serve_of_onPrefixes hop none t
  rw [hc, hb, hh]
  exact ht

theorem recorded_congr {s₁ : RefStore} (hb : s₁.bodies = s.bodies) (hh : s₁.history = s.history)
    (g : GivenRef) : s₁.Recorded g ↔ s.Recorded g := by
  cases g with
  | history => rw [Recorded, hh, Recorded]
  | archive => rw [Recorded, hb, Recorded]

/-- The body of the anchor is found, there is no prefix, or a number under the prefix is drawn. -/
inductive Allocated (s : RefStore) (contextId agentId : String) (result : Except ProvenanceError ShortRef)
    (s' : RefStore) : Prop
  | found (row : BodyRow) (hrow : row ∈ s.bodies.table.rows) (hcontext : row.contextId = contextId) (hs : s' = s)
  | unprefixed (e : ProvenanceError)
      (hensured : perform (serve none) (archiveEnsurePrefix contextId agentId) s = (.error e, s'))
  | drew (p n : ℕ) (s₁ : RefStore)
      (hensured : perform (serve none) (archiveEnsurePrefix contextId agentId) s = (.ok p, s₁))
      (hn : n = (s.counters (.archiveLocal contextId p)).getD 0 + 1)
      (hs : s' = { s₁.draw (.archiveLocal contextId p) with bodies := s'.bodies })
      (hbodies : ∀ row ∈ s'.bodies.table.rows,
        row ∈ s.bodies.table.rows ∨ row.contextId = contextId ∧ row.archivePrefix = p)
      (hresult : n < 2 ^ 32 → result = .ok ⟨p, n⟩)

variable (s : RefStore) (ci : String) (ai : String) (aa : String)

theorem allocated (en : ArchiveEntry) :
    Allocated s ci ai
      (perform (serve none) (archiveAllocateAndPut ci ai aa en) s).1
      (perform (serve none) (archiveAllocateAndPut ci ai aa en) s).2 := by
  rw [archiveAllocateAndPut, perform_bind]
  cases hf : s.bodyOfAnchor ci aa with
  | some row =>
    have hk : row.anchorKey = (ci, aa) := by simpa using find?_some hf
    obtain ⟨found, hge, hro⟩ := perform_archiveGetRef_some hf
    rw [hge]
    refine .found row (mem_of_find?_eq_some hf) (congrArg Prod.fst hk) ?_
    cases found with
    | error e => rfl
    | ok found =>
      rw [hro found rfl]
      rfl
  | none =>
    have hn : ∀ row ∈ s.bodies.table.rows, row.anchorKey ≠ (ci, aa) := by
      simpa [bodyOfAnchor] using hf
    rw [perform_archiveGetRef_none hf]
    dsimp only
    rw [perform_bind]
    rcases hp : perform (serve none) (archiveEnsurePrefix ci ai) s with ⟨e | p, s₁⟩
    · exact .unprefixed e hp
    · obtain ⟨hc, hb, -⟩ := perform_archiveEnsurePrefix hp
      dsimp only
      rw [perform_bind, archiveNextLocal, writeConflictMaxAttempts, perform_nextNumber, perform_toU32, hc]
      by_cases hlt : (s.counters (.archiveLocal ci p)).getD 0 + 1 < 2 ^ 32
      · rw [if_pos hlt]
        dsimp only
        obtain ⟨b, hu, hpu⟩ := @perform_put (s₁.draw (.archiveLocal ci p)) ci ai
          aa en ⟨p, (s.counters (.archiveLocal ci p)).getD 0 + 1⟩ (hb ▸ hn)
        rw [perform_tryCatch, perform_bind, hpu]
        refine .drew p _ s₁ hp rfl rfl (fun row hr => ?_) fun _ => rfl
        replace hr : row ∈ b.table.rows := hr
        rw [Bodies.upsert_table hu] at hr
        rcases Table.mem_upsert.mp hr with rfl | ⟨ho, -⟩
        · exact .inr ⟨rfl, rfl⟩
        · exact .inl (hb ▸ ho)
      · rw [if_neg hlt]
        exact .drew p _ s₁ hp rfl rfl (fun row hr => .inl (hb ▸ hr)) fun h => absurd h hlt

theorem answered_archive (en : ArchiveEntry) :
    Answered s ((perform (serve none) (archiveAllocateAndPut ci ai aa en) s).1.map
      (.archive ci)) (perform (serve none) (archiveAllocateAndPut ci ai aa en) s).2 := by
  have hall := allocated s ci ai aa en
  generalize perform (serve none) (archiveAllocateAndPut ci ai aa en) s = out at hall ⊢
  obtain ⟨result, s'⟩ := out
  cases hall with
  | found row _ _ hs =>
    obtain rfl : s' = s := hs
    exact .recalled rfl fun _ h => h
  | unprefixed e hp =>
    obtain ⟨hc, hb, hh⟩ := perform_archiveEnsurePrefix hp
    exact .recalled hc fun g => (recorded_congr hb hh g).mp
  | drew p n s₁ hp hn hs hbo hr =>
    obtain ⟨hc, -, hh⟩ := perform_archiveEnsurePrefix hp
    refine .drew (.archiveLocal ci p) n hn ?_ ?_ fun hlt => ?_
    · rw [hs, hn, ← hc]
      rfl
    · rintro (⟨c, m⟩ | ⟨c, r⟩) hg
      · rw [hs] at hg
        obtain ⟨row, hrow, hg⟩ := hg
        exact .inl ⟨row, hh ▸ hrow, hg⟩
      · obtain ⟨row, hrow, hpl⟩ := hg
        rcases hbo row hrow with ho | ⟨rfl, rfl⟩
        · exact .inl ⟨row, ho, hpl⟩
        · obtain ⟨rfl, ht⟩ := Prod.ext_iff.mp hpl
          exact .inr (congrArg (CounterKey.archiveLocal _) (congrArg Prod.fst ht).symm)
    · exact ⟨_, congrArg _ (hr hlt), rfl, rfl⟩

end Archive

theorem call_history (s : RefStore) (c x source : String) : s.call (.history c x source) =
      ((perform (serve none) (historyRefEnsure c x source) s).2,
        (perform (serve none) (historyRefEnsure c x source) s).1.map (.history c)) := by
  rw [RefStore.call, RefCall.program, perform_bind_pure]
  rfl

theorem call_archive (s : RefStore) (c a x : String) (e : ArchiveEntry) : s.call (.archive c a x e) =
      ((perform (serve none) (archiveAllocateAndPut c a x e) s).2,
        (perform (serve none) (archiveAllocateAndPut c a x e) s).1.map (.archive c)) := by
  rw [RefStore.call, RefCall.program, perform_bind_pure]
  rfl

theorem answered (s : RefStore) (c : RefCall) : Answered s (s.call c).2 (s.call c).1 := by
  cases c with
  | history c x source =>
    rw [call_history]
    exact answered_history s c x source
  | archive c a x entry =>
    rw [call_archive]
    exact answered_archive s c a x entry

end Answered

/-- The references that were returned, against the counters that number them. -/
structure Numbered (refs : List GivenRef) (s : RefStore) : Prop where
  first : ∀ key n, s.counters key = some n → ∃ g ∈ refs, g.key = key ∧ g.number = 1
  recorded : ∀ g, s.Recorded g → s.counters g.key ≠ none

variable {result : Except ProvenanceError GivenRef}

theorem mem_toOption : g ∈ result.toOption.toList ↔ result = .ok g := by
  cases result <;> simp [Except.toOption, eq_comm]

theorem Numbered.answered (h : Numbered r s) (hst : Answered s result s') :
    Numbered (r ++ result.toOption.toList) s' := by
  have he : ∀ key n, s.counters key = some n →
      ∃ g ∈ r ++ result.toOption.toList, g.key = key ∧ g.number = 1 := by
    intro key n hn
    obtain ⟨g, hg, hf⟩ := h.first key n hn
    exact ⟨g, mem_append_left _ hg, hf⟩
  cases hst with
  | recalled hc hr =>
    refine ⟨by rwa [hc], fun g hg => ?_⟩
    rw [hc]
    exact h.recorded g (hr g hg)
  | drew key n hn hc hr hre =>
    have hs : s'.counters key ≠ none := by
      rw [hc, Function.update_self]
      exact Option.some_ne_none n
    have hk : ∀ key', s.counters key' ≠ none → s'.counters key' ≠ none := by
      intro key' hso
      by_cases heq : key' = key
      · exact heq ▸ hs
      · rwa [hc, Function.update_of_ne heq]
    refine ⟨fun key' m hm => ?_, fun g hg => ?_⟩
    · by_cases heq : key' = key
      · subst heq
        cases hco : s.counters key' with
        | some m => exact he key' m hco
        | none =>
          rw [hco] at hn
          obtain ⟨g, hg, hgk, hnu⟩ := hre (hn ▸ by decide)
          exact ⟨g, mem_append_right _ (mem_toOption.mpr hg), hgk, hnu.trans hn⟩
      · rw [hc, Function.update_of_ne heq] at hm
        exact he key' m hm
    · rcases hr g hg with ho | hne
      · exact hk _ (h.recorded g ho)
      · exact hne ▸ hs

theorem given_concat (ca : List RefCall) (c : RefCall) :
    given (ca ++ [c]) = given ca ++ ((Run.exec RefStore.call .empty ca).call c).2.toOption.toList := by
  rw [given, Run.outputs_concat, filterMap_append]
  cases ((Run.exec RefStore.call .empty ca).call c).2 <;> rfl

theorem numbered_given (ca : List RefCall) : Numbered (given ca) (Run.exec RefStore.call .empty ca) := by
  induction ca using reverseRecOn with
  | nil =>
    refine ⟨nofun, ?_⟩
    rintro (_ | _) ⟨row, hr, -⟩
    all_goals exact absurd hr not_mem_nil
  | append_singleton ca c ih =>
    rw [Run.exec_concat, given_concat]
    exact ih.answered (answered _ c)

theorem first_mem_given {calls : List RefCall} {f : GivenRef} (hnu : f.number = 1)
    (h : (Run.exec RefStore.call .empty calls).counters f.key ≠ none) : f ∈ given calls := by
  obtain ⟨n, hn⟩ := Option.ne_none_iff_exists'.mp h
  obtain ⟨g, hg, hk, hnu'⟩ := (numbered_given calls).first _ n hn
  exact GivenRef.eq_of_key_of_number hk (hnu'.trans hnu.symm) ▸ hg

section Calls

variable {s : RefStore} {contextId : String}

theorem counters_call_ne_none (c : RefCall) (h : s.counters key ≠ none) : (s.call c).1.counters key ≠ none := by
  cases answered s c with
  | recalled hc _ => rwa [hc]
  | drew key' n _ hc _ _ =>
    rw [hc, Function.update_apply]
    split_ifs
    · exact Option.some_ne_none n
    · exact h

/-- A line that is registered was numbered, another is numbered now. -/
theorem counted_of_history (h : ∀ g, s.Recorded g → s.counters g.key ≠ none) (c x source : String) :
    (s.call (.history c x source)).1.counters (.sessionRef c) ≠ none := by
  cases hf : s.historyNumber c x source with
  | some n => exact counters_call_ne_none _ (h _ (recorded_of_historyNumber hf))
  | none =>
    rw [call_history, perform_historyRefEnsure_none hf rfl]
    split_ifs <;> simp [RefStore.draw]

/-- Nothing of the context was archived. -/
structure RefStore.Fresh (s : RefStore) (contextId : String) : Prop where
  prefixes : ∀ row ∈ s.prefixes, row.contextId ≠ contextId
  cache : ∀ agentId, s.prefixCache (contextId, agentId) = none
  bodies : ∀ row ∈ s.bodies.table.rows, row.contextId ≠ contextId

/-- The first agent of a context has the prefix 1. -/
theorem RefStore.Fresh.ensurePrefix (h : s.Fresh contextId) (agentId : String) :
    (perform (serve none) (archiveEnsurePrefix contextId agentId) s).1 = .ok 1 := by
  have hof : s.prefixOf contextId agentId = none := by
    have hro : ∀ row ∈ s.prefixes, row.contextId = contextId → ¬ row.agentId = agentId :=
      fun row hr hc => absurd hc (h.prefixes row hr)
    simpa [prefixOf] using hro
  have hmax : s.maxPrefix contextId = none := by
    rw [maxPrefix, filter_eq_nil_iff.mpr (by simpa using h.prefixes)]
    rfl
  have hi : ((insertPrefix ⟨contextId, agentId, 1⟩).reply s).1 = .ok 1 := by
    have hn : ∀ q : PrefixRow → Prop, ¬ ∃ row ∈ s.prefixes, row.contextId = contextId ∧ q row :=
      fun q ⟨row, hr, hc, _⟩ => h.prefixes row hr hc
    rw [reply, if_neg (by simpa using hn _), if_neg (by simpa using hn _)]
  have hs : perform (serve none) (selectPrefix contextId agentId) s = (.ok none, s) := by
    rw [selectPrefix, ask, perform_bind, perform_request, serve_none, reply, hof]
    rfl
  rw [archiveEnsurePrefix, ask, perform_bind, perform_request, serve_none, reply, h.cache]
  dsimp only
  rw [perform_bind, hs]
  dsimp only
  rw [writeConflictMaxAttempts, mintPrefix, ask, perform_bind, perform_request, serve_none, reply, hmax]
  change (perform (serve none) (request (insertPrefix ⟨contextId, agentId, 1⟩) >>= _) s).1 = _
  rw [perform_bind, perform_request, serve_none, hi]
  rfl

/-- Calls for other contexts leave it so. -/
theorem RefStore.Fresh.of_prefixes (h : s.Fresh contextId) (hne : c ≠ contextId)
    (hp : perform (serve none) (archiveEnsurePrefix c ag) s = (r, s₁)) : s₁.Fresh contextId := by
  refine (uses_archiveEnsurePrefix c ag).invariant (RefStore.Fresh · contextId) ?_ hp h
  intro op t hop ht
  rw [serve_none]
  cases op <;> first | exact hop.elim | exact ht | skip
  case cachePrefix c' a p =>
    obtain rfl : c' = c := hop
    refine ⟨ht.prefixes, fun a' => ?_, ht.bodies⟩
    exact (Function.update_of_ne (fun heq => hne (congrArg Prod.fst heq).symm) _ _).trans (ht.cache a')
  case insertPrefix row =>
    rw [reply]
    split_ifs
    · exact ht
    · exact ht
    · refine ⟨fun o ho => ?_, ht.cache, ht.bodies⟩
      rcases mem_append.mp ho with hold | hnew
      · exact ht.prefixes o hold
      · rw [mem_singleton.mp hnew]
        exact hop ▸ hne

theorem RefStore.Fresh.archived (h : s.Fresh c) (a x : String) (ent : ArchiveEntry) :
    (s.call (.archive c a x ent)).1.counters (.archiveLocal c 1) ≠ none := by
  have hone := h.ensurePrefix a
  rw [call_archive]
  cases allocated s c a x ent with
  | found row hrow hc _ => exact absurd hc (h.bodies row hrow)
  | unprefixed e hp =>
    rw [hp] at hone
    cases hone
  | drew p n s₁ hp _ hs _ _ =>
    rw [hp] at hone
    obtain rfl : p = 1 := Except.ok.inj hone
    rw [hs]
    simp [RefStore.draw]

theorem RefStore.Fresh.call (h : s.Fresh contextId) (hc : ∀ a x entry, c ≠ .archive contextId a x entry) :
    (s.call c).1.Fresh contextId := by
  cases c with
  | history c x source =>
    rw [call_history]
    cases hf : s.historyNumber c x source with
    | some n =>
      rw [perform_historyRefEnsure_some hf, perform_toU32]
      exact h
    | none =>
      rw [perform_historyRefEnsure_none hf rfl]
      split_ifs <;> exact ⟨h.prefixes, h.cache, h.bodies⟩
  | archive c a x entry =>
    have hne : c ≠ contextId := by
      rintro rfl
      exact hc a x entry rfl
    rw [call_archive]
    cases allocated s c a x entry with
    | found row _ _ hs =>
      rw [hs]
      exact h
    | unprefixed e hp => exact h.of_prefixes hne hp
    | drew p n s₁ hp _ hs hb _ =>
      have h₁ := h.of_prefixes hne hp
      rw [hs]
      refine ⟨h₁.prefixes, h₁.cache, fun row hr => ?_⟩
      rcases hb row hr with hold | ⟨hrow, -⟩
      · exact h.bodies row hold
      · exact hrow ▸ hne

theorem counted_of_mem_history (h : .history contextId x source ∈ ca) :
    (Run.exec RefStore.call .empty ca).counters (.sessionRef contextId) ≠ none := by
  induction ca using reverseRecOn with
  | nil => cases h
  | append_singleton ca c ih =>
    rw [Run.exec_concat]
    rcases mem_append.mp h with hold | hl
    · exact counters_call_ne_none c (ih hold)
    · rw [← mem_singleton.mp hl]
      exact counted_of_history (numbered_given ca).recorded _ _ _

theorem fresh_or_counted (ca : List RefCall) (contextId : String) :
    ((Run.exec RefStore.call .empty ca).Fresh contextId ∧ ∀ a x entry, .archive contextId a x entry ∉ ca) ∨
      (Run.exec RefStore.call .empty ca).counters (.archiveLocal contextId 1) ≠ none := by
  induction ca using reverseRecOn with
  | nil => exact .inl ⟨⟨nofun, fun _ => rfl, nofun⟩, fun _ _ _ => not_mem_nil⟩
  | append_singleton ca c ih =>
    rw [Run.exec_concat]
    rcases ih with ⟨hf, hn⟩ | hco
    · by_cases hc : ∃ a x entry, c = .archive contextId a x entry
      · obtain ⟨a, x, entry, rfl⟩ := hc
        exact .inr (hf.archived a x entry)
      · push Not at hc
        refine .inl ⟨hf.call hc, fun a x entry hm => ?_⟩
        rcases mem_append.mp hm with h | hl
        · exact hn a x entry h
        · exact hc a x entry (mem_singleton.mp hl).symm
    · exact .inr (counters_call_ne_none c hco)

theorem exists_call_of_mem_given (h : g ∈ given ca) : ∃ c ∈ ca, ∃ s : RefStore, (s.call c).2 = .ok g := by
  induction ca using reverseRecOn with
  | nil => cases h
  | append_singleton ca c ih =>
    rw [given_concat] at h
    rcases mem_append.mp h with hold | hl
    · obtain ⟨c', hc', hs⟩ := ih hold
      exact ⟨c', mem_append_left _ hc', hs⟩
    · exact ⟨c, by simp, _, mem_toOption.mp hl⟩

/-- A reference is of the kind and the context of its call. -/
theorem call_of_given (h : g ∈ given calls) :
    match g with
    | .history c _ => ∃ x source, .history c x source ∈ calls
    | .archive c _ => ∃ a x entry, .archive c a x entry ∈ calls := by
  obtain ⟨c, hc, s, hs⟩ := exists_call_of_mem_given h
  cases c with
  | history c x source =>
    rw [call_history] at hs
    cases hr : (perform (serve none) (historyRefEnsure c x source) s).1 <;> rw [hr] at hs <;> cases hs
    exact ⟨x, source, hc⟩
  | archive c a x entry =>
    rw [call_archive] at hs
    cases hr : (perform (serve none) (archiveAllocateAndPut c a x entry) s).1 <;> rw [hr] at hs <;> cases hs
    exact ⟨a, x, entry, hc⟩

end Calls

/-- Lines of the history and flat references of a context never have a number in common exactly when
no line of it was numbered or nothing of it archived. -/
theorem numbers_disjoint_iff (calls : List RefCall) (contextId : String) :
    (∀ n, ¬ (.history contextId n ∈ given calls ∧ .archive contextId ⟨1, n⟩ ∈ given calls)) ↔
      (∀ activityAnchor source, .history contextId activityAnchor source ∉ calls) ∨
        ∀ agentId activityAnchor entry, .archive contextId agentId activityAnchor entry ∉ calls := by
  constructor
  · intro hd
    by_contra hb
    push Not at hb
    obtain ⟨⟨x, source, hh⟩, a, y, entry, ha⟩ := hb
    have har : (Run.exec RefStore.call .empty calls).counters (.archiveLocal contextId 1) ≠ none :=
      (fresh_or_counted calls contextId).resolve_left fun hn => hn.2 a y entry ha
    exact hd 1 ⟨first_mem_given rfl (counted_of_mem_history hh), first_mem_given rfl har⟩
  · rintro (hn | hn) n ⟨hl, hf⟩
    · obtain ⟨x, source, hc⟩ := call_of_given hl
      exact hn x source hc
    · obtain ⟨a, x, entry, hc⟩ := call_of_given hf
      exact hn a x entry hc

/-- The first line of the history and the first archived result of a context both have the number 1. -/
theorem number_given_twice : let calls : List RefCall := [.history "c" "x" "message",
      .archive "c" "a" "x" (.new (.fromLines ["ok"]) "tool" none "x" "tool_result")]
    .history "c" 1 ∈ given calls ∧ .archive "c" ⟨1, 1⟩ ∈ given calls := by
  decide +kernel

/-! ### The registry after a call -/

section Registry

/-- The statements of others that run before a statement of a call, and the fault that it meets. -/
structure Disturbance where
  others : List (Option (Fault Failure) × RefOperation)
  fault : Option (Fault Failure)

def serveOthers (s : RefStore) (others : List (Option (Fault Failure) × RefOperation)) : RefStore :=
  others.foldl (fun s other => (serve other.1 other.2 s).2) s

/-- The statements of a call are disturbed one after the other, as long as there are disturbances. -/
def serveAmong (op : RefOperation) : RefStore × List Disturbance → op.Answer × RefStore × List Disturbance
  | (s, []) => ((op.reply s).1, (op.reply s).2, [])
  | (s, d :: rest) =>
      ((serve d.fault op (serveOthers s d.others)).1, (serve d.fault op (serveOthers s d.others)).2, rest)

variable {c x source reason : String} {n : ℕ} {s : RefStore} {σ σ' : RefStore × List Disturbance}

theorem historyNumber_reply (h : s.historyNumber c x source = some n) (op : RefOperation) :
    (op.reply s).2.historyNumber c x source = some n := by
  cases op with
  | insertHistory row =>
    rw [RefOperation.reply]
    split_ifs
    · exact h
    · obtain ⟨found, hf, hn⟩ := Option.map_eq_some_iff.mp h
      rw [historyNumber, find?_append, hf]
      exact congrArg some hn
  | insertPrefix row =>
    rw [RefOperation.reply]
    split_ifs <;> exact h
  | updateCounter key | createCounter key =>
    rw [RefOperation.reply]
    split <;> exact h
  | upsertBody row =>
    rw [RefOperation.reply]
    split <;> exact h
  | _ => exact h

theorem historyNumber_serve (h : s.historyNumber c x source = some n)
    (f : Option (Fault Failure)) (op : RefOperation) :
    (serve f op s).2.historyNumber c x source = some n := by
  rcases faulty_cases RefOperation.reply refusal f op s with hs | ⟨_, _, -, hs | hs⟩ <;> rw [serve, hs]
  · exact historyNumber_reply h op
  · exact h
  · exact historyNumber_reply h op

theorem historyNumber_serveOthers (h : s.historyNumber c x source = some n)
    (o : List (Option (Fault Failure) × RefOperation)) :
    (serveOthers s o).historyNumber c x source = some n := by
  induction o generalizing s with
  | nil => exact h
  | cons ot o ih => exact ih (historyNumber_serve h ot.1 ot.2)

/-- A statement of a call runs in some state of the store, with a fault or without. -/
theorem serveAmong_eq (op : RefOperation) (σ : RefStore × List Disturbance) :
    ∃ f t, (serveAmong op σ).1 = (serve f op t).1 ∧ (serveAmong op σ).2.1 = (serve f op t).2 := by
  match σ with
  | (s, []) => exact ⟨none, s, rfl, rfl⟩
  | (s, d :: rest) => exact ⟨d.fault, serveOthers s d.others, rfl, rfl⟩

theorem perform_toU32_eq_ok (h : perform serveAmong (toU32 x reason m) σ = (.ok n, σ')) :
    m = n ∧ n < 2 ^ 32 ∧ σ = σ' := by
  unfold toU32 at h
  split_ifs at h with hm
  · cases h
    exact ⟨rfl, hm, rfl⟩
  · cases h

theorem selectHistory_ok (h : (serveAmong (.selectHistory c x source) σ).1 = .ok found) :
    (serveAmong (.selectHistory c x source) σ).2.1.historyNumber c x source = found := by
  obtain ⟨f, t, ha, ht⟩ := serveAmong_eq (.selectHistory c x source) σ
  rw [ha] at h
  rw [ht]
  rcases faulty_cases RefOperation.reply refusal f (.selectHistory c x source) t with
    hs | ⟨failure, _, ⟨⟩, hs | hs⟩ <;> rw [serve, hs] at h
  · rw [serve, hs]
    exact Except.ok.inj h
  · cases h
  · cases h

theorem insertHistory_ok (h : (serveAmong (.insertHistory row) σ).1 = .ok n) :
    (serveAmong (.insertHistory row) σ).2.1.historyNumber row.contextId row.activityAnchor row.source = some n := by
  obtain ⟨f, t, ha, ht⟩ := serveAmong_eq (.insertHistory row) σ
  rw [ha] at h
  rw [ht]
  rcases faulty_cases RefOperation.reply refusal f (.insertHistory row) t with
    hs | ⟨failure, _, ⟨⟩, hs | hs⟩ <;> rw [serve, hs] at h
  · rw [serve, hs]
    rw [RefOperation.reply] at h ⊢
    split_ifs at h ⊢ with han
    have hn : ∀ o ∈ t.history, ¬ o.lineKey = row.lineKey := by simpa using han
    obtain rfl := Except.ok.inj h
    have hno : t.history.find? (fun o => o.lineKey = (row.contextId, row.activityAnchor, row.source)) = none :=
      find?_eq_none.mpr fun o ho => decide_eq_true_iff.not.mpr (hn o ho)
    rw [historyNumber, find?_append, hno]
    simp [HistoryRow.lineKey]
  · cases h
  · cases h

theorem perform_lookup_eq_ok (h : perform serveAmong (historyRefLookup c x source) σ = (.ok f, σ')) :
    σ'.1.historyNumber c x source = f ∧ ∀ m ∈ f, m < 2 ^ 32 := by
  obtain ⟨answer, mid, hs, h⟩ := (perform_bind_eq_ok serveAmong).mp h
  obtain ⟨ha, rfl⟩ := Prod.mk.inj hs
  obtain ⟨rows, mid, hr, h⟩ := (perform_bind_eq_ok serveAmong).mp h
  match answer with
  | .error failure => cases hr
  | .ok rows' =>
    cases hr
    have hreg := selectHistory_ok (Except.ok.inj ha)
    cases rows with
    | none =>
      cases h
      exact ⟨hreg, by simp⟩
    | some m =>
      obtain ⟨m', mid, hm, h⟩ := (perform_bind_eq_ok serveAmong).mp h
      obtain ⟨rfl, hlt, rfl⟩ := perform_toU32_eq_ok hm
      cases h
      exact ⟨hreg, by simpa using hlt⟩

/-- The line is not registered, its insertion fails, and the lookup after it finds nothing. -/
def InsertMissed (contextId activityAnchor source : String) (σ : RefStore × List Disturbance) : Prop :=
  let lookup := perform serveAmong (historyRefLookup contextId activityAnchor source)
  ∃ n failure σ₁ σ₂ σ₃ σ₄, lookup σ = (.ok none, σ₁) ∧ perform serveAmong (sessionRefNext contextId) σ₁ = (.ok n, σ₂) ∧
    serveAmong
        (.insertHistory ⟨contextId, activityAnchor, source, Archive.historyStableKey ⟨activityAnchor, source⟩, n⟩)
      σ₂ = (.error failure, σ₃) ∧ lookup σ₃ = (.ok none, σ₄)

/-- A number that a call returns is that of the line, or the line was missed. -/
theorem ensure_cases (h : perform serveAmong (historyRefEnsure c x source) σ = (.ok n, σ')) :
    (σ'.1.historyNumber c x source = some n ∧ n < 2 ^ 32 ∧ ¬ InsertMissed c x source σ) ∨
      σ'.1.historyNumber c x source = none ∧ InsertMissed c x source σ := by
  obtain ⟨found, σ₁, hlo, h⟩ := (perform_bind_eq_ok serveAmong).mp h
  obtain ⟨hreg, hlt⟩ := perform_lookup_eq_ok hlo
  cases found with
  | some m =>
    cases h
    refine .inl ⟨hreg, hlt n rfl, ?_⟩
    rintro ⟨_, _, _, _, _, _, hl, -⟩
    cases hlo.symm.trans hl
  | none =>
    obtain ⟨d, σ₂, hdr, h⟩ := (perform_bind_eq_ok serveAmong).mp h
    obtain ⟨i, σ₃, hin, h⟩ := (perform_bind_eq_ok serveAmong).mp h
    obtain ⟨han, hs⟩ := Prod.mk.inj hin
    have hi := Prod.ext (y := (i, σ₃)) (Except.ok.inj han) hs
    have hmissed : InsertMissed c x source σ → (∃ f, i = .error f) ∧
        ∃ σ₄, perform serveAmong (historyRefLookup c x source) σ₃ = (.ok none, σ₄) := by
      rintro ⟨_, f, _, _, _, σ₄, hl, hd, hf, ha⟩
      cases hlo.symm.trans hl
      cases hdr.symm.trans hd
      cases hi.symm.trans hf
      exact ⟨⟨f, rfl⟩, σ₄, ha⟩
    cases i with
    | ok rowN =>
      obtain ⟨rfl, hlt, rfl⟩ := perform_toU32_eq_ok h
      have hreg := insertHistory_ok (congrArg Prod.fst hi)
      rw [hi] at hreg
      refine .inl ⟨hreg, hlt, fun hm => ?_⟩
      obtain ⟨⟨_, hf⟩, -⟩ := hmissed hm
      cases hf
    | error f =>
      have ha : perform serveAmong (historyRefLookup c x source >>= fun found =>
          pure (found.getD d)) σ₃ = (.ok n, σ') := by
        cases f with
        | statement e => exact h
        | query e =>
          dsimp only at h
          split_ifs at h
          · exact h
          · cases h
      obtain ⟨again, σ₄, hl, h⟩ := (perform_bind_eq_ok serveAmong).mp ha
      cases h
      obtain ⟨hreg, hlt⟩ := perform_lookup_eq_ok hl
      cases again with
      | some m =>
        refine .inl ⟨hreg, hlt m rfl, fun hm => ?_⟩
        obtain ⟨-, _, hl'⟩ := hmissed hm
        cases hl.symm.trans hl'
      | none => exact .inr ⟨hreg, d, f, σ₁, σ₂, σ₃, σ', hlo, hdr, hi, hl⟩

/-- A number that a call returned, whatever failed meanwhile, is that of the line for all later calls
exactly when its insertion was not missed: one that failed for another reason than a registered
line is not noticed. -/
theorem ensured_number_registered_iff {contextId activityAnchor source : String} {n : ℕ} {s s' : RefStore}
    {disturbances rest : List Disturbance}
    (h : perform serveAmong (historyRefEnsure contextId activityAnchor source) (s, disturbances) = (.ok n, s', rest)) :
    (∀ later, (serveOthers s' later).historyNumber contextId activityAnchor source = some n ∧
        (perform (serve none) (historyRefLookup contextId activityAnchor source) (serveOthers s' later)).1 =
          .ok (some n) ∧
        (perform (serve none) (historyRefEnsure contextId activityAnchor source) (serveOthers s' later)).1 = .ok n) ↔
      ¬ InsertMissed contextId activityAnchor source (s, disturbances) := by
  constructor
  · intro hall hm
    rcases ensure_cases h with ⟨-, -, hnot⟩ | ⟨hn, -⟩
    · exact hnot hm
    · exact absurd (hn.symm.trans (hall []).1) (by simp)
  · intro hnot later
    obtain ⟨hreg, hlt, -⟩ := (ensure_cases h).resolve_right fun hm => hnot hm.2
    have hlater := historyNumber_serveOthers hreg later
    refine ⟨hlater, ?_, ?_⟩
    · have hreply : serve none (.selectHistory contextId activityAnchor source) (serveOthers s' later) =
          (.ok (some n), serveOthers s' later) := by
        simp [serve_none, RefOperation.reply, hlater]
      rw [historyRefLookup, ask, perform_bind, perform_request, hreply]
      dsimp only
      rw [perform_bind, checkAndTakeZero, perform_pure]
      dsimp only
      rw [perform_bind_pure, perform_toU32, if_pos hlt]
      rfl
    · rw [perform_historyRefEnsure_some hlater, perform_toU32, if_pos hlt]

end Registry

theorem first_line_registered : (perform (serve none) (historyRefEnsure "c" "x" "message")
      (perform serveAmong (historyRefEnsure "c" "x" "message") (.empty, [])).2.1).1 = .ok 1 := by
  have h : perform serveAmong (historyRefEnsure "c" "x" "message") (.empty, []) =
      (.ok 1, (perform serveAmong (historyRefEnsure "c" "x" "message") (.empty, [])).2) := rfl
  refine ((ensured_number_registered_iff h).mpr ?_ []).2.2
  rintro ⟨n, f, σ₁, σ₂, σ₃, σ₄, hl, hd, hf, -⟩
  obtain ⟨-, rfl⟩ := Prod.mk.inj hl
  obtain ⟨hn, rfl⟩ := Prod.mk.inj hd
  cases Except.ok.inj hn
  cases (Prod.mk.inj hf).1

/-- The insertion fails and the line is looked up in vain: the number is returned, and the next call
draws another one. -/
theorem unregistered_number_returned : let faults : List Disturbance :=
      [⟨[], none⟩, ⟨[], none⟩, ⟨[], none⟩,
        ⟨[], some ⟨.statement ⟨"The query was not executed due to a timeout"⟩, false⟩⟩]
    let after := perform serveAmong (historyRefEnsure "c" "x" "message") (.empty, faults)
    after.1 = .ok 1 ∧ after.2.1.historyNumber "c" "x" "message" = none ∧
      (perform (serve none) (historyRefEnsure "c" "x" "message") after.2.1).1 = .ok 2 := by
  decide +kernel

end AgentiumOs.Provenance
