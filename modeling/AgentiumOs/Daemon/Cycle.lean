import AgentiumOs.Daemon.State

/-! A cycle of the daemon: it loads its state, polls a source, delivers what is new and saves the
state. Nothing is saved unless the cycle comes to its end; a poll that brings nothing does not, since
there is no lineage for it. -/

namespace AgentiumOs.Daemon

open Lib

inductive DaemonError where
  | loading (source : String)
  | polling (source : String)
  | missingSourceCursor
  | building (source : String)
  | producing (source : String)
  | delivering (sink source : String)
  | noCompatibleSinks (kind : TaskSourceKind)
  | saving (source : String)
  deriving DecidableEq

/-- A sink with what it answers if it is asked in this cycle: an error, or nothing. -/
structure TaskSink where
  name : String
  acceptsSource : TaskSourceKind → Bool
  deliver : ProducedEvent → Option String

structure TaskDaemon where
  emitEmptyBatches : Bool
  maxSeenTasksPerSource : ℕ

/-- What a cycle meets: whether the state is loaded and saved, what the source polls, the answers of
the sinks, and the time. -/
structure Surroundings where
  load : Option String := none
  poll : TaskDaemonState → Except String (SourcePoll × TaskDaemonState)
  sinks : List TaskSink
  seenAt : ℕ := 0
  save : Option String := none

structure CycleOutcome where
  result : Except DaemonError ProducedEvent
  /-- The sinks that have delivered the event. -/
  delivered : List String
  deriving DecidableEq

/-- Events that were delivered before are left out. -/
def SourcePoll.unseen (poll : SourcePoll) (source : SourceState) : SourcePoll :=
  match poll.payload with
  | .slack _ => poll
  | .clickup lifecycleEvents =>
      { poll with payload := .clickup (lifecycleEvents.filter fun event => !source.hasSeenTask event.key) }

/-- Looking up the seen tasks creates the source. -/
def TaskDaemonState.touch (state : TaskDaemonState) (poll : SourcePoll) : TaskDaemonState :=
  match poll.payload with
  | .slack _ => state
  | .clickup _ => state.setSource poll.sourceKey (state.source poll.sourceKey)

/-- The sinks in their order, up to the first that fails. -/
def deliverToSinks (event : ProducedEvent) : List TaskSink → List String × Option DaemonError
  | [] => ([], none)
  | sink :: sinks =>
      if sink.acceptsSource event.sourceKind then
        match sink.deliver event with
        | some e => ([], some (.delivering sink.name e))
        | none =>
            let (delivered, error) := deliverToSinks event sinks
            (sink.name :: delivered, error)
      else deliverToSinks event sinks

def markSeen (state : TaskDaemonState) (poll : SourcePoll) (seenAt : ℕ) : TaskDaemonState :=
  match poll.payload with
  | .slack _ => state
  | .clickup lifecycleEvents =>
      state.setSource poll.sourceKey
        (lifecycleEvents.foldl (fun s event => s.markTaskSeen event.key seenAt) (state.source poll.sourceKey))

namespace TaskDaemon

variable (d : TaskDaemon)

def saved (state : TaskDaemonState) : Option TaskDaemonState := some (state.pruned d.maxSeenTasksPerSource)

/-- A cycle after its poll: what is persisted, and the outcome. -/
def publishPoll (persisted : Option TaskDaemonState) (c : Surroundings) (poll : SourcePoll) (state : TaskDaemonState) :
    Option TaskDaemonState × CycleOutcome :=
  match mintPollLineage poll with
  | none => (persisted, ⟨.error .missingSourceCursor, []⟩)
  | some lineage =>
      let pollForEvent := poll.unseen (state.source poll.sourceKey)
      let state := state.touch poll
      if pollForEvent.isEmpty && !d.emitEmptyBatches then
        match c.save with
        | some e => (persisted, ⟨.error (.saving e), []⟩)
        | none => (d.saved state, ⟨(pollToProducedEvent pollForEvent lineage).mapError .producing, []⟩)
      else
        -- there is something to deliver, or empty batches are emitted
        match pollToProducedEvent pollForEvent lineage with
        | .error e => (persisted, ⟨.error (.building e), []⟩)
        | .ok event =>
            match deliverToSinks event c.sinks with
            | (delivered, some e) => (persisted, ⟨.error e, delivered⟩)
            | (delivered, none) =>
                if !(c.sinks.any fun sink => sink.acceptsSource poll.sourceKind) && !pollForEvent.isEmpty then
                  (persisted, ⟨.error (.noCompatibleSinks poll.sourceKind), delivered⟩)
                else
                  match c.save with
                  | some e => (persisted, ⟨.error (.saving e), delivered⟩)
                  | none => (d.saved (markSeen state pollForEvent c.seenAt), ⟨.ok event, delivered⟩)

def runOnceImpl (persisted : Option TaskDaemonState) (c : Surroundings) : Option TaskDaemonState × CycleOutcome :=
  match c.load with
  | some e => (persisted, ⟨.error (.loading e), []⟩)
  | none =>
      match c.poll (persisted.getD {}) with
      | .error e => (persisted, ⟨.error (.polling e), []⟩)
      | .ok (poll, state) => d.publishPoll persisted c poll state

end TaskDaemon

/-- The names of the sinks that take events of a kind. -/
def accepting (sinks : List TaskSink) (kind : TaskSourceKind) : List String :=
  (sinks.filter fun sink => sink.acceptsSource kind).map TaskSink.name

theorem accepting_ne_nil (h : ∃ si ∈ s, si.acceptsSource k) : accepting s k ≠ [] := by
  obtain ⟨si, hm, ha⟩ := h
  exact List.ne_nil_of_mem (List.mem_map_of_mem (List.mem_filter.mpr ⟨hm, ha⟩))

theorem deliverToSinks_of_none {ev : ProducedEvent} {s : List TaskSink} (h : (deliverToSinks ev s).2 = none) :
    (deliverToSinks ev s).1 = accepting s ev.sourceKind := by
  induction s with
  | nil => rfl
  | cons si s ih =>
    rw [deliverToSinks] at h ⊢
    by_cases ha : si.acceptsSource ev.sourceKind
    · rw [if_pos ha] at h ⊢
      cases hd : si.deliver ev with
      | some e => rw [hd] at h; cases h
      | none =>
        rw [hd] at h
        simp [accepting, ha, ih h]
    · rw [if_neg ha] at h ⊢
      simp [accepting, ha, ih h]

theorem length_deliverToSinks_of_some {ev : ProducedEvent} {s : List TaskSink} {e : DaemonError}
    (h : (deliverToSinks ev s).2 = some e) :
    (deliverToSinks ev s).1.length < (accepting s ev.sourceKind).length := by
  induction s with
  | nil => cases h
  | cons si s ih =>
    rw [deliverToSinks] at h ⊢
    by_cases ha : si.acceptsSource ev.sourceKind
    · rw [if_pos ha] at h ⊢
      cases hd : si.deliver ev with
      | some e => simp [accepting, ha]
      | none =>
        rw [hd] at h
        simpa [accepting, ha] using ih h
    · rw [if_neg ha] at h ⊢
      simpa [accepting, ha] using ih h

theorem deliverToSinks_of_delivers (h : ∀ si ∈ s, ∀ e, si.deliver e = none) (e : ProducedEvent) :
    (deliverToSinks e s).2 = none := by
  induction s with
  | nil => rfl
  | cons si s ih =>
    rw [List.forall_mem_cons] at h
    rw [deliverToSinks, h.1]
    split <;> exact ih h.2

/-- What the source polled, if the state was loaded and the poll succeeded. -/
def polled (persisted : Option TaskDaemonState) (c : Surroundings) : Option (SourcePoll × TaskDaemonState) :=
  match c.load with
  | some _ => none
  | none => (c.poll (persisted.getD {})).toOption

/-- The state that the poll left is saved and the cycle succeeds if there was nothing to deliver, or if
all sinks that take the source delivered, with what they delivered marked as seen. Otherwise nothing
changes. -/
def Commits (d : TaskDaemon) (persisted : Option TaskDaemonState) (c : Surroundings) : Prop :=
  let (after, outcome) := d.runOnceImpl persisted c
  match polled persisted c with
  | none => after = persisted
  | some (poll, state) =>
      let pollForEvent := poll.unseen (state.source poll.sourceKey)
      if pollForEvent.isEmpty ∧ ¬ d.emitEmptyBatches then
        after = d.saved (state.touch poll) ∧ ∃ event, outcome.result = .ok event
      else if outcome.delivered = accepting c.sinks poll.sourceKind then
        after = d.saved (markSeen (state.touch poll) pollForEvent c.seenAt) ∧ ∃ event, outcome.result = .ok event
      else after = persisted

section

variable {d : TaskDaemon} {persisted : Option TaskDaemonState} {c : Surroundings} {poll : SourcePoll}

theorem unseen_isEmpty (h : poll.isEmpty) (s : SourceState) : (poll.unseen s).isEmpty := by
  rw [SourcePoll.isEmpty] at h
  rw [SourcePoll.unseen]
  split
  · simpa only [SourcePoll.isEmpty] using h
  · rename_i lifecycleEvents hp
    rw [hp] at h
    simp only [List.isEmpty_iff] at h
    simp [SourcePoll.isEmpty, h]

theorem sourceKind_unseen (poll : SourcePoll) (s : SourceState) :
    (poll.unseen s).sourceKind = poll.sourceKind := by
  rw [SourcePoll.unseen]
  split
  · rfl
  · rename_i lifecycleEvents hp
    simp [SourcePoll.sourceKind, hp, SourcePollPayload.sourceKind]

theorem runOnceImpl_of_not_polled (h : polled persisted c = none) :
    ∃ e, d.runOnceImpl persisted c = (persisted, ⟨.error e, []⟩) := by
  rw [polled] at h
  rw [TaskDaemon.runOnceImpl]
  cases hl : c.load with
  | some e => exact ⟨_, rfl⟩
  | none =>
    rw [hl] at h
    cases hp : c.poll (persisted.getD {}) with
    | error e => exact ⟨_, rfl⟩
    | ok result => rw [hp] at h; cases h

theorem runOnceImpl_of_polled (h : polled persisted c = some (poll, state)) :
    d.runOnceImpl persisted c = d.publishPoll persisted c poll state := by
  rw [polled] at h
  rw [TaskDaemon.runOnceImpl]
  cases hl : c.load with
  | some e => rw [hl] at h; cases h
  | none =>
    rw [hl] at h
    cases hp : c.poll (persisted.getD {}) with
    | error e => rw [hp] at h; cases h
    | ok result => rw [hp] at h; cases h; rfl

theorem publishPoll_of_isEmpty (he : poll.isEmpty) (s : TaskDaemonState) :
    d.publishPoll persisted c poll s = (persisted, ⟨.error .missingSourceCursor, []⟩) := by
  have hl : mintPollLineage poll = none := by
    rw [← Option.not_isSome_iff_eq_none, mintPollLineage_isSome_iff]
    exact fun h => h he
  rw [TaskDaemon.publishPoll, hl]

theorem publishPoll_of_nothing_new {poll : SourcePoll} {s : TaskDaemonState} (hs : c.save = none)
    (hp : ¬ poll.isEmpty) (hn : (poll.unseen (s.source poll.sourceKey)).isEmpty)
    (he : ¬ d.emitEmptyBatches) :
    ∃ e, d.publishPoll persisted c poll s = (d.saved (s.touch poll), ⟨.ok e, []⟩) := by
  obtain ⟨l, hl⟩ := Option.isSome_iff_exists.mp ((mintPollLineage_isSome_iff poll).mpr hp)
  obtain ⟨e, hev, -⟩ := pollToProducedEvent_isOk (poll.unseen (s.source poll.sourceKey)) l
  refine ⟨e, ?_⟩
  simp only [TaskDaemon.publishPoll, hl, hs, hev]
  rw [if_pos (by simp [hn, he])]
  rfl

/-- Otherwise the sinks are asked: all have delivered and the state is saved, or one has failed and
nothing changes. -/
theorem publishPoll_of_something {poll : SourcePoll} {s : TaskDaemonState} (hsa : c.save = none)
    (ha : ∃ si ∈ c.sinks, si.acceptsSource poll.sourceKind) (hp : ¬ poll.isEmpty)
    (hne : (poll.unseen (s.source poll.sourceKey)).isEmpty → d.emitEmptyBatches) :
    let pollForEvent := poll.unseen (s.source poll.sourceKey)
    ∃ ev, ev.payload = pollForEvent.payload ∧ ((d.publishPoll persisted c poll s =
          (d.saved (markSeen (s.touch poll) pollForEvent c.seenAt), ⟨.ok ev, accepting c.sinks poll.sourceKind⟩)) ∨
        ∃ e de, (deliverToSinks ev c.sinks).2 = some e ∧
          de.length < (accepting c.sinks poll.sourceKind).length ∧
          d.publishPoll persisted c poll s = (persisted, ⟨.error e, de⟩)) := by
  intro pollForEvent
  obtain ⟨l, hl⟩ := Option.isSome_iff_exists.mp ((mintPollLineage_isSome_iff poll).mpr hp)
  obtain ⟨ev, he, hk, hpa⟩ := pollToProducedEvent_isOk pollForEvent l
  rw [sourceKind_unseen] at hk
  refine ⟨ev, hpa, ?_⟩
  have han : (c.sinks.any fun si => si.acceptsSource poll.sourceKind) = true := by simpa using ha
  have hd : (pollForEvent.isEmpty && !d.emitEmptyBatches) = false := by
    cases hem : pollForEvent.isEmpty with
    | false => rfl
    | true => simp [hne hem]
  simp only [TaskDaemon.publishPoll, hl]
  rw [if_neg (by rw [hd]; decide)]
  rw [show pollToProducedEvent (poll.unseen (s.source poll.sourceKey)) l = .ok ev from he]
  dsimp only
  have hn := @deliverToSinks_of_none ev c.sinks
  have hs := @length_deliverToSinks_of_some ev c.sinks
  rw [hk] at hn hs
  generalize deliverToSinks ev c.sinks = del at hn hs ⊢
  obtain ⟨de, error⟩ := del
  cases error with
  | some e => exact .inr ⟨e, de, rfl, hs rfl, rfl⟩
  | none =>
    obtain rfl : de = accepting c.sinks poll.sourceKind := hn rfl
    exact .inl (by simp [han, hsa]; rfl)

/-- What a cycle leaves after its poll: what was persisted, or the state that the poll left, maybe
with events marked as seen. -/
theorem publishPoll_fst (poll : SourcePoll) (s : TaskDaemonState) :
    (d.publishPoll persisted c poll s).1 = persisted ∨
      (d.publishPoll persisted c poll s).1 = d.saved (s.touch poll) ∨
      (d.publishPoll persisted c poll s).1 =
        d.saved (markSeen (s.touch poll) (poll.unseen (s.source poll.sourceKey)) c.seenAt) := by
  rw [TaskDaemon.publishPoll]
  split
  · exact .inl rfl
  · dsimp only
    split
    · split
      · exact .inl rfl
      · exact .inr (.inl rfl)
    · split
      · exact .inl rfl
      · split
        · exact .inl rfl
        · split
          · exact .inl rfl
          · split
            · exact .inl rfl
            · exact .inr (.inr rfl)

/-- Where saving succeeds and some sink takes the source, a cycle commits as it should exactly if it
does not poll an empty batch that is not to be emitted. -/
theorem commits_iff (hsave : c.save = none) (haccept : ∀ poll state, polled persisted c = some (poll, state) →
      ∃ sink ∈ c.sinks, sink.acceptsSource poll.sourceKind) :
    Commits d persisted c ↔
      ∀ poll state, polled persisted c = some (poll, state) → poll.isEmpty → d.emitEmptyBatches := by
  rw [Commits]
  cases hp : polled persisted c with
  | none =>
    obtain ⟨e, he⟩ := @runOnceImpl_of_not_polled d persisted c hp
    exact ⟨fun _ _ _ h => (by cases h), fun _ => congrArg Prod.fst he⟩
  | some result =>
    obtain ⟨poll, state⟩ := result
    have hs := haccept poll state hp
    rw [runOnceImpl_of_polled hp]
    dsimp only
    by_cases hem : poll.isEmpty
    · rw [publishPoll_of_isEmpty hem]
      have hu := unseen_isEmpty hem (state.source poll.sourceKey)
      have hn := (accepting_ne_nil hs).symm
      by_cases hemi : d.emitEmptyBatches
      · simp [hemi, hn]
      · simp [hemi, hu, hem]
    · have hr : ∀ poll' state', some (poll, state) = some (poll', state') → poll'.isEmpty → d.emitEmptyBatches := by
        rintro _ _ ⟨⟩ h
        exact absurd h hem
      refine ⟨fun _ => hr, fun _ => ?_⟩
      by_cases hnew : (poll.unseen (state.source poll.sourceKey)).isEmpty ∧ ¬ d.emitEmptyBatches
      · obtain ⟨ev, heq⟩ := @publishPoll_of_nothing_new d persisted c poll state hsave hem hnew.1 hnew.2
        rw [heq, if_pos hnew]
        exact ⟨rfl, ev, rfl⟩
      · have hnew' : (poll.unseen (state.source poll.sourceKey)).isEmpty → d.emitEmptyBatches := by
          intro h
          by_contra hemi
          exact hnew ⟨h, hemi⟩
        obtain ⟨ev, -, heq | ⟨e, de, -, hl, heq⟩⟩ :=
          @publishPoll_of_something d persisted c poll state hsave hs hem hnew'
        · rw [heq, if_neg hnew, if_pos rfl]
          exact ⟨rfl, ev, rfl⟩
        · rw [heq, if_neg hnew, if_neg (fun h => hl.ne (congrArg List.length h))]

end

/-- A cycle with one sink, over a channel from which the messages are polled. -/
def channelCycle (messages : List SlackMessage) : Surroundings where
  poll state :=
    .ok (⟨"C012345678", by decide, "C012345678", .slack messages⟩,
      state.setSource "slack:C012345678" { lastSeenTs := some "1735689600.000000" })
  sinks := [⟨"stdout", fun _ => true, fun _ => none⟩]

/-- A cycle that delivers a message. -/
theorem commits_of_message :
    Commits ⟨false, 500⟩ none (channelCycle [{ ts := "1735689600.000000", text := "hi" }]) := by
  refine (commits_iff rfl fun _ _ _ => ⟨_, List.mem_cons_self, rfl⟩).mpr ?_
  rintro _ _ ⟨⟩ he
  cases he

/-- A channel without new messages: there is nothing to deliver, and the cycle fails without saving
the state. -/
theorem empty_poll_is_an_error :
    (⟨false, 500⟩ : TaskDaemon).runOnceImpl none (channelCycle []) = (none, ⟨.error .missingSourceCursor, []⟩) ∧
      ¬ Commits ⟨false, 500⟩ none (channelCycle []) := by
  refine ⟨rfl, fun hc => ?_⟩
  have hs : none = some _ := hc.1
  cases hs

end AgentiumOs.Daemon
