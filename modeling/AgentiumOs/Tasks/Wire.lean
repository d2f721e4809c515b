import AgentiumOs.Lib.Listing
import AgentiumOs.Lib.Word
import AgentiumOs.Tasks.Status

/-! The wire side of the tasks: the status as it is sent, the pages of a list of tasks, the
sessions of live streams, previews of long texts, and the time that a task waits for input. -/

namespace AgentiumOs.Tasks

open Lib List TaskStatusKind

/-! ### Statuses -/

def TaskStatusKind.asWireStr : TaskStatusKind → String
  | submitted => "TASK_STATE_SUBMITTED"
  | working => "TASK_STATE_WORKING"
  | inputRequired _ => "TASK_STATE_INPUT_REQUIRED"
  | authRequired => "TASK_STATE_AUTH_REQUIRED"
  | completed => "TASK_STATE_COMPLETED"
  | failed _ => "TASK_STATE_FAILED"
  | canceled => "TASK_STATE_CANCELED"
  | rejected => "TASK_STATE_REJECTED"

def promptToStatusMessage (prompt : String) : StatusMessage := ⟨[some prompt]⟩

def statusKindToWireStatus (kind : TaskStatusKind) : TaskStatus where
  state := some (.string kind.asWireStr)
  message := match kind with
    | .inputRequired prompt => some (promptToStatusMessage prompt)
    | _ => none
  extra := match kind with
    | .failed reason => Finmap.singleton "error_reason" (some reason.text)
    | _ => ∅

/-- The text that a status carries. -/
def TaskStatusKind.payload : TaskStatusKind → Option String
  | inputRequired prompt => some prompt
  | failed reason => some reason.text
  | _ => none

theorem transcriptText_prompt (p : String) : transcriptTextFromWireStatusMessage (promptToStatusMessage p) =
      if Text.trim p = "" then none else some (Text.trim p) := by
  by_cases h : Text.trim p = "" <;> simp [transcriptTextFromWireStatusMessage, promptToStatusMessage, h]

/-- Reading a status back trims its text, and rejects a prompt without one. -/
theorem status_read_back_iff (kind : TaskStatusKind) :
    wireStatusToKind (statusKindToWireStatus kind) = .ok kind ↔
      ∀ text, kind.payload = some text → Text.trim text = text ∧ text ≠ "" := by
  cases kind with
  | inputRequired prompt =>
    simp only [wireStatusToKind, statusKindToWireStatus, statusToString, asWireStr, Option.map_some,
      Option.bind_some, transcriptText_prompt, payload, Option.some.injEq, forall_eq']
    by_cases h : Text.trim prompt = ""
    · simp [h]
    · simp only [if_neg h, Except.ok.injEq, inputRequired.injEq]
      exact ⟨fun ht => ⟨ht, ht ▸ h⟩, And.left⟩
  | failed r =>
    obtain ⟨text, hb⟩ := r
    have h : Text.trim text ≠ "" := by simpa using hb
    have hr : reasonFromExtra (Finmap.singleton "error_reason" (some text)) = some (Text.trim text) := by
      simp [reasonFromExtra, h]
    have hk : wireStatusToKind (statusKindToWireStatus (.failed ⟨text, hb⟩)) =
        .ok (.failed ⟨Text.trim text, by rwa [Text.trim_trim]⟩) := by
      simp [wireStatusToKind, statusToString, statusKindToWireStatus, asWireStr, parseFailedReason,
        hr, NonEmptyString.new, Text.trim_trim, h, Except.map]
    simp only [hk, Except.ok.injEq, failed.injEq, NonEmptyString.mk.injEq, payload, Option.some.injEq, forall_eq']
    exact ⟨fun ht => ⟨ht, ht ▸ h⟩, And.left⟩
  | _ => simp [wireStatusToKind, statusKindToWireStatus, statusToString, payload,
      asWireStr, parseTagOnlyTaskStatusKind]

theorem indented_prompt_changed :
    wireStatusToKind (statusKindToWireStatus (.inputRequired " Which file?")) = .ok (.inputRequired "Which file?") := by
  decide

/-! ### Pages of a list -/

structure ListTasksRequest where
  status : Option TaskState
  pageSize : Option ℕ
  pageToken : Option String

structure ListTasksResponse (τ : Type) where
  tasks : List τ
  nextPageToken : Option String
  totalSize : ℕ
  pageSize : ℕ

section

variable {τ : Type} (state : τ → Option TaskState) (tasks : List τ) (request : ListTasksRequest)

def matchingTasks : List τ :=
  match request.status with
  | some status => tasks.filter fun task => state task = some status
  | none => tasks

def ListTasksRequest.start : ℕ := (request.pageToken.bind (Text.parseUnsigned (2 ^ 64 - 1))).getD 0

def list : ListTasksResponse τ :=
  let tasks := matchingTasks state tasks request
  let pageSize := request.pageSize.getD 50
  let stop := min (request.start + pageSize) tasks.length
  { tasks := if request.start < tasks.length then (tasks.take stop).drop request.start else []
    nextPageToken := if stop < tasks.length then some (toString stop) else none
    totalSize := tasks.length
    pageSize }

/-- The tasks of the pages from this one on, if no more than `fuel` of them come. -/
def followPages (request : ListTasksRequest) : ℕ → Option (List τ)
  | 0 => none
  | fuel + 1 =>
      match (list state tasks request).nextPageToken with
      | none => some (list state tasks request).tasks
      | some token =>
          (followPages { request with pageToken := some token } fuel).map ((list state tasks request).tasks ++ ·)

variable {tasks request}

theorem start_toString (request : ListTasksRequest) (h : n < 2 ^ 64) :
    ListTasksRequest.start { request with pageToken := some (toString n) } = n := by
  have hn := (Text.numeral_iff.mp (Listing.numeral_repr (Nat.le_pred_of_lt h))).1
  rw [String.ofList_toList] at hn
  exact congrArg (Option.getD · 0) hn

theorem followPages_last (h : (matchingTasks state tasks request).length ≤ request.start + request.pageSize.getD 50) :
    followPages state tasks request (n + 1) = some ((matchingTasks state tasks request).drop request.start) := by
  simp only [followPages, list, Nat.min_eq_right h, lt_irrefl, if_false, take_length]
  split
  · rfl
  · rw [drop_eq_nil_of_le (by omega)]

theorem followPages_eq_drop (hl : (matchingTasks state tasks request).length < 2 ^ 64)
    (hp : 0 < request.pageSize.getD 50) (hn : (matchingTasks state tasks request).length ≤ request.start + n) :
    followPages state tasks request (n + 1) = some ((matchingTasks state tasks request).drop request.start) := by
  induction n generalizing request with
  | zero => exact followPages_last state (Nat.le_add_right_of_le hn)
  | succ n ih =>
    rcases Nat.lt_or_ge (request.start + request.pageSize.getD 50) (matchingTasks state tasks request).length
      with hm | hm
    · have hst := start_toString request (hm.trans hl)
      have hr := @ih { request with pageToken := some (toString (request.start + request.pageSize.getD 50)) } hl hp
        (by rw [hst]; exact hn.trans (by omega))
      rw [hst] at hr
      rw [followPages]
      simp only [list, Nat.min_eq_left hm.le, if_pos hm, hr, Option.map_some]
      rw [if_pos (by omega), drop_take, Nat.add_sub_cancel_left, ← drop_drop]
      exact congrArg some (take_append_drop ..)
    · exact followPages_last state hm

theorem followPages_stuck (h : matchingTasks state tasks request ≠ []) (hp : request.pageSize = some 0)
    (hs : request.start = 0) (fuel : ℕ) : followPages state tasks request fuel = none := by
  induction fuel generalizing request with
  | zero => rfl
  | succ fuel ih =>
    have hn : (list state tasks request).nextPageToken = some (toString 0) := by
      simp [list, hs, hp, length_pos_iff.mpr h]
    have hi : followPages state tasks { request with pageToken := some (toString 0) } fuel = none :=
      ih h hp (start_toString request (by decide))
    rw [followPages, hn]
    simp only [hi, Option.map_none]

/-- Following the tokens lists the matching tasks, each once, unless no task fits on a page. -/
theorem pages_list_tasks_iff (hl : tasks.length < 2 ^ 64) (hs : request.pageToken = none) :
    (∃ fuel, followPages state tasks request fuel = some (matchingTasks state tasks request)) ↔
      request.pageSize ≠ some 0 ∨ matchingTasks state tasks request = [] := by
  have hst : request.start = 0 := by simp [ListTasksRequest.start, hs]
  have hm : (matchingTasks state tasks request).length ≤ tasks.length := by
    unfold matchingTasks
    split
    · exact length_filter_le ..
    · rfl
  constructor
  · rintro ⟨fuel, h⟩
    by_contra hn
    rw [not_or, not_not] at hn
    rw [followPages_stuck state hn.2 hn.1 hst] at h
    cases h
  · rintro (hp | he)
    · have hs : 0 < request.pageSize.getD 50 := by
        cases h : request.pageSize with
        | none => decide
        | some size => exact Nat.pos_of_ne_zero fun hz => hp (h.trans (congrArg some hz))
      refine ⟨(matchingTasks state tasks request).length + 1, ?_⟩
      rw [followPages_eq_drop state (hm.trans_lt hl) hs (Nat.le_add_left ..), hst, drop_zero]
    · refine ⟨1, ?_⟩
      simp [followPages, list, he]

theorem two_pages_list_tasks :
    ∃ fuel, followPages (fun _ => none) [1, 2, 3] ⟨none, some 2, none⟩ fuel = some [1, 2, 3] :=
  (pages_list_tasks_iff _ (by decide) rfl).mpr (.inl (by decide))

theorem empty_pages_never_end : ¬ ∃ fuel, (followPages (fun _ => none) [1] ⟨none, some 0, none⟩ fuel).isSome := by
  rintro ⟨fuel, h⟩
  rw [followPages_stuck _ (by decide) rfl rfl] at h
  cases h

end

/-! ### Previews -/

/-- The last character boundary at or before byte `n`. -/
def floorBoundary (cs : List Char) : ℕ → ℕ
  | 0 => 0
  | n + 1 => if (Text.takeBytes cs (n + 1)).isSome then n + 1 else floorBoundary cs n

def truncateUtf8Owned (s : String) (maxBytes : ℕ) : String :=
  if s.utf8ByteSize ≤ maxBytes then s
  else String.ofList ((Text.takeBytes s.toList (floorBoundary s.toList (maxBytes - 1))).getD []) ++ "…"

theorem isSome_takeBytes_floorBoundary (cs : List Char) (n : ℕ) : (Text.takeBytes cs (floorBoundary cs n)).isSome := by
  induction n with
  | zero => simp [floorBoundary, Text.takeBytes]
  | succ n ih =>
    rw [floorBoundary]
    split
    · assumption
    · exact ih

theorem utf8ByteSize_takeBytes (h : Text.takeBytes cs n = some t) : (String.ofList t).utf8ByteSize = n := by
  fun_induction Text.takeBytes cs n generalizing t with
  | case1 => cases h; rfl
  | case2 => cases h
  | case3 c cs n hle ih =>
    obtain ⟨rest, hr, rfl⟩ := Option.map_eq_some_iff.mp h
    have := ih hr
    rw [String.utf8ByteSize_ofList] at this ⊢
    simp [String.utf8Len] at *
    omega
  | case4 => cases h

/-- A text that is cut gets the three bytes of an ellipsis after the cut, for which one byte was left. -/
theorem preview_fits_iff (s : String) (maxBytes : ℕ) :
    (s.utf8ByteSize ≤ maxBytes → truncateUtf8Owned s maxBytes = s) ∧
      ((truncateUtf8Owned s maxBytes).utf8ByteSize ≤ maxBytes ↔
        s.utf8ByteSize ≤ maxBytes ∨ floorBoundary s.toList (maxBytes - 1) + 3 ≤ maxBytes) := by
  refine ⟨fun h => if_pos h, ?_⟩
  rw [truncateUtf8Owned]
  split
  · simp [*]
  · rename_i hl
    obtain ⟨taken, ht⟩ := Option.isSome_iff_exists.mp (isSome_takeBytes_floorBoundary s.toList (maxBytes - 1))
    rw [ht, Option.getD_some, String.utf8ByteSize_append, utf8ByteSize_takeBytes ht]
    simp only [hl, false_or]
    rfl

theorem preview_exceeds_limit : truncateUtf8Owned "aaaa" 3 = "aa…" ∧ "aa…".utf8ByteSize = 5 := by
  decide

/-! ### Live streams -/

structure LiveStreamSessionKey where
  text : String
  deriving DecidableEq

def LiveStreamSessionKey.fromContextAndTask (contextId : String) : Option String → LiveStreamSessionKey
  | some taskId => ⟨contextId ++ "::" ++ taskId⟩
  | none => ⟨contextId⟩

/-- A session as far as a relayed chunk goes: the channel that is open while its stream runs. -/
structure LiveStreamSession where
  relayTx : Option ℕ

open LiveStreamSessionKey in
/-- The session whose channel gets the chunk: that of the task, or else that of the context. -/
def pushRelayChunk (sessions : LiveStreamSessionKey → Option LiveStreamSession) (contextId : String)
    (taskId : Option String) : Option LiveStreamSessionKey :=
  [fromContextAndTask contextId taskId, fromContextAndTask contextId none].find?
    fun key => ((sessions key).bind (·.relayTx)).isSome

namespace LiveStreamSessionKey

theorem prefix_key (c : String) (t : Option String) :
    (c ++ "::").toList <+: ((fromContextAndTask c t).text ++ "::").toList := by
  cases t with
  | none => exact prefix_rfl
  | some t => exact ⟨t.toList ++ "::".toList, by simp [fromContextAndTask]⟩

theorem task_eq (h : fromContextAndTask c t = fromContextAndTask c u) : t = u := by
  have hl := congrArg (fun key => key.text.toList) h
  cases t with
  | none =>
    cases u with
    | none => rfl
    | some u => simp [fromContextAndTask] at hl
  | some t =>
    cases u with
    | none => simp [fromContextAndTask] at hl
    | some u => simpa [fromContextAndTask, String.toList_inj] using hl

end LiveStreamSessionKey

open LiveStreamSessionKey

/-- Keys of two contexts never meet exactly when neither context, with the separator after it,
begins the other. -/
theorem relayed_chunk_stays_iff (c d : String) :
    (∀ t u, (fromContextAndTask c t = fromContextAndTask d u → c = d ∧ t = u) ∧
      ∀ sessions, pushRelayChunk sessions c t = some (fromContextAndTask d u) → d = c ∧ (u = t ∨ u = none)) ↔
    c = d ∨ ¬ (c ++ "::").toList <+: (d ++ "::").toList ∧ ¬ (d ++ "::").toList <+: (c ++ "::").toList := by
  constructor
  · intro h
    by_contra! hne
    obtain ⟨hcd, hp⟩ := hne
    by_cases hc : (c ++ "::").toList <+: (d ++ "::").toList
    · -- the rest of the longer text is a task of the shorter context
      obtain ⟨r, hr⟩ := hc
      refine hcd ((h (some (String.ofList r)) (some "")).1 ?_).1
      simp [fromContextAndTask, ← String.toList_inj, ← hr]
    · obtain ⟨r, hr⟩ := hp hc
      refine hcd ((h (some "") (some (String.ofList r))).1 ?_).1
      simp [fromContextAndTask, ← String.toList_inj, ← hr]
  · intro hcd
    have hi : ∀ t u, fromContextAndTask c t = fromContextAndTask d u → c = d ∧ t = u := by
      intro t u hk
      rcases hcd with rfl | ⟨hc, hd⟩
      · exact ⟨rfl, task_eq hk⟩
      · rcases prefix_or_prefix_of_prefix (prefix_key c t) (hk ▸ prefix_key d u) with hp | hp
        · exact absurd hp hc
        · exact absurd hp hd
    refine fun t u => ⟨hi t u, fun sessions h => ?_⟩
    have hm := mem_of_find?_eq_some h
    simp only [mem_cons, not_mem_nil, or_false] at hm
    rcases hm with hm | hm
    · obtain ⟨rfl, rfl⟩ := hi t u hm.symm
      exact ⟨rfl, .inl rfl⟩
    · obtain ⟨rfl, rfl⟩ := hi none u hm.symm
      exact ⟨rfl, .inr rfl⟩

theorem stream_keys_collide : fromContextAndTask "a" (some "b") = fromContextAndTask "a::b" none := by
  decide

/-! ### The time a task waits for input -/

structure StatusRow where
  newStatus : String
  timestampMs : ℕ

def IR : String := "TASK_STATE_INPUT_REQUIRED"

/-- The loop over the rows, with the waiting time of those before. -/
def computeInputRequiredWaitMs (taskStartMs terminalTs wait : ℕ) : List StatusRow → ℕ
  | [] => wait
  | row :: rows =>
      computeInputRequiredWaitMs taskStartMs terminalTs
        (if row.newStatus = IR then
          let t0 := max row.timestampMs taskStartMs
          let t1 := ((rows.find? (t0 < ·.timestampMs)).map (·.timestampMs)).getD terminalTs
          Word.saturatingAdd 64 wait (t1 - t0)
        else wait) rows

/-- The status of the last row at or before a time. -/
def stateAt (rows : List StatusRow) (t : ℕ) : Option String :=
  (rows.filter (·.timestampMs ≤ t)).getLast?.map (·.newStatus)

/-- The milliseconds between start and terminal time at which the status requires input. -/
def waited (rows : List StatusRow) (start terminal : ℕ) : ℕ :=
  ∑ t ∈ Finset.Ico start terminal, if stateAt rows t = some IR then 1 else 0

theorem waited_le (r : List StatusRow) (start t : ℕ) : waited r start t ≤ t - start := by
  rw [waited, ← Finset.card_filter, ← Nat.card_Ico]
  exact Finset.card_filter_le ..

theorem waited_concat (hs : s ≤ row.timestampMs) (ht : row.timestampMs ≤ te) : waited (r ++ [row]) s te =
      waited r s row.timestampMs + if row.newStatus = IR then te - row.timestampMs else 0 := by
  have hst (t : ℕ) : stateAt (r ++ [row]) t =
      if row.timestampMs ≤ t then some row.newStatus else stateAt r t := by
    by_cases h : row.timestampMs ≤ t <;> simp [stateAt, h]
  rw [waited, ← Finset.sum_Ico_consecutive _ hs ht]
  congr 1
  · refine Finset.sum_congr rfl fun t h => ?_
    rw [hst, if_neg (not_le.mpr (Finset.mem_Ico.mp h).2)]
  · rw [Finset.sum_congr rfl fun t h => by rw [hst, if_pos (Finset.mem_Ico.mp h).1]]
    by_cases h : row.newStatus = IR <;> simp [h]

/-- What the loop adds for its rows, without the bound of the counter. -/
def waits (start terminal : ℕ) : List StatusRow → ℕ
  | [] => 0
  | row :: rows =>
      (if row.newStatus = IR then
        ((rows.find? (max row.timestampMs start < ·.timestampMs)).map (·.timestampMs)).getD terminal -
          max row.timestampMs start
      else 0) + waits start terminal rows

theorem compute_eq_min (h : w ≤ Word.maxValue 64) : computeInputRequiredWaitMs s t w r =
    min (w + waits s t r) (Word.maxValue 64) := by
  induction r generalizing w with
  | nil => exact (min_eq_left h).symm
  | cons row r ih =>
    rw [computeInputRequiredWaitMs, waits, ih]
    · split
      · rw [Word.saturatingAdd]
        omega
      · omega
    · split
      · exact Nat.min_le_right ..
      · exact h

/-- A further row ends the waits before it, but those that began at its own time last on. -/
theorem waits_concat (h : ∀ a ∈ r, s ≤ a.timestampMs ∧ a.timestampMs ≤ row.timestampMs) :
    waits s t (r ++ [row]) = waits s row.timestampMs r + waits s t [row] +
      r.countP (fun a => a.newStatus = IR ∧ a.timestampMs = row.timestampMs) * (t - row.timestampMs) := by
  induction r with
  | nil => simp [waits]
  | cons a r ih =>
    obtain ⟨⟨hs, hl⟩, h⟩ := forall_mem_cons.mp h
    rw [cons_append, waits, waits, ih h, countP_cons]
    by_cases hi : a.newStatus = IR
    · rw [if_pos hi, if_pos hi, max_eq_left hs, find?_append]
      cases hf : r.find? (a.timestampMs < ·.timestampMs) with
      | some b =>
        have hb := (h b (mem_of_find?_eq_some hf)).2
        have hlt : a.timestampMs < b.timestampMs := by simpa using find?_some hf
        simp [hi, (hlt.trans_le hb).ne]
        omega
      | none =>
        rcases hl.lt_or_eq with hlt | heq
        · simp [hi, hlt, hlt.ne]
          omega
        · simp [hi, heq, Nat.add_mul]
          omega
    · simp [hi]

/-- The loop adds what was waited, and more for a row whose time another row has after it. -/
theorem waits_eq_waited_iff (hs : r.Pairwise (·.timestampMs ≤ ·.timestampMs))
    (hr : ∀ row ∈ r, s ≤ row.timestampMs ∧ row.timestampMs ≤ terminal) :
    waited r s terminal ≤ waits s terminal r ∧ (waits s terminal r = waited r s terminal ↔
        r.Pairwise fun a b => a.newStatus = IR → a.timestampMs < b.timestampMs ∨ a.timestampMs = terminal) := by
  induction r using reverseRecOn generalizing terminal with
  | nil => simp [waits, waited, stateAt]
  | append_singleton r row ih =>
    obtain ⟨hp, -, hl⟩ := pairwise_append.mp hs
    obtain ⟨hst, hte⟩ := hr row (by simp)
    replace hr (a) (ha : a ∈ r) := And.intro (hr a (mem_append_left _ ha)).1 (hl a ha row mem_cons_self)
    obtain ⟨hle, hi⟩ := ih hp hr
    have hrow : waits s terminal [row] = if row.newStatus = IR then terminal - row.timestampMs else 0 := by
      simp [waits, max_eq_left hst]
    rw [waits_concat hr, waited_concat hst hte, hrow, pairwise_append]
    refine ⟨by omega, ?_⟩
    simp only [pairwise_singleton, true_and, mem_singleton, forall_eq]
    rcases hte.eq_or_lt with rfl | hlt
    · rw [Nat.sub_self, Nat.mul_zero, Nat.add_zero, Nat.add_right_cancel_iff, hi]
      exact (and_iff_left fun a ha _ => (hr a ha).2.lt_or_eq).symm
    · have hc : r.countP (fun a => a.newStatus = IR ∧ a.timestampMs = row.timestampMs) *
          (terminal - row.timestampMs) = 0 ↔
            ∀ a ∈ r, a.newStatus = IR → a.timestampMs < row.timestampMs ∨ a.timestampMs = terminal := by
        rw [Nat.mul_eq_zero, or_iff_left (by omega), countP_eq_zero]
        refine forall₂_congr fun a ha => ?_
        have := (hr a ha).2
        grind
      rw [← hc]
      trans waits s row.timestampMs r = waited r s row.timestampMs ∧
        r.countP (fun a => a.newStatus = IR ∧ a.timestampMs = row.timestampMs) * (terminal - row.timestampMs) = 0
      · omega
      rw [hi, hc]
      refine and_congr_left fun h => Pairwise.iff_of_mem fun {a b} ha _ => ?_
      have := h a ha
      have := (hr a ha).2
      grind

/-- The loop gives the time that was waited exactly when no row that requires input has, before
the terminal time, the time of a row after it. -/
theorem wait_is_time_waited_iff {rows : List StatusRow} {start terminal : ℕ}
    (hs : rows.Pairwise (·.timestampMs ≤ ·.timestampMs))
    (hr : ∀ row ∈ rows, start ≤ row.timestampMs ∧ row.timestampMs ≤ terminal) (ht : terminal < 2 ^ 64) :
    (computeInputRequiredWaitMs start terminal 0 rows = waited rows start terminal ∧
      computeInputRequiredWaitMs start terminal 0 rows ≤ terminal - start) ↔
    (rows.Pairwise fun a b => a.newStatus = IR → a.timestampMs < b.timestampMs ∨ a.timestampMs = terminal) ∨
      waited rows start terminal = 2 ^ 64 - 1 := by
  obtain ⟨hle, h⟩ := waits_eq_waited_iff hs hr
  have hw := waited_le rows start terminal
  have hm : Word.maxValue 64 = 2 ^ 64 - 1 := rfl
  rw [compute_eq_min (Nat.zero_le _), ← h, hm]
  omega

theorem answered_request_waited : computeInputRequiredWaitMs 0 10 0 [⟨IR, 5⟩, ⟨"TASK_STATE_WORKING", 8⟩] = 3 ∧
      waited [⟨IR, 5⟩, ⟨"TASK_STATE_WORKING", 8⟩] 0 10 = 3 :=
  have h : computeInputRequiredWaitMs 0 10 0 [⟨IR, 5⟩, ⟨"TASK_STATE_WORKING", 8⟩] = 3 := by decide
  ⟨h, ((wait_is_time_waited_iff (by decide) (by decide) (by decide)).mpr (.inl (by decide))).1.symm.trans h⟩

theorem repeated_request_counted_twice :
    computeInputRequiredWaitMs 5 10 0 [⟨IR, 5⟩, ⟨IR, 5⟩] = 10 ∧ waited [⟨IR, 5⟩, ⟨IR, 5⟩] 5 10 = 5 := by
  decide

end AgentiumOs.Tasks
