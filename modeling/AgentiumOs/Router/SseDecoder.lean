import AgentiumOs.Lib.Cutter
import AgentiumOs.Lib.Framing
import AgentiumOs.Lib.Text

/-! Server-sent events of a forwarded request (`a2a_sse.rs`, `forward.rs`). The decoder keeps the
bytes of the event that is not complete yet; each chunk of the body may complete several events,
and the reader of the body hands their values to the consumer chunk by chunk. -/

namespace AgentiumOs.Router

open Lib List

inductive A2aSseParseError (JsonError : Type) where
  | utf8 (bytes : List UInt8)
  | json (e : JsonError)
  deriving DecidableEq

/-- The length of the delimiter at the front of a buffer: two line feeds, or two line ends with
carriage returns. -/
def delimiterAt (buf : List UInt8) : Option ℕ :=
  if [10, 10].isPrefixOf buf then some 2
  else if [13, 10, 13, 10].isPrefixOf buf then some 4
  else none

/-- Where the first event of a buffer ends, and the length of the delimiter behind it. -/
def findEventDelimiter : List UInt8 → Option (ℕ × ℕ)
  | [] => none
  | b :: rest =>
      match delimiterAt (b :: rest) with
      | some n => some (0, n)
      | none => (findEventDelimiter rest).map fun (i, n) => (i + 1, n)

/-- `str::replace` of the line ends with carriage returns. -/
def normalized : List Char → List Char
  | '\r' :: '\n' :: cs => '\n' :: normalized cs
  | c :: cs => c :: normalized cs
  | [] => []

def dataLine (line : String) : Option String :=
  (Text.withoutLead (Text.trimEndMatches line '\r') "data:").map fun rest =>
    String.ofList (rest.toList.dropWhile Text.isWhitespace)

def parseSseEventPayload (rawEvent : String) : Option String :=
  let rawEvent := Text.trim (String.ofList (normalized rawEvent.toList))
  if rawEvent = "" then none
  else
    let dataLines := (Text.lines rawEvent).filterMap dataLine
    if dataLines.isEmpty then none else some ("\n".intercalate dataLines)

variable {Value JsonError : Type} (fromStr : String → Except JsonError Value)

def parseSseEventBytes (eventBytes : List UInt8) : Except (A2aSseParseError JsonError) (Option Value) :=
  match String.fromUTF8? eventBytes.toByteArray with
  | none => .error (.utf8 eventBytes)
  | some rawEvent =>
      match parseSseEventPayload rawEvent with
      | none => .ok none
      | some payload =>
          match fromStr payload with
          | .error e => .error (.json e)
          | .ok value => .ok (some value)

variable {buf rest event : List UInt8} {n : ℕ} {r : ℕ × ℕ} {values : List Value} {limit : Option ℕ}

theorem delimiterAt_bounds (h : delimiterAt buf = some n) : 0 < n ∧ n ≤ buf.length := by
  unfold delimiterAt at h
  split_ifs at h with hlf hc
  · cases h
    have := (List.isPrefixOf_iff_prefix.mp hlf).length_le
    simpa using this
  · cases h
    have := (List.isPrefixOf_iff_prefix.mp hc).length_le
    simpa using this

theorem findEventDelimiter_bounds (h : findEventDelimiter buf = some (i, n)) : 0 < n ∧ i + n ≤ buf.length := by
  induction buf generalizing i with
  | nil => cases h
  | cons b rest ih =>
    rw [findEventDelimiter] at h
    cases hat : delimiterAt (b :: rest) with
    | some m =>
      simp only [hat, Option.some.injEq, Prod.mk.injEq] at h
      have := delimiterAt_bounds hat
      omega
    | none =>
      simp only [hat, Option.map_eq_some_iff, Prod.exists] at h
      obtain ⟨j, m, hr, hj, rfl⟩ := h
      have := ih hr
      simp only [length_cons]
      omega

theorem delimiterAt_append (h : delimiterAt buf = some n) (m : List UInt8) :
    delimiterAt (buf ++ m) = some n := by
  unfold delimiterAt at h ⊢
  split_ifs at h with hlf hc
  · obtain ⟨rest, rfl⟩ := isPrefixOf_iff_prefix.mp hlf
    simpa using h
  · obtain ⟨rest, rfl⟩ := isPrefixOf_iff_prefix.mp hc
    simpa using h

/-- A delimiter that is complete is not part of one that only begins before it. -/
theorem delimiterAt_append_of_find (hat : delimiterAt (b :: rest) = none) (hf : findEventDelimiter rest = some r)
    (m : List UInt8) : delimiterAt (b :: rest ++ m) = none := by
  unfold delimiterAt at hat ⊢
  rcases rest with _ | ⟨c, _ | ⟨d, _ | ⟨e, rest⟩⟩⟩
  · cases hf
  · simp [findEventDelimiter, delimiterAt] at hf
  · simp_all [findEventDelimiter, delimiterAt]
    grind
  · simp_all [isPrefixOf]

theorem findEventDelimiter_append (h : findEventDelimiter buf = some r) (m : List UInt8) :
    findEventDelimiter (buf ++ m) = some r := by
  induction buf generalizing r with
  | nil => cases h
  | cons b rest ih =>
    rw [findEventDelimiter] at h
    rw [cons_append, findEventDelimiter, ← cons_append]
    cases hat : delimiterAt (b :: rest) with
    | some n =>
      rw [hat] at h
      rw [delimiterAt_append hat]
      exact h
    | none =>
      simp only [hat, Option.map_eq_some_iff] at h
      obtain ⟨r', hre, hr⟩ := h
      rw [delimiterAt_append_of_find hat hre]
      simp [ih hre, hr]

/-- Events are cut off at the first delimiter, which is dropped. -/
def eventCutter : Cutter UInt8 where
  cut buf := (findEventDelimiter buf).map fun (i, n) => (buf.take i, (buf.drop i).drop n)
  shorter {xs piece rest} h := by
    simp only [Option.map_eq_some_iff, Prod.exists, Prod.mk.injEq] at h
    obtain ⟨i, n, hfind, -, rfl⟩ := h
    have := findEventDelimiter_bounds hfind
    simp only [List.length_drop]
    omega
  stable {xs piece rest} more h := by
    simp only [Option.map_eq_some_iff, Prod.exists, Prod.mk.injEq] at h ⊢
    obtain ⟨i, n, hfind, rfl, rfl⟩ := h
    have := findEventDelimiter_bounds hfind
    refine ⟨i, n, findEventDelimiter_append hfind more, ?_, ?_⟩
    · rw [List.take_append_of_le_length (by omega)]
    · rw [List.drop_append_of_le_length (by omega), List.drop_append_of_le_length (by simp; omega)]

structure A2aSseDecoder where
  pending : List UInt8

def A2aSseDecoder.new : A2aSseDecoder := ⟨[]⟩

/-- The loop of `drain_complete_events`: an error loses the values decoded before it. -/
def drainEvents (pending : List UInt8) : Except (A2aSseParseError JsonError) (List Value) × List UInt8 :=
  match _h : eventCutter.cut pending with
  | none => (.ok [], pending)
  | some (eventBytes, rest) =>
      match parseSseEventBytes fromStr eventBytes with
      | .error e => (.error e, rest)
      | .ok value =>
          let (out, pending) := drainEvents rest
          (out.map (value.toList ++ ·), pending)
termination_by pending.length
decreasing_by exact eventCutter.shorter ‹_›

namespace A2aSseDecoder

def feed (decoder : A2aSseDecoder) (bytes : List UInt8) :
    Except (A2aSseParseError JsonError) (List Value) × A2aSseDecoder :=
  let (out, pending) := drainEvents fromStr (decoder.pending ++ bytes)
  (out, ⟨pending⟩)

def finish (decoder : A2aSseDecoder) : Except (A2aSseParseError JsonError) (List Value) :=
  match drainEvents fromStr decoder.pending with
  | (.error e, _) => .error e
  | (.ok out, pending) =>
      if pending.isEmpty then .ok out
      else (parseSseEventBytes fromStr pending).map fun value => out ++ value.toList

/-- The values of a stream that arrives in chunks, or the first error. -/
def decode (decoder : A2aSseDecoder) : List (List UInt8) → Except (A2aSseParseError JsonError) (List Value)
  | [] => decoder.finish fromStr
  | bytes :: chunks =>
      match decoder.feed fromStr bytes with
      | (.error e, _) => .error e
      | (.ok out, decoder) => (decode decoder chunks).map (out ++ ·)

end A2aSseDecoder

/-! ### The events of a stream -/

/-- The values of a list of events, or the error of the first malformed one. -/
def parseEvents : List (List UInt8) → Except (A2aSseParseError JsonError) (List Value)
  | [] => .ok []
  | eventBytes :: events =>
      match parseSseEventBytes fromStr eventBytes with
      | .error e => .error e
      | .ok value => (parseEvents events).map (value.toList ++ ·)

/-- The events of a stream: the complete ones, and what follows them unless it is empty. -/
def streamEvents (bytes : List UInt8) : List (List UInt8) :=
  let (events, tail) := eventCutter.pieces bytes
  events ++ if tail.isEmpty then [] else [tail]

variable {fromStr}

theorem parseEvents_append (ev f : List (List UInt8)) : parseEvents fromStr (ev ++ f) =
      match parseEvents fromStr ev with
      | .error e => .error e
      | .ok values => (parseEvents fromStr f).map (values ++ ·) := by
  induction ev with
  | nil => cases h : parseEvents fromStr f <;> simp [parseEvents, h, Except.map]
  | cons event ev ih =>
    simp only [cons_append, parseEvents, ih]
    cases parseSseEventBytes fromStr event with
    | error e => rfl
    | ok value =>
      cases parseEvents fromStr ev with
      | error e => rfl
      | ok values => cases parseEvents fromStr f <;> simp [Except.map]

theorem parseEvents_append_ok (h : parseEvents fromStr (ev ++ f) = .ok values) :
    ∃ out more, parseEvents fromStr ev = .ok out ∧ parseEvents fromStr f = .ok more ∧ values = out ++ more := by
  rw [parseEvents_append] at h
  cases he : parseEvents fromStr ev with
  | error e => simp [he] at h
  | ok out => cases hf : parseEvents fromStr f <;> simp_all [Except.map]

theorem drainEvents_of_some (h : eventCutter.cut p = some (event, rest)) : drainEvents fromStr p =
      match parseSseEventBytes fromStr event with
      | .error e => (.error e, rest)
      | .ok value => ((drainEvents fromStr rest).1.map (value.toList ++ ·), (drainEvents fromStr rest).2) := by
  rw [drainEvents]
  split <;> simp_all

variable (fromStr) in
/-- The loop decodes the complete events; unless it fails, it leaves what follows them. -/
theorem drainEvents_eq (p : List UInt8) :
    ∃ left, drainEvents fromStr p = (parseEvents fromStr (eventCutter.pieces p).1, left) ∧
      ∀ values, parseEvents fromStr (eventCutter.pieces p).1 = .ok values →
        left = (eventCutter.pieces p).2 := by
  induction p using Cutter.pieces.induct eventCutter with
  | case1 p h =>
    rw [drainEvents, Cutter.pieces_of_none h]
    split <;> simp_all [parseEvents]
  | case2 p event rest h ih =>
    obtain ⟨left, hd, hl⟩ := ih
    rw [drainEvents_of_some h, Cutter.pieces_of_some h, parseEvents]
    cases parseSseEventBytes fromStr event with
    | error e => exact ⟨rest, rfl, by simp⟩
    | ok value =>
      refine ⟨left, by simp [hd], fun values hv => ?_⟩
      cases hr : parseEvents fromStr (eventCutter.pieces rest).1 with
      | error e => simp [hr, Except.map] at hv
      | ok out => exact hl out hr

theorem parseEvents_pieces_append (h : parseEvents fromStr (eventCutter.pieces b).1 = .ok values)
    (m : List UInt8) :
    parseEvents fromStr (eventCutter.pieces (b ++ m)).1 =
      (parseEvents fromStr (eventCutter.pieces ((eventCutter.pieces b).2 ++ m)).1).map (values ++ ·) := by
  rw [eventCutter.pieces_append b m, parseEvents_append, h]

theorem finish_eq (d : A2aSseDecoder) : d.finish fromStr = parseEvents fromStr (streamEvents d.pending) := by
  obtain ⟨left, hd, hl⟩ := drainEvents_eq fromStr d.pending
  simp only [A2aSseDecoder.finish, streamEvents, parseEvents_append, hd]
  cases hv : parseEvents fromStr (eventCutter.pieces d.pending).1 with
  | error e => rfl
  | ok values =>
    simp only [hl values hv]
    split_ifs
    · simp [parseEvents, Except.map]
    · cases h : parseSseEventBytes fromStr (eventCutter.pieces d.pending).2 <;> simp [parseEvents, h, Except.map]

theorem streamEvents_append (b m : List UInt8) : streamEvents (b ++ m) =
      (eventCutter.pieces b).1 ++ streamEvents ((eventCutter.pieces b).2 ++ m) := by
  simp [streamEvents, eventCutter.pieces_append b m]

theorem decode_eq (d : A2aSseDecoder) (c : List (List UInt8)) :
    d.decode fromStr c = parseEvents fromStr (streamEvents (d.pending ++ c.flatten)) := by
  induction c generalizing d with
  | nil => simpa [A2aSseDecoder.decode] using finish_eq d
  | cons bytes c ih =>
    obtain ⟨left, hd, hl⟩ := drainEvents_eq fromStr (d.pending ++ bytes)
    rw [flatten_cons, ← append_assoc, streamEvents_append, parseEvents_append]
    simp only [A2aSseDecoder.decode, A2aSseDecoder.feed, hd, ih]
    cases hv : parseEvents fromStr (eventCutter.pieces (d.pending ++ bytes)).1 with
    | error e => rfl
    | ok values => simp [hl values hv]

/-- The chunks of a stream do not show in what is decoded from it. -/
theorem decode_flatten (chunks : List (List UInt8)) :
    A2aSseDecoder.new.decode fromStr chunks = A2aSseDecoder.new.decode fromStr [chunks.flatten] := by
  simp [decode_eq]

/-! ### The values handed to the consumer -/

def maxResponseBytes : ℕ := 50 * 1024 * 1024

inductive ForwardLabel where
  | success
  | invalidArgument
  | parseError
  | transportError
  deriving DecidableEq

/-- What the consumer has been sent, and whether it still receives. It may drop its end of the
channel after `limit` values. -/
def sendAll (limit : Option ℕ) (sent events : List Value) : List Value × Bool :=
  match limit with
  | none => (sent ++ events, true)
  | some n => ((sent ++ events).take n, decide ((sent ++ events).length ≤ n))

variable (fromStr) in
/-- The loop over the body of a response, which ends or breaks off (`failed`) after its chunks. -/
def readBody (limit : Option ℕ) (failed : Bool) (decoder : A2aSseDecoder) (total : ℕ) (sent : List Value) :
    List (List UInt8) → ForwardLabel × List Value
  | [] =>
      if failed then (.transportError, sent)
      else
        match decoder.finish fromStr with
        | .error _ => (.parseError, sent)
        | .ok events => (.success, (sendAll limit sent events).1)
  | chunk :: chunks =>
      let total := total + chunk.length
      if maxResponseBytes < total then (.invalidArgument, sent)
      else
        match decoder.feed fromStr chunk with
        | (.error _, _) => (.parseError, sent)
        | (.ok events, decoder) =>
            let (sent, receiving) := sendAll limit sent events
            if receiving then readBody limit failed decoder total sent chunks else (.success, sent)

variable (fromStr) in
def forwardStreamRequest (limit : Option ℕ) (failed : Bool) (chunks : List (List UInt8)) :
    ForwardLabel × List Value :=
  readBody fromStr limit failed .new 0 [] chunks

theorem sendAll_receiving (h : (sendAll limit s events).2 = true) :
    (sendAll limit s events).1 = s ++ events := by
  cases limit with
  | none => rfl
  | some n => exact take_of_length_le (of_decide_eq_true h)

/-- The events completed by some chunks of a stream. -/
def completedEvents (chunks : List (List UInt8)) : List (List UInt8) := (eventCutter.pieces chunks.flatten).1

/-- Up to the chunk in which the decoder fails, the consumer got the values of every event. -/
theorem readBody_parseError (hd : eventCutter.cut d.pending = none)
    (h : readBody fromStr limit failed d t s c = (.parseError, out)) :
    (∃ values, parseEvents fromStr (eventCutter.pieces (d.pending ++ c.flatten)).1 = .ok values) ∨
      ∃ don bytes rest values e, c = don ++ bytes :: rest ∧ out = s ++ values ∧
        parseEvents fromStr (eventCutter.pieces (d.pending ++ don.flatten)).1 = .ok values ∧
        parseEvents fromStr (eventCutter.pieces (d.pending ++ (don ++ [bytes]).flatten)).1 = .error e := by
  induction c generalizing d t s with
  | nil => exact .inl ⟨[], by simp [Cutter.pieces_of_none hd, parseEvents]⟩
  | cons ch c ih =>
    obtain ⟨left, hdr, hl⟩ := drainEvents_eq fromStr (d.pending ++ ch)
    simp only [readBody, A2aSseDecoder.feed, hdr] at h
    split_ifs at h with hc
    · cases h
    cases hv : parseEvents fromStr (eventCutter.pieces (d.pending ++ ch)).1 with
    | error e =>
      simp only [hv, Prod.mk.injEq] at h
      refine .inr ⟨[], ch, c, [], e, rfl, by simp [h], ?_, by simpa using hv⟩
      simp [Cutter.pieces_of_none hd, parseEvents]
    | ok values =>
      simp only [hv] at h
      split_ifs at h with hr
      · rw [sendAll_receiving hr, hl values hv] at h
        have hf := parseEvents_pieces_append hv
        obtain ⟨f, ha⟩ | ⟨don, bytes, rest, f, e, rfl, rfl, hdo, he⟩ :=
          @ih ⟨_⟩ _ _ (eventCutter.cut_tail _) h
        · exact .inl ⟨values ++ f, by simp [← append_assoc, hf, ha, Except.map]⟩
        · refine .inr ⟨ch :: don, bytes, rest, values ++ f, e, rfl, by simp, ?_, ?_⟩
          · simp [← append_assoc, hf, hdo, Except.map]
          · rw [cons_append, flatten_cons, ← append_assoc, hf, he]
            rfl
      · cases h

theorem completedEvents_prefix (h : d <+: chunks) : completedEvents d <+: completedEvents chunks := by
  obtain ⟨rest, rfl⟩ := h
  rw [completedEvents, completedEvents, flatten_append, eventCutter.pieces_append]
  exact prefix_append _ _

theorem values_eq_nil_iff (h : parseEvents fromStr ev = .ok values) :
    values = [] ↔ ∀ event ∈ ev, ∀ v, parseSseEventBytes fromStr event ≠ .ok (some v) := by
  induction ev generalizing values with
  | nil =>
    cases h
    simp
  | cons event ev ih =>
    rw [parseEvents] at h
    cases hp : parseSseEventBytes fromStr event with
    | error e => simp [hp] at h
    | ok v =>
      cases he : parseEvents fromStr ev with
      | error e => simp [hp, he, Except.map] at h
      | ok m =>
        obtain rfl : v.toList ++ m = values := by simpa [hp, he, Except.map] using h
        cases v <;> simp [ih he, hp]

/-- When the decoder fails at a complete event, the consumer has got the values of the events before
it exactly if none of them is completed only by the chunk that completes the malformed one. -/
theorem values_before_error_iff {limit : Option ℕ} {failed : Bool} {chunks before after : List (List UInt8)}
    {bad : List UInt8} {sent values : List Value} {e : A2aSseParseError JsonError}
    (hread : forwardStreamRequest fromStr limit failed chunks = (.parseError, sent))
    (hevents : completedEvents chunks = before ++ bad :: after)
    (hbefore : parseEvents fromStr before = .ok values) (hbad : parseSseEventBytes fromStr bad = .error e) :
    ∃ done bytes rest, chunks = done ++ bytes :: rest ∧ (completedEvents done).length ≤ before.length ∧
      before.length < (completedEvents (done ++ [bytes])).length ∧
      (sent = values ↔ ∀ event ∈ before.drop (completedEvents done).length, ∀ value,
        parseSseEventBytes fromStr event ≠ .ok (some value)) := by
  have hf : ∀ tail out, parseEvents fromStr (before ++ bad :: tail) ≠ .ok out := by
    intro tail out h
    obtain ⟨_, _, -, h, -⟩ := parseEvents_append_ok h
    simp [parseEvents, hbad] at h
  have hcut : eventCutter.cut A2aSseDecoder.new.pending = none := rfl
  obtain ⟨out, hall⟩ | ⟨done, bytes, rest, out, e', rfl, hs, hd, he⟩ := readBody_parseError hcut hread
  · exact absurd (hevents ▸ hall) (hf after out)
  replace he : parseEvents fromStr (completedEvents (done ++ [bytes])) = .error e' := he
  obtain rfl : sent = out := hs
  have hdp := hevents ▸ completedEvents_prefix (prefix_append done (bytes :: rest))
  have hn : completedEvents (done ++ [bytes]) <+: before ++ bad :: after :=
    hevents ▸ completedEvents_prefix (by simp)
  have hne : before.length < (completedEvents (done ++ [bytes])).length := by
    by_contra hle
    obtain ⟨gap, hg⟩ := prefix_of_prefix_length_le hn (prefix_append _ _) (not_lt.mp hle)
    obtain ⟨_, _, h, -⟩ := parseEvents_append_ok (hg ▸ hbefore)
    simp [he] at h
  have hso : completedEvents done <+: before := by
    refine prefix_of_prefix_length_le hdp (prefix_append _ _) (not_lt.mp fun hlt => ?_)
    obtain ⟨tail, ht⟩ : before ++ [bad] <+: completedEvents done :=
      prefix_of_prefix_length_le (by simp) hdp (by simp; omega)
    rw [append_assoc] at ht
    exact hf tail sent (ht ▸ hd)
  refine ⟨done, bytes, rest, rfl, hso.length_le, hne, ?_⟩
  obtain ⟨gap, rfl⟩ := hso
  obtain ⟨out', more, hout', hg, rfl⟩ := parseEvents_append_ok hbefore
  obtain rfl : sent = out' := Except.ok.inj (hd.symm.trans hout')
  rw [self_eq_append_right, values_eq_nil_iff hg, drop_left]

def readNumber (s : String) : Except Unit ℕ :=
  match Text.parseUnsigned 255 s with
  | some n => .ok n
  | none => .error ()

def number : List UInt8 := Framing.utf8 "data: 7"

def malformed : List UInt8 := Framing.utf8 "data: x"

theorem value_before_error_sent :
    ∃ done bytes rest, [number ++ [10, 10], malformed ++ [10, 10]] = done ++ bytes :: rest ∧
      (completedEvents done).length ≤ 1 ∧ 1 < (completedEvents (done ++ [bytes])).length ∧
      ([7] = [7] ↔ ∀ event ∈ [number].drop (completedEvents done).length, ∀ value,
        parseSseEventBytes readNumber event ≠ .ok (some value)) :=
  @values_before_error_iff _ _ readNumber none false _ [number] [] malformed _ _ (.json ()) (by decide +kernel)
    (by decide +kernel) (by decide +kernel) (by decide +kernel)

/-- A value and a malformed event in one chunk: the consumer gets nothing. -/
theorem value_lost_with_error :
    let chunk := number ++ [10, 10] ++ malformed ++ [10, 10]
    completedEvents [chunk] = [number, malformed] ∧ parseSseEventBytes readNumber number = .ok (some 7) ∧
      parseSseEventBytes readNumber malformed = .error (.json ()) ∧
      forwardStreamRequest readNumber none false [chunk] = (.parseError, []) := by
  decide +kernel

end AgentiumOs.Router
