import AgentiumOs.Events.Delivery

/-! Checkpoints that list the identifiers of a batch, so that the poll after the
batch was delivered can acknowledge them. -/

namespace AgentiumOs.Events

/-- The text of a checkpoint: the JSON of the delivered identifiers. A text that
is not such a JSON is read as no identifier. -/
structure CheckpointCodec where
  encode : List String → String
  decode : String → Option (List String)
  decode_encode : ∀ ids, decode (encode ids) = some ids

namespace CheckpointCodec

variable (C : CheckpointCodec)

def fromCheckpoint : ProducerCheckpoint → List String
  | none => []
  | some raw => (C.decode raw).getD []

def toCheckpoint (deliveredIds : List String) : ProducerCheckpoint :=
  some (C.encode deliveredIds)

@[simp] theorem fromCheckpoint_toCheckpoint (ids : List String) : C.fromCheckpoint (C.toCheckpoint ids) = ids := by
  simp [fromCheckpoint, toCheckpoint, C.decode_encode]

/-- Characters are marked by an `x`, and each identifier ends with a full stop. -/
def markedText (ids : List String) : List Char :=
  ids.flatMap fun id => id.toList.flatMap (fun c => ['x', c]) ++ ['.']

def readMarked : List Char → Option (List (List Char))
  | [] => some []
  | '.' :: rest => (readMarked rest).map ([] :: ·)
  | 'x' :: c :: rest => match readMarked rest with
      | some (id :: ids) => some ((c :: id) :: ids)
      | _ => none
  | _ => none

theorem readMarked_append (ch : List Char) (r : List Char) (h : readMarked r = some ids) :
    readMarked (ch.flatMap (fun c => ['x', c]) ++ '.' :: r) = some (ch :: ids) := by
  induction ch with
  | nil => simp [readMarked, h]
  | cons c ch ih => simp [readMarked, ih]

theorem readMarked_markedText (ids : List String) :
    readMarked (markedText ids) = some (ids.map String.toList) := by
  induction ids with
  | nil => rfl
  | cons id ids ih => simpa [markedText] using readMarked_append id.toList _ ih

def marked : CheckpointCodec where
  encode ids := String.ofList (markedText ids)
  decode raw := (readMarked raw.toList).map fun ids => ids.map String.ofList
  decode_encode ids := by
    simp [readMarked_markedText, Function.comp_def]

end CheckpointCodec

variable (C : CheckpointCodec)

/-- The checkpoint of a poll. After a poll that acknowledged and found nothing the
list is empty; a poll that did neither leaves the checkpoint as it is. -/
def pollCheckpoint (reconciled : Bool) (events : List ProducedEvent) (deliveredIds : List String) :
    ProducerCheckpoint :=
  if events.isEmpty && deliveredIds.isEmpty then
    if reconciled then C.toCheckpoint [] else none
  else C.toCheckpoint deliveredIds

theorem fromCheckpoint_pollCheckpoint (r : Bool) (e : List ProducedEvent) (ids : List String) :
    C.fromCheckpoint (pollCheckpoint C r e ids) = ids := by
  unfold pollCheckpoint
  split
  case isTrue he =>
    have hi : ids = [] := by simpa using (Bool.and_eq_true_iff.mp he).2
    subst hi
    cases r with
    | true => exact C.fromCheckpoint_toCheckpoint []
    | false => rfl
  case isFalse => simp

end AgentiumOs.Events
