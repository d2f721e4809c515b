import AgentiumOs.Lib.Framing
import AgentiumOs.Lib.Run

/-! The channel of a sandbox: JSON values in frames, each with its length in four bytes before it. A
receive takes one frame off the stream, whether its payload is valid or not. -/

namespace AgentiumOs.Sandbox

open Lib Lib.Framing

def maxFrameBytes : ℕ := 64 * 1024 * 1024

inductive CodecError where
  | deserialize
  | io (op : String)
  | frameTooLarge (len max : ℕ)

/-- A length as `u32` with the highest byte first. -/
def lengthBytes (len : ℕ) : List UInt8 := (leBytes 4 len).reverse

/-- `read_exact`; at the end of the stream what is left is lost. -/
def readExact (op : String) (n : ℕ) (stream : List UInt8) : Except CodecError (List UInt8) × List UInt8 :=
  if n ≤ stream.length then (.ok (stream.take n), stream.drop n) else (.error (.io op), [])

section

variable {V : Type} (encode : V → List UInt8) (decode : List UInt8 → Option V)

/-- What is written for a value, after what was written before. -/
def send (written : List UInt8) (value : V) : List UInt8 × Except CodecError Unit :=
  let bytes := encode value
  if maxFrameBytes < bytes.length then (written, .error (.frameTooLarge bytes.length maxFrameBytes))
  else (written ++ lengthBytes bytes.length ++ bytes, .ok ())

def parseFrame (body : List UInt8) : Except CodecError V :=
  match decode body with
  | some value => .ok value
  | none => .error .deserialize

def recv (stream : List UInt8) : List UInt8 × Except CodecError V :=
  match readExact "read length" 4 stream with
  | (.error e, stream) => (stream, .error e)
  | (.ok lenBuf, stream) =>
      let len := ofLeBytes lenBuf.reverse
      if maxFrameBytes < len then (stream, .error (.frameTooLarge len maxFrameBytes))
      else
        match readExact "read body" len stream with
        | (.error e, stream) => (stream, .error e)
        | (.ok body, stream) => (stream, parseFrame decode body)

/-- The answers of `n` receives. -/
def received (n : ℕ) (stream : List UInt8) : List (Except CodecError V) :=
  Run.outputs (fun stream (_ : Unit) => recv decode stream) stream (List.replicate n ())

def frame (payload : List UInt8) : List UInt8 := lengthBytes payload.length ++ payload

variable {encode decode} {payload : List UInt8}

theorem readExact_append (op : String) (b r : List UInt8) : readExact op b.length (b ++ r) = (.ok b, r) := by
  simp [readExact]

theorem recv_frame (h : payload.length ≤ maxFrameBytes) (r : List UInt8) :
    recv decode (frame payload ++ r) = (r, parseFrame decode payload) := by
  have hle : ofLeBytes (lengthBytes payload.length).reverse = payload.length := by
    rw [lengthBytes, List.reverse_reverse, ofLeBytes_leBytes]
    exact Nat.mod_eq_of_lt (Nat.lt_of_le_of_lt h (by decide))
  have hf : (lengthBytes payload.length).length = 4 := by simp [lengthBytes]
  have hl := readExact_append "read length" (lengthBytes payload.length) (payload ++ r)
  rw [hf, ← List.append_assoc] at hl
  rw [recv, frame, hl]
  simp [hle, Nat.not_lt.mpr h, readExact_append]

theorem received_frames {p : List (List UInt8)} (h : ∀ payload ∈ p, payload.length ≤ maxFrameBytes) :
    received decode (p.length + 1) (p.flatMap frame) =
      p.map (parseFrame decode) ++ [.error (.io "read length")] := by
  induction p with
  | nil => rfl
  | cons payload p ih =>
    rw [List.forall_mem_cons] at h
    have hf := @recv_frame V decode payload h.1 (p.flatMap frame)
    rw [List.flatMap_cons, received, List.replicate_succ, Run.outputs, hf]
    exact congrArg (parseFrame decode payload :: ·) (ih h.2)

theorem exec_send (h : ∀ va ∈ v, (encode va).length ≤ maxFrameBytes) (w : List UInt8) :
    Run.exec (send encode) w v = w ++ (v.map encode).flatMap frame ∧
      Run.outputs (send encode) w v = v.map fun _ => .ok () := by
  induction v generalizing w with
  | nil => simp [Run.outputs]
  | cons va v ih =>
    rw [List.forall_mem_cons] at h
    have hs : send encode w va = (w ++ frame (encode va), .ok ()) := by
      rw [send, if_neg (Nat.not_lt.mpr h.1), frame, List.append_assoc]
    obtain ⟨he, ho⟩ := ih h.2 (w ++ frame (encode va))
    rw [Run.exec_cons, Run.outputs, hs, he, ho]
    simp

/-- Values that are sent are received one by one, and then the stream ends. Of any frames that are
not too large, exactly those fail to be received whose payloads are not valid, and the others are
received as they are. -/
theorem frames_received (hdecode : ∀ value, decode (encode value) = some value) :
    (∀ values : List V, (∀ value ∈ values, (encode value).length ≤ maxFrameBytes) →
      Run.outputs (send encode) [] values = values.map (fun _ => .ok ()) ∧
        received decode (values.length + 1) (Run.exec (send encode) [] values) =
          values.map .ok ++ [.error (.io "read length")]) ∧
    ∀ payloads : List (List UInt8), (∀ payload ∈ payloads, payload.length ≤ maxFrameBytes) →
      received decode (payloads.length + 1) (payloads.flatMap frame) =
        payloads.map (parseFrame decode) ++ [.error (.io "read length")] := by
  refine ⟨fun values hv => ?_, fun payloads => received_frames⟩
  obtain ⟨he, ho⟩ := exec_send hv []
  have hp : ∀ payload ∈ values.map encode, payload.length ≤ maxFrameBytes := by simpa using hv
  have hall := @received_frames V decode _ hp
  have hpa : (values.map encode).map (parseFrame decode) = values.map .ok := by simp [parseFrame, hdecode]
  rw [List.length_map, hpa] at hall
  exact ⟨ho, by rw [he, List.nil_append, hall]⟩

end

def decodeByte : List UInt8 → Option UInt8
  | [b] => some b
  | _ => none

/-- Two values of one byte, and an empty frame between them. -/
theorem bytes_received : received decodeByte 4 ([[7], [], [9]].flatMap frame) =
    [.ok 7, .error .deserialize, .ok 9, .error (.io "read length")] :=
  (@frames_received UInt8 (fun b => [b]) decodeByte fun _ => rfl).2 [[7], [], [9]] (by decide)

end AgentiumOs.Sandbox
