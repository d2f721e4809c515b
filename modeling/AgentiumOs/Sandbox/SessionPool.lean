import AgentiumOs.Lib.Interleave
import AgentiumOs.Lib.SwapRemove

/-! The pool of sandboxes for sessions. Every key has a bounded number of entries, and a
checkout takes an idle one, boots a new sandbox, or waits. The lock of the pool is taken
for one section at a time: boots, teardowns and waits happen outside it, and each of them
can be abandoned. A task is a caller of the pool or what it left behind when it was
dropped. -/

namespace AgentiumOs.Sandbox

open Lib Lib.Interleave

/-- An entry of the pool. Only the reservation of a boot has no sandbox. -/
inductive PoolEntry where
  | idle (handle : String)
  | live (session : ℕ) (handle : String)
  | reserving (id : ℕ)
  deriving DecidableEq

namespace PoolEntry

def handle? : PoolEntry → Option String
  | .idle handle => some handle
  | .live _ handle => some handle
  | .reserving _ => none

def session? : PoolEntry → Option ℕ
  | .live session _ => some session
  | _ => none

def isIdle : PoolEntry → Bool
  | .idle _ => true
  | _ => false

def isLive (session : ℕ) : PoolEntry → Bool
  | .live s _ => s = session
  | _ => false

def isReserving (id : ℕ) : PoolEntry → Bool
  | .reserving i => i = id
  | _ => false

end PoolEntry

structure KeyPool where
  entries : List PoolEntry
  waiters : List ℕ

/-- What `checkout` returns: the sandbox of one live entry. -/
structure PooledSandbox (κ : Type) where
  key : κ
  session : ℕ
  handle : String
  deriving DecidableEq

inductive Release where
  | returnIdle
  | destroy
  deriving DecidableEq

/-- The pool. The ids of sessions, reservations and waiters are drawn from one counter.
The sandboxes that were created and those that were handed to teardown are kept for the
statements about runs. -/
structure SessionPool (κ : Type) where
  pools : κ → KeyPool
  nextId : ℕ
  notified : List ℕ
  created : List String
  tornDown : List String

inductive PoolTask (κ : Type) where
  | idle
  /-- At the head of the loop of `checkout`. -/
  | entering (key : κ)
  | parked (key : κ) (waiter : ℕ)
  | cancelling (key : κ) (waiter : ℕ)
  | booting (key : κ) (reservation : ℕ)
  /-- The provider returned a sandbox; the reservation guard has its handle. -/
  | booted (key : κ) (reservation : ℕ) (handle : String)
  | dropping (key : κ) (reservation : ℕ) (handle : Option String)
  | holding (sandbox : PooledSandbox κ)
  | releasing (sandbox : PooledSandbox κ) (disposition : Release)
  /-- Handles on their way to teardown, before the loop is entered again or at the end. -/
  | tearing (handles : List String) (next : Option κ)
  deriving DecidableEq

/-- What a task does next: a section under the lock or a call of teardown is `proceed`,
with the handles that have expired by then. -/
inductive PoolMove (κ : Type) where
  | checkout (key : κ)
  | proceed (expired : String → Bool)
  | create (result : Option String)
  | wake
  | timeout
  | release (disposition : Release)
  | drop (inRuntime : Bool)

variable {κ : Type} [DecidableEq κ]

/-- The loop that removes expired idle entries, for the `n` rounds that are left. -/
def sweep (expired : String → Bool) :
    ℕ → ℕ → List PoolEntry → List String → List PoolEntry × List String
  | 0, _, entries, swept => (entries, swept)
  | n + 1, idx, entries, swept =>
      match entries[idx]? with
      | some (.idle handle) =>
          if expired handle then sweep expired n idx (swapRemove entries idx) (swept ++ [handle])
          else sweep expired n (idx + 1) entries swept
      | _ => sweep expired n (idx + 1) entries swept

namespace SessionPool

variable (s : SessionPool κ)

def updatePool (key : κ) (pool : KeyPool) : SessionPool κ :=
  { s with pools := Function.update s.pools key pool }

def setEntries (key : κ) (entries : List PoolEntry) : SessionPool κ :=
  s.updatePool key ⟨entries, (s.pools key).waiters⟩

def notifyOneWaiter (key : κ) : SessionPool κ :=
  match (s.pools key).waiters with
  | [] => s
  | waiter :: rest =>
      { s.updatePool key ⟨(s.pools key).entries, rest⟩ with notified := waiter :: s.notified }

/-- Once nothing has expired: an idle entry, a reservation, or a place in the queue. -/
def claim (poolMax : ℕ) (key : κ) (entries : List PoolEntry) : SessionPool κ × PoolTask κ :=
  match entries.findIdx? PoolEntry.isIdle with
  | some idx =>
      match entries[idx]? with
      | some (.idle handle) =>
          ({ s.setEntries key (entries.set idx (.live s.nextId handle)) with nextId := s.nextId + 1 },
            .holding ⟨key, s.nextId, handle⟩)
      | _ => (s, .idle)
  | none =>
      if entries.length < max poolMax 1 then
        ({ s.setEntries key (entries ++ [.reserving s.nextId]) with nextId := s.nextId + 1 },
          .booting key s.nextId)
      else
        ({ s.updatePool key ⟨entries, (s.pools key).waiters ++ [s.nextId]⟩ with
            nextId := s.nextId + 1 },
          .parked key s.nextId)

/-- The section at the head of the loop of `checkout`. -/
def enter (poolMax : ℕ) (key : κ) (expired : String → Bool) : SessionPool κ × PoolTask κ :=
  match sweep expired (s.pools key).entries.length 0 (s.pools key).entries [] with
  | (entries, []) => s.claim poolMax key entries
  | (entries, swept) => ((s.setEntries key entries).notifyOneWaiter key, .tearing swept (some key))

/-- The end of `cold_create`: the reservation becomes a live entry. -/
def promote (key : κ) (reservation : ℕ) (handle : String) : SessionPool κ × PoolTask κ :=
  let entries := (s.pools key).entries
  match entries.findIdx? (PoolEntry.isReserving reservation) with
  | some idx =>
      ({ s.setEntries key (entries.set idx (.live s.nextId handle)) with nextId := s.nextId + 1 },
        .holding ⟨key, s.nextId, handle⟩)
  | none => (s, .dropping key reservation (some handle))

def dropReservation (key : κ) (reservation : ℕ) (handle : Option String) : SessionPool κ × PoolTask κ :=
  let entries := (s.pools key).entries
  ((s.setEntries key (entries.filter fun e => !e.isReserving reservation)).notifyOneWaiter key,
    .tearing handle.toList none)

def cancelWaiter (key : κ) (waiter : ℕ) : SessionPool κ :=
  s.updatePool key ⟨(s.pools key).entries, (s.pools key).waiters.filter (· ≠ waiter)⟩

def release (sandbox : PooledSandbox κ) (disposition : Release) : SessionPool κ × PoolTask κ :=
  let entries := (s.pools sandbox.key).entries
  match entries.findIdx? (PoolEntry.isLive sandbox.session) with
  | some idx =>
      match entries[idx]? with
      | some (.live _ handle) =>
          match disposition with
          | .returnIdle =>
              ((s.setEntries sandbox.key (entries.set idx (.idle handle))).notifyOneWaiter sandbox.key, .idle)
          | .destroy =>
              ((s.setEntries sandbox.key (swapRemove entries idx)).notifyOneWaiter sandbox.key,
                .tearing [handle] none)
      | _ => (s, .idle)
  | none => (s, .idle)

end SessionPool

variable (poolMax : ℕ)

def poolProceed (expired : String → Bool) (s : SessionPool κ) : PoolTask κ → SessionPool κ × PoolTask κ
  | .entering key => s.enter poolMax key expired
  | .cancelling key waiter => (s.cancelWaiter key waiter, .idle)
  | .booted key reservation handle => s.promote key reservation handle
  | .dropping key reservation handle => s.dropReservation key reservation handle
  | .releasing sandbox disposition => s.release sandbox disposition
  | .tearing [] (some key) => (s, .entering key)
  | .tearing [] none => (s, .idle)
  | .tearing (handle :: handles) next =>
      ({ s with tornDown := handle :: s.tornDown }, .tearing handles next)
  | task => (s, task)

/-- What becomes of a task whose future, guard or sandbox is dropped. The guards leave
their work to a new task of the runtime; outside of it there is none. -/
def poolDrop (inRuntime : Bool) : PoolTask κ → PoolTask κ
  | .booting key reservation => if inRuntime then .dropping key reservation none else .idle
  | .booted key reservation handle =>
      if inRuntime then .dropping key reservation (some handle) else .idle
  | .holding sandbox => if inRuntime then .releasing sandbox .destroy else .idle
  | _ => .idle

def poolAdvance : PoolMove κ → SessionPool κ → PoolTask κ → SessionPool κ × PoolTask κ
  | .checkout key, s, .idle => (s, .entering key)
  | .proceed expired, s, task => poolProceed poolMax expired s task
  | .create (some handle), s, .booting key reservation =>
      ({ s with created := handle :: s.created }, .booted key reservation handle)
  | .create none, s, .booting key reservation => (s, .dropping key reservation none)
  | .wake, s, .parked key waiter => (s, if waiter ∈ s.notified then .entering key else .parked key waiter)
  | .timeout, s, .parked key waiter => (s, .cancelling key waiter)
  | .release disposition, s, .holding sandbox => (s, .releasing sandbox disposition)
  | .drop inRuntime, s, task => (s, poolDrop inRuntime task)
  | _, s, task => (s, task)

structure PoolOp (κ ι : Type) where
  task : ι
  move : PoolMove κ

variable {ι : Type} [DecidableEq ι]

def poolStep (p : Pool (SessionPool κ) (PoolTask κ) ι) (op : PoolOp κ ι) :
    Pool (SessionPool κ) (PoolTask κ) ι × Unit :=
  turn (poolAdvance poolMax op.move) p op.task

def emptyPool : Pool (SessionPool κ) (PoolTask κ) ι :=
  ⟨⟨fun _ => ⟨[], []⟩, 0, [], [], []⟩, fun _ => .idle⟩

end AgentiumOs.Sandbox
