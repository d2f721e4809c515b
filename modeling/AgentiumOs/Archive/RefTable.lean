import AgentiumOs.Archive.Rendered
import AgentiumOs.Lib.Run
import AgentiumOs.Tools.SessionHandle

/-! The table of references of a context. Archived results `@N` and lines of the history `#N`
are numbered by one counter, but a number may also be given from outside, and only some of the
operations that do so move the counter past it. -/

namespace AgentiumOs.Archive

open Lib
open Tools (ShortRef)

/-- The numbers of lines and bytes are those of the content. -/
structure ArchiveEntry where
  content : RenderedContent
  toolName : String
  summary : Option String
  actionIdentity : Option String
  activityAnchor : String
  source : String
  sendSignature : Option String

namespace ArchiveEntry

def nonBlank (text : Option String) : Option String := text.filter fun s => Text.trim s ≠ ""

def new (content : RenderedContent) (toolName : String) (summary : Option String)
    (activityAnchor source : String) : ArchiveEntry where
  content
  toolName
  summary := nonBlank summary
  actionIdentity := none
  activityAnchor
  source
  sendSignature := none

def withActionIdentity (entry : ArchiveEntry) (actionIdentity : Option String) : ArchiveEntry :=
  { entry with actionIdentity := nonBlank actionIdentity }

/-- `{:.1}` of a number of bytes over 1024, which rounds to even. -/
def kilobytes (bytes : ℕ) : String :=
  let tenths := 10 * bytes / 1024
  let rest := 10 * bytes % 1024
  let rounded := if 512 < rest ∨ rest = 512 ∧ tenths % 2 = 1 then tenths + 1 else tenths
  toString (rounded / 10) ++ "." ++ toString (rounded % 10)

example : kilobytes 1536 = "1.5" ∧ kilobytes 1280 = "1.2" ∧ kilobytes 1792 = "1.8" := by decide

def displayHeader (entry : ArchiveEntry) (r : ShortRef) : String :=
  let bytes := entry.content.byteCount
  let size := if bytes < 1024 then toString bytes ++ "B" else kilobytes bytes ++ "KB"
  let lines := toString entry.content.lineCount ++ "L"
  match entry.actionIdentity, entry.summary with
  | some action, _ => r.display ++ " · " ++ entry.toolName ++ ":" ++ action ++ " · " ++ lines ++ " · " ++ size
  | none, some summary => r.display ++ " · \"" ++ summary ++ "\" · " ++ lines ++ " · " ++ size
  | none, none => r.display ++ " · " ++ entry.toolName ++ " · " ++ lines ++ " · " ++ size

end ArchiveEntry

/-- A line of the history is known by the activity it came from and the kind of line. -/
structure HistoryEntry where
  activityAnchor : String
  source : String
  deriving DecidableEq

def historyStableKey (entry : HistoryEntry) : String := entry.activityAnchor ++ "\x00" ++ entry.source

def numbers : ℕ := 2 ^ 32

def saturatingSucc (n : ℕ) : ℕ := min (n + 1) (numbers - 1)

/-- Archived results are kept under their reference, which the source packs into one word. -/
structure RefTable where
  next : ℕ
  entries : ShortRef → Option ArchiveEntry
  history : ℕ → Option HistoryEntry
  historyStableKeyToN : String → Option ℕ
  historyTextByActivity : String → Option String

namespace RefTable

def new : RefTable := ⟨1, fun _ => none, fun _ => none, fun _ => none, fun _ => none⟩

/-- `next.fetch_add(1)` wraps around. -/
def fetchAdd (t : RefTable) : RefTable := { t with next := (t.next + 1) % numbers }

/-- `next.fetch_max(n)`. -/
def fetchMax (t : RefTable) (n : ℕ) : RefTable := { t with next := max t.next n }

def putEntry (t : RefTable) (r : ShortRef) (entry : ArchiveEntry) : RefTable :=
  { t with entries := Function.update t.entries r (some entry) }

def putHistory (t : RefTable) (n : ℕ) (entry : HistoryEntry) : RefTable :=
  { t with history := Function.update t.history n (some entry) }

def putKey (t : RefTable) (key : String) (n : ℕ) : RefTable :=
  { t with historyStableKeyToN := Function.update t.historyStableKeyToN key (some n) }

def putText (t : RefTable) (activityAnchor content : String) : RefTable :=
  { t with historyTextByActivity := Function.update t.historyTextByActivity activityAnchor (some content) }

def insert (t : RefTable) (entry : ArchiveEntry) : ShortRef × RefTable :=
  (⟨1, t.next⟩, t.fetchAdd.putEntry ⟨1, t.next⟩ entry)

def insertAt (t : RefTable) (r : ShortRef) (entry : ArchiveEntry) : RefTable := t.putEntry r entry

def insertHistory (t : RefTable) (entry : HistoryEntry) (content : String) : ℕ × RefTable :=
  match t.historyStableKeyToN (historyStableKey entry) with
  | some n =>
      let t := t.putText entry.activityAnchor content
      (n, if t.history n = none then t.putHistory n entry else t)
  | none =>
      (t.next, ((t.fetchAdd.putKey (historyStableKey entry) t.next).putText entry.activityAnchor content).putHistory
        t.next entry)

def insertVirtualArchive (t : RefTable) (n : ℕ) (entry : ArchiveEntry) : RefTable :=
  (t.putEntry ⟨1, n⟩ entry).fetchMax (saturatingSucc n)

/-- A composite reference has its own numbers and leaves the counter. -/
def insertVirtualArchiveRef (t : RefTable) (r : ShortRef) (entry : ArchiveEntry) : RefTable :=
  if r.table = 1 then (t.putEntry r entry).fetchMax (saturatingSucc r.index) else t.putEntry r entry

/-- A pair that has another number already is a failed assertion. -/
def insertVirtualHistory (t : RefTable) (n : ℕ) (entry : HistoryEntry) (content : String) : Option RefTable :=
  let store (t : RefTable) : RefTable :=
    ((t.putText entry.activityAnchor content).putHistory n entry).fetchMax (saturatingSucc n)
  match t.historyStableKeyToN (historyStableKey entry) with
  | some existing => if existing = n then some (store t) else none
  | none => some (store (t.putKey (historyStableKey entry) n))

def historyTextForActivity (t : RefTable) (activityAnchor : String) : Option String :=
  t.historyTextByActivity activityAnchor

def get (t : RefTable) (r : ShortRef) : Option ArchiveEntry := t.entries r

def getHistory (t : RefTable) (n : ℕ) : Option HistoryEntry := t.history n

/-- What `#N` stands for: the text of the activity of its line. -/
def resolve (t : RefTable) (n : ℕ) : Option String :=
  (t.getHistory n).bind fun entry => t.historyTextForActivity entry.activityAnchor

end RefTable

inductive RefOp where
  | insert (entry : ArchiveEntry)
  | insertAt (r : ShortRef) (entry : ArchiveEntry)
  | insertHistory (entry : HistoryEntry) (content : String)
  | insertVirtualArchive (n : ℕ) (entry : ArchiveEntry)
  | insertVirtualArchiveRef (r : ShortRef) (entry : ArchiveEntry)
  | insertVirtualHistory (n : ℕ) (entry : HistoryEntry) (content : String)

namespace RefOp

/-- An operation on a table; an assertion that fails leaves it. -/
def apply (t : RefTable) : RefOp → RefTable
  | insert entry => (t.insert entry).2
  | insertAt r entry => t.insertAt r entry
  | insertHistory entry content => (t.insertHistory entry content).2
  | insertVirtualArchive n entry => t.insertVirtualArchive n entry
  | insertVirtualArchiveRef r entry => t.insertVirtualArchiveRef r entry
  | insertVirtualHistory n entry content => (t.insertVirtualHistory n entry content).getD t

def returned (t : RefTable) : RefOp → Option ℕ
  | insert entry => some (t.insert entry).1.index
  | insertHistory entry content => some (t.insertHistory entry content).1
  | _ => none

/-- The line of the history that an operation inserts. -/
def line? : RefOp → Option HistoryEntry
  | insertHistory entry _ | insertVirtualHistory _ entry _ => some entry
  | _ => none

inductive Acts (t : RefTable) : RefOp → RefTable → Prop
  | draws (entry : ArchiveEntry) : Acts t (insert entry) (t.fetchAdd.putEntry ⟨1, t.next⟩ entry)
  | places (r : ShortRef) (entry : ArchiveEntry) : Acts t (insertAt r entry) (t.putEntry r entry)
  | repeats (entry : HistoryEntry) (content : String) (n : ℕ)
      (hkey : t.historyStableKeyToN (historyStableKey entry) = some n) (hheld : t.history n ≠ none) :
      Acts t (insertHistory entry content) (t.putText entry.activityAnchor content)
  | refills (entry : HistoryEntry) (content : String) (n : ℕ)
      (hkey : t.historyStableKeyToN (historyStableKey entry) = some n) (hheld : t.history n = none) :
      Acts t (insertHistory entry content) ((t.putText entry.activityAnchor content).putHistory n entry)
  | registers (entry : HistoryEntry) (content : String)
      (hkey : t.historyStableKeyToN (historyStableKey entry) = none) :
      Acts t (insertHistory entry content)
        (((t.fetchAdd.putKey (historyStableKey entry) t.next).putText entry.activityAnchor content).putHistory
          t.next entry)
  | replays (n : ℕ) (entry : ArchiveEntry) :
      Acts t (insertVirtualArchive n entry) ((t.putEntry ⟨1, n⟩ entry).fetchMax (saturatingSucc n))
  | replaysFlat (n : ℕ) (entry : ArchiveEntry) :
      Acts t (insertVirtualArchiveRef ⟨1, n⟩ entry) ((t.putEntry ⟨1, n⟩ entry).fetchMax (saturatingSucc n))
  | replaysComposite (r : ShortRef) (entry : ArchiveEntry) (hr : r.table ≠ 1) :
      Acts t (insertVirtualArchiveRef r entry) (t.putEntry r entry)
  | replaysLine (n : ℕ) (entry : HistoryEntry) (content : String)
      (hkey : t.historyStableKeyToN (historyStableKey entry) = some n) :
      Acts t (insertVirtualHistory n entry content)
        (((t.putText entry.activityAnchor content).putHistory n entry).fetchMax (saturatingSucc n))
  | registersLine (n : ℕ) (entry : HistoryEntry) (content : String)
      (hkey : t.historyStableKeyToN (historyStableKey entry) = none) :
      Acts t (insertVirtualHistory n entry content)
        ((((t.putKey (historyStableKey entry) n).putText entry.activityAnchor content).putHistory n entry).fetchMax
          (saturatingSucc n))
  | asserts (n : ℕ) (entry : HistoryEntry) (content : String) (m : ℕ)
      (hkey : t.historyStableKeyToN (historyStableKey entry) = some m) (hne : m ≠ n) :
      Acts t (insertVirtualHistory n entry content) t

theorem acts (t : RefTable) (op : RefOp) : Acts t op (op.apply t) := by
  cases op with
  | insert entry => exact .draws entry
  | insertAt r entry => exact .places r entry
  | insertHistory entry c =>
    simp only [apply, RefTable.insertHistory]
    cases hk : t.historyStableKeyToN (historyStableKey entry) with
    | none => exact .registers entry c hk
    | some n =>
      dsimp only
      split
      · exact .refills entry c n hk ‹_›
      · exact .repeats entry c n hk ‹_›
  | insertVirtualArchive n entry => exact .replays n entry
  | insertVirtualArchiveRef r entry =>
    simp only [apply, RefTable.insertVirtualArchiveRef]
    split
    · rename_i hr
      obtain ⟨table, n⟩ := r
      subst hr
      exact .replaysFlat n entry
    · exact .replaysComposite r entry ‹_›
  | insertVirtualHistory n entry c =>
    simp only [apply, RefTable.insertVirtualHistory]
    cases hk : t.historyStableKeyToN (historyStableKey entry) with
    | none => exact .registersLine n entry c hk
    | some m =>
      dsimp only
      split
      · rename_i hm
        exact .replaysLine n entry c (hm ▸ hk)
      · exact .asserts n entry c m hk ‹_›

end RefOp

/-- The machine of a table, for the rules of `Run`. -/
def RefTable.step (t : RefTable) (op : RefOp) : RefTable × Unit := (op.apply t, ())

def RefTable.run (ops : List RefOp) : RefTable := Run.exec step .new ops

theorem RefTable.run_concat (ops : List RefOp) (op : RefOp) : run (ops ++ [op]) = op.apply (run ops) :=
  Run.exec_concat step .new ops op

end AgentiumOs.Archive
