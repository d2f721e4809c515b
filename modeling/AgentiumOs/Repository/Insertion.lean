import AgentiumOs.Repository.Calls
import AgentiumOs.Lib.Interleave

/-! An insertion between the statements of others. The points it can be at stand for the
rest of its program; whether its row was stored is part of the point, though the program
does not know it. -/

namespace AgentiumOs.Repository

open Lib Lib.Program Lib.Script Lib.Interleave

abbrev InsertScript := Script Statement String Store (Except Failure RepositoryEntry)

/-- A call of `insert_entry`, with the time it will see. -/
structure InsertCall where
  createdAt : Timestamp
  entry : NewEntry

namespace InsertCall

def script (H : Hashing) (call : InsertCall) : InsertScript := (insertEntry H call.createdAt call.entry).run

def row (call : InsertCall) (d : Draft) : EntryRow := call.entry.row d call.createdAt

def stored (call : InsertCall) (d : Draft) (version : Version) : RepositoryEntry :=
  call.entry.stored d version call.createdAt

end InsertCall

inductive InsertPoint where
  | selecting
  | checking (d : Draft)
  | creating (d : Draft) (version : Version)
  | tagging (accepted : Bool) (d : Draft) (version : Version) (tags : List Tag)
  | failed (failure : Failure)

structure Insertion where
  call : InsertCall
  point : InsertPoint

/-- The failure of `duplicateError`. -/
def duplicateFailure (hash : ContentHash) (row : EntryRow) : Failure :=
  match AgentName.parse row.agentName with
  | .error e => readError ("invalid existing agent_name: invalid agent name: " ++ e)
  | .ok name =>
      match Version.new row.version with
      | .error e => readError ("invalid existing version: " ++ e)
      | .ok version => .returned (.duplicateHash hash name version)

namespace Insertion

def script (H : Hashing) (t : Insertion) : InsertScript :=
  match t.point with
  | .selecting => t.call.script H
  | .checking d => (checkDuplicate t.call.createdAt t.call.entry d).run
  | .creating d version => (storeEntry t.call.createdAt t.call.entry d version).run
  | .tagging _ d version tags => (createTags (t.call.stored d version) tags).run
  | .failed failure => .done (.error failure)

def advance (H : Hashing) (s : Store) (t : Insertion) : Store × Insertion :=
  match t.point with
  | .selecting =>
      (s, ⟨t.call,
        match draft H t.call.entry (nextVersion ((s.latestRow t.call.entry.name.text).map EntryRow.version)) with
        | .error failure => .failed failure
        | .ok d => .checking d⟩)
  | .checking d =>
      (s, ⟨t.call, match s.rowByHash d.hash with
        | some row => .failed (duplicateFailure d.hash row)
        | none =>
            match Version.new d.nextVersion with
            | .error e => .failed (readError e)
            | .ok version => .creating d version⟩)
  | .creating d version =>
      (s.createEntry (t.call.row d), ⟨t.call, .tagging (s.Accepts (t.call.row d)) d version t.call.entry.tags⟩)
  | .tagging accepted d version (tag :: tags) =>
      (s.createTag d.hash tag, ⟨t.call, .tagging accepted d version tags⟩)
  | .tagging _ _ _ [] | .failed _ => (s, t)

theorem duplicateError_eq (h : ContentHash) (row : EntryRow) :
    (duplicateError h row).run = .done (.error (duplicateFailure h row)) := by
  unfold duplicateError duplicateFailure
  cases AgentName.parse row.agentName with
  | error e => rfl
  | ok name =>
    cases Version.new row.version with
    | error e => rfl
    | ok v => rfl

variable (H : Hashing)

theorem advance_script (s : Store) (t : Insertion) :
    Script.advance Statement.apply s (t.script H) = ((t.advance H s).1, (t.advance H s).2.script H) := by
  rcases t with ⟨call, point⟩
  cases point with
  | selecting =>
    have hn : Script.advance Statement.apply s (script H ⟨call, .selecting⟩) =
        (s, ExceptT.run
          (match draft H call.entry (nextVersion ((s.latestRow call.entry.name.text).map EntryRow.version)) with
          | .error failure => throw failure
          | .ok d => checkDuplicate call.createdAt call.entry d : RepositoryQuery RepositoryEntry)) := rfl
    rw [hn]
    simp only [advance]
    cases draft H call.entry (nextVersion ((s.latestRow call.entry.name.text).map EntryRow.version)) with
    | error failure => rfl
    | ok d => rfl
  | checking d =>
    have hn : Script.advance Statement.apply s (script H ⟨call, .checking d⟩) =
        (s, ExceptT.run (match s.rowByHash d.hash with
          | some row => duplicateError d.hash row
          | none =>
              match Version.new d.nextVersion with
              | .error e => throw (readError e)
              | .ok version => storeEntry call.createdAt call.entry d version :
              RepositoryQuery RepositoryEntry)) := rfl
    rw [hn]
    simp only [advance]
    cases s.rowByHash d.hash with
    | some row => exact congrArg (Prod.mk s) (duplicateError_eq d.hash row)
    | none =>
      cases Version.new d.nextVersion with
      | error e => rfl
      | ok version => rfl
  | creating d version => rfl
  | tagging accepted d version tags =>
    cases tags with
    | nil => rfl
    | cons tag tags => rfl
  | failed failure => rfl

inductive Advances (call : InsertCall) (s : Store) : InsertPoint → Store → InsertPoint → Prop
  | rejects (failure : Failure) : Advances call s .selecting s (.failed failure)
  | drafts (d : Draft)
      (hfresh : d.nextVersion ≠ 0 → (call.row d).nameVersion ∉ s.entries.map EntryRow.nameVersion) :
      Advances call s .selecting s (.checking d)
  | refuses (d : Draft) (failure : Failure) : Advances call s (.checking d) s (.failed failure)
  | checks (d : Draft) (version : Version) (hfree : (call.row d).hash ∉ s.entries.map EntryRow.hash)
      (hversion : version.value = d.nextVersion) : Advances call s (.checking d) s (.creating d version)
  | creates (d : Draft) (version : Version) :
      Advances call s (.creating d version) (s.createEntry (call.row d))
        (.tagging (s.Accepts (call.row d)) d version call.entry.tags)
  | tags (accepted : Bool) (d : Draft) (version : Version) (tag : Tag) (tags : List Tag) :
      Advances call s (.tagging accepted d version (tag :: tags)) (s.createTag d.hash tag)
        (.tagging accepted d version tags)
  | returned (accepted : Bool) (d : Draft) (version : Version) :
      Advances call s (.tagging accepted d version []) s (.tagging accepted d version [])
  | failed (failure : Failure) : Advances call s (.failed failure) s (.failed failure)

theorem call_advance (s : Store) (t : Insertion) : (t.advance H s).2.call = t.call := by
  unfold advance
  split <;> rfl

theorem advances (s : Store) (t : Insertion) :
    Advances t.call s t.point (t.advance H s).1 (t.advance H s).2.point := by
  rcases t with ⟨call, point⟩
  cases point with
  | selecting =>
    simp only [advance]
    cases hd : draft H call.entry (nextVersion ((s.latestRow call.entry.name.text).map EntryRow.version)) with
    | error f => exact .rejects f
    | ok d =>
      refine .drafts d fun hne => ?_
      rw [draft_nextVersion hd] at hne
      have hf := s.nextVersion_fresh call.entry.name.text hne
      rwa [← draft_nextVersion hd] at hf
  | checking d =>
    simp only [advance]
    cases hr : s.rowByHash d.hash with
    | some row => exact .refuses d _
    | none =>
      cases hv : Version.new d.nextVersion with
      | error e => exact .refuses d _
      | ok v => exact .checks d v (Store.notMem_of_rowByHash hr) (Version.value_of_new hv)
  | creating d v => exact .creates d v
  | tagging ac d v tags =>
    cases tags with
    | nil => exact .returned ac d v
    | cons tag tags => exact .tags ac d v tag tags
  | failed f => exact .failed f

end Insertion

namespace InsertPoint

def holds : InsertPoint → Option Draft
  | tagging accepted d _ _ => if accepted then some d else none
  | _ => none

/-- No index refuses the row if the call is about to create it. -/
def Accepted (call : InsertCall) (s : Store) : InsertPoint → Prop
  | creating d _ => s.Accepts (call.row d)
  | _ => True

/-- The row was not stored, and the call went on. -/
def Refused : InsertPoint → Prop
  | tagging accepted _ _ _ => accepted = false
  | _ => False

def Tagging (hash : ContentHash) : InsertPoint → Prop
  | tagging _ d _ _ => d.hash = hash
  | _ => False

/-- What holds of a call that began on one store, by the time of another. -/
def Sound (call : InsertCall) (s₀ s : Store) : InsertPoint → Prop
  | selecting | failed _ => True
  | checking d => d.nextVersion ≠ 0 → (call.row d).nameVersion ∉ s₀.entries.map EntryRow.nameVersion
  | creating d version => version.value = d.nextVersion ∧ s₀.Accepts (call.row d)
  | tagging _ d version tags =>
      version.value = d.nextVersion ∧ s₀.Accepts (call.row d) ∧ tags ⊆ call.entry.tags ∧
        ∀ tag ∈ call.entry.tags, tag ∈ tags ∨ (d.hash, tag) ∈ s.tags

theorem refused_iff {point : InsertPoint} : point.Refused ↔ ∃ d v tags, point = .tagging false d v tags := by
  cases point <;> simp [Refused]

end InsertPoint

namespace Insertion

variable {call : InsertCall} {s₀ s s' : Store} {point point' : InsertPoint}

theorem Advances.tagging {hash : ContentHash} (h : Advances call s point s' point')
    (hp : point.Tagging hash) : point'.Tagging hash := by
  cases h with
  | tags | returned => exact hp
  | rejects | drafts | refuses | checks | creates | failed => cases hp

theorem Advances.mem_tags (h : Advances call s point s' point') (x : ContentHash × Tag) :
    (x ∈ s.tags → x ∈ s'.tags) ∧ (x ∈ s'.tags → x ∈ s.tags ∨ point.Tagging x.1 ∧ ∃ ac d v tags,
        point = .tagging ac d v (x.2 :: tags)) := by
  cases h with
  | rejects | drafts | refuses | checks | returned | failed => exact ⟨fun hx => hx, .inl⟩
  | creates d v =>
    rw [Store.tags_createEntry]
    exact ⟨fun hx => hx, .inl⟩
  | tags ac d v tag tags =>
    rw [Store.mem_tags_createTag]
    refine ⟨.inl, fun hx => hx.imp_right ?_⟩
    rintro rfl
    exact ⟨rfl, ac, d, v, tags, rfl⟩

theorem Sound.mono (h : point.Sound call s₀ s) (ht : s.tags ⊆ s'.tags) : point.Sound call s₀ s' := by
  cases point with
  | selecting | checking | creating | failed => exact h
  | tagging ac d v tags =>
    exact ⟨h.1, h.2.1, h.2.2.1, fun tag hta => (h.2.2.2 tag hta).imp_right (@ht _)⟩

theorem Advances.sound (h : Advances call s point s' point') (he : s₀.entries ⊆ s.entries)
    (hp : point.Sound call s₀ s) : point'.Sound call s₀ s' := by
  cases h with
  | rejects | refuses | failed => trivial
  | drafts d hf => exact fun hne hm => hf hne (List.map_subset _ he hm)
  | checks d v hfr hv =>
    refine ⟨hv, fun hm => hfr (List.map_subset _ he hm), hp ?_⟩
    rw [← hv]
    exact v.ne_zero
  | creates d v => exact ⟨hp.1, hp.2, List.Subset.refl _, fun tag hta => .inl hta⟩
  | tags ac d v tag tags =>
    obtain ⟨hv, ha, hs, ht⟩ := hp
    refine ⟨hv, ha, fun x hx => hs (List.mem_cons_of_mem _ hx), fun x hx => ?_⟩
    rw [Store.mem_tags_createTag]
    rcases ht x hx with hl | hd
    · rcases List.mem_cons.mp hl with rfl | hl
      · exact .inr (.inr rfl)
      · exact .inl hl
    · exact .inr (.inl hd)
  | returned => exact hp

theorem Advances.refused_iff (h : Advances call s point s' point') :
    point'.Refused ↔ point.Refused ∨ ¬ point.Accepted call s := by
  cases h with
  | rejects | drafts | refuses | checks | tags | returned | failed => simp [InsertPoint.Refused, InsertPoint.Accepted]
  | creates d v =>
    by_cases hr : s.Accepts (call.row d) <;> simp [InsertPoint.Refused, InsertPoint.Accepted]

theorem Advances.entries (h : Advances call s point s' point') :
    (s'.entries = s.entries ∧ point'.holds = point.holds) ∨
      ∃ d, s.Accepts (call.row d) ∧ s'.entries = s.entries ++ [call.row d] ∧ point.holds = none ∧
        point'.holds = some d := by
  cases h with
  | rejects | drafts | refuses | checks | returned | failed => exact .inl ⟨rfl, rfl⟩
  | creates d v =>
    by_cases hr : s.Accepts (call.row d)
    · exact .inr ⟨d, hr, Store.entries_createEntry hr, rfl, by simp [InsertPoint.holds, hr]⟩
    · exact .inl ⟨by rw [Store.createEntry, dif_neg hr], by simp [InsertPoint.holds, hr]⟩
  | tags => exact .inl ⟨Store.entries_createTag _ _ _, rfl⟩

end Insertion

end AgentiumOs.Repository
