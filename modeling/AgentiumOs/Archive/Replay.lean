import AgentiumOs.Archive.ReadStep
import AgentiumOs.Archive.Render
import AgentiumOs.Citation.Parse

/-! Recorded reads in the prompt. The steps of a conversation are projected one after the other; a
read is shown again from the payload of the send before it, from the table of references, or
from the table that the reader of archives has. -/

namespace AgentiumOs.Tools.ShortRef

open Lib List

def parseU32 (cs : List Char) : Option ℕ := Text.parseUnsigned (2 ^ 32 - 1) (String.ofList cs)

def parse (s : String) : Option ShortRef :=
  match (Text.trim s).toList with
  | '@' :: rest =>
      if '/' ∈ rest then do
        let table ← parseU32 (rest.takeWhile (· ≠ '/'))
        let index ← parseU32 ((rest.dropWhile (· ≠ '/')).drop 1)
        return ⟨table, index⟩
      else (parseU32 rest).map fun index => ⟨1, index⟩
  | _ => none

/-- A reference, or what stands after the last `@`. -/
def parseLoose (s : String) : Option ShortRef :=
  (parse (Text.trim s)).or (if '@' ∈ (Text.trim s).toList then
      parse (String.ofList ('@' :: ((Text.trim s).toList.reverse.takeWhile (· ≠ '@')).reverse))
    else none)

def Fits (r : ShortRef) : Prop := r.table < 2 ^ 32 ∧ r.index < 2 ^ 32

theorem parseU32_repr (h : n < 2 ^ 32) : parseU32 n.repr.toList = some n :=
  (Text.numeral_iff.mp (Listing.numeral_repr (Nat.le_pred_of_lt h))).1

theorem display_toList (r : ShortRef) : r.display.toList = '@' ::
    if r.table = 1 then r.index.repr.toList else r.table.repr.toList ++ '/' :: r.index.repr.toList := by
  unfold display
  split <;> simp

theorem isWhitespace_of_mem_display (r : ShortRef) : ∀ c ∈ r.display.toList, Text.isWhitespace c = false := by
  have hn : ∀ n : ℕ, ∀ c ∈ n.repr.toList, Text.isWhitespace c = false :=
    fun n c hc => Text.isWhitespace_of_isDigit (Listing.isDigit_of_mem_repr hc)
  have hat : Text.isWhitespace '@' = false := by decide
  have hs : Text.isWhitespace '/' = false := by decide
  rw [display_toList]
  split
  · exact forall_mem_cons.mpr ⟨hat, hn _⟩
  · refine forall_mem_cons.mpr ⟨hat, forall_mem_append.mpr ⟨hn _, ?_⟩⟩
    exact forall_mem_cons.mpr ⟨hs, hn _⟩

theorem parse_display (h : r.Fits) : parse r.display = some r := by
  have hs : ∀ n : ℕ, '/' ∉ n.repr.toList := fun n => Listing.notMem_repr (by decide)
  have hd : ∀ c ∈ r.table.repr.toList, decide (c ≠ '/') = true :=
    fun c hc => decide_eq_true fun heq => hs r.table (heq ▸ hc)
  rw [parse, Text.trim_of_forall (isWhitespace_of_mem_display r), display_toList]
  split
  · rename_i rest heq
    obtain ⟨-, rfl⟩ := List.cons.inj heq
    split
    · rename_i hon
      rw [if_neg (hs _), parseU32_repr h.2, ← hon]
      rfl
    · rw [if_pos (mem_append_right _ mem_cons_self), takeWhile_append_of_pos hd,
        dropWhile_append_of_pos hd, takeWhile_cons_of_neg (by decide),
        dropWhile_cons_of_neg (by decide), append_nil, drop_one, tail_cons, parseU32_repr h.1,
        parseU32_repr h.2]
      rfl
  · rename_i ho
    exact absurd rfl (ho _)

/-- The table and the parser of citations read a displayed reference back. -/
theorem displayed_reference_read (p k : UInt32) : parse (display ⟨p.toNat, k.toNat⟩) = some ⟨p.toNat, k.toNat⟩ ∧
      Citation.ParsedCitation.parse (display ⟨p.toNat, k.toNat⟩) = .ok (.archive p.toNat k.toNat none false) ∧
      ∀ q l : UInt32, display ⟨q.toNat, l.toNat⟩ = display ⟨p.toNat, k.toNat⟩ → q = p ∧ l = k := by
  have hf : ∀ q l : UInt32, Fits ⟨q.toNat, l.toNat⟩ := fun q l => ⟨q.toNat_lt, l.toNat_lt⟩
  have hn : ∀ n : UInt32, Text.Numeral Citation.u32Max n.toNat.repr.toList n.toNat :=
    fun n => Listing.numeral_repr (Nat.le_pred_of_lt n.toNat_lt)
  refine ⟨parse_display (hf p k), Citation.Denotes.parse ⟨false, _, display_toList _,
    .archive (r := (p.toNat, k.toNat)) ?_⟩, ?_⟩
  · split
    · rename_i h
      rw [show p.toNat = 1 from h]
      exact .flat (hn k)
    · exact .composite (hn p) (hn k)
  · intro q l h
    have hr := (parse_display (hf q l)).symm.trans ((congrArg parse h).trans (parse_display (hf p k)))
    simpa [UInt32.toNat_inj] using hr

theorem parseLoose_display (h : r.Fits) : parseLoose r.display = some r := by
  rw [parseLoose, Text.trim_of_forall (isWhitespace_of_mem_display r), parse_display h]
  rfl

end AgentiumOs.Tools.ShortRef

namespace AgentiumOs.Archive

open AgentiumOs.Core Lib Tools
open Lib.Json (Value)

/-! ### Steps of a conversation -/

structure SessionStepContent where
  toolName : String
  op : SessionStepOp
  sendDoneReplayPayload : Option Value
  readReplayLines : Option (List String)

/-- A line of the history (a message, a call, a plan, a summary) under its kind, a result that is
shown as it is or filtered, or a step of a session. -/
inductive ConversationItemContent where
  | line (source text : String)
  | result (text : Option String)
  | sessionStep (step : SessionStepContent)

structure ConversationItem where
  activityAnchor : String
  content : ConversationItemContent

/-- The payload of a send with this reference; `some none` if the send has none. -/
def sendDonePayload? (archiveRef : String) (item : ConversationItem) : Option (Option Value) :=
  match item.content with
  | .sessionStep step =>
      match step.op with
      | .sendDone ref _ _ => if ref = archiveRef then some step.sendDoneReplayPayload else none
      | _ => none
  | _ => none

/-- The payload of the last send with this reference. -/
def basePayload (archiveRef : String) (before : List ConversationItem) : Option Value :=
  (before.reverse.findSome? (sendDonePayload? archiveRef)).join

def readRef? : SessionStepOp → Option String
  | .searchRead archiveRef _ _ _ | .pageRead archiveRef _ _ => some archiveRef
  | _ => none

section

variable (L : PatternLibrary) (R : RenderLibrary)

def hydrateItem (before : List ConversationItem) (item : ConversationItem) : ConversationItem :=
  match item.content with
  | .sessionStep step =>
      match (readRef? step.op).bind (basePayload · before) with
      | some val =>
          let rendered := renderToLines R val
          if rendered.isEmpty then item
          else { item with content := .sessionStep { step with readReplayLines := some rendered.lines } }
      | none => item
  | _ => item

/-- Sends are left as they are, so every item can look at those before it as they were. -/
def hydrateSessionStepReadReplays (before : List ConversationItem) : List ConversationItem → List ConversationItem
  | [] => []
  | item :: items => hydrateItem R before item :: hydrateSessionStepReadReplays (before ++ [item]) items

def formatSessionReadFromVtable (vtable : RefTable) (archiveRef : String) (grep : Option String) (offset limit : ℕ) :
    Option String :=
  (ShortRef.parseLoose archiveRef).bind fun r => (vtable.get r).map fun entry =>
    formatSessionReadBodyFromRendered L entry.content archiveRef grep offset (.new limit)

def seedSendDoneReplayArchive (refTable : RefTable) (activityAnchor : String) (step : SessionStepContent)
    (archiveRef : String) : RefTable :=
  match step.sendDoneReplayPayload, ShortRef.parse archiveRef with
  | some payload, some r =>
      let rendered := renderToLines R payload
      if rendered.isEmpty then refTable
      else refTable.insertVirtualArchiveRef r
        (.new rendered step.toolName (some (step.toolName ++ " replayed result")) activityAnchor "tool_result")
  | _, _ => refTable

/-- A read with or without a pattern. The reader of archives looks into a table of its own. -/
def renderRead (refTable : RefTable) (archiveReader : Option RefTable) (readReplayLines : Option (List String))
    (archiveRef : String) (grep : Option String) (offset limit : ℕ) : String :=
  match readReplayLines.filter (· ≠ []) with
  | some lines =>
      formatSessionReadBodyFromRendered L (.fromLines (lines.filter (· ≠ ""))) archiveRef grep offset (.new limit)
  | none =>
      ((formatSessionReadFromVtable L refTable archiveRef grep offset limit).or
        (archiveReader.bind fun vtable => formatSessionReadFromVtable L vtable archiveRef grep offset limit)).getD
        (sessionReadCommandLine archiveRef grep)

def renderSessionStep (archiveReader : Option RefTable) (refTable : RefTable) (activityAnchor : String)
    (step : SessionStepContent) : RefTable × Option String :=
  match step.op with
  | .open => (refTable, none)
  | .sendDone archiveRef _ _ => (seedSendDoneReplayArchive R refTable activityAnchor step archiveRef, none)
  | .searchRead archiveRef grep offset limit =>
      (refTable, some (renderRead L refTable archiveReader step.readReplayLines archiveRef (some grep) offset limit))
  | .pageRead archiveRef offset limit =>
      (refTable, some (renderRead L refTable archiveReader step.readReplayLines archiveRef none offset limit))

def renderProjectionContent (archiveReader : Option RefTable) (refTable : RefTable) (item : ConversationItem) :
    RefTable × Option String :=
  match item.content with
  | .line source text =>
      if Text.trim text = "" then (refTable, none)
      else
        let (n, refTable) := refTable.insertHistory ⟨item.activityAnchor, source⟩ text
        (refTable, some ("#" ++ toString n ++ " " ++ text))
  | .result text => (refTable, text)
  | .sessionStep step => renderSessionStep L R archiveReader refTable item.activityAnchor step

def projectPromptContext (archiveReader : Option RefTable) (refTable : RefTable) (items : List ConversationItem) :
    List (Option String) :=
  Run.outputs (renderProjectionContent L R archiveReader) refTable (hydrateSessionStepReadReplays R [] items)

/-! ### A read that is shown again -/

/-- The entry of the reference, if there is one, has the content. -/
def Archived (content : RenderedContent) (r : ShortRef) (refTable : RefTable) : Prop :=
  ∀ entry, refTable.get r = some entry → entry.content = content

/-- The payload of an item that is a send with the reference renders as the content. -/
def Sends (content : RenderedContent) (r : ShortRef) (item : ConversationItem) : Prop :=
  ∀ step archiveRef header informedBy value, item.content = .sessionStep step →
    step.op = .sendDone archiveRef header informedBy → ShortRef.parse archiveRef = some r →
    step.sendDoneReplayPayload = some value → renderToLines R value = content

/-- Wherever the reference is found, it stands for the content. -/
structure Unchanged (content : RenderedContent) (r : ShortRef) (refTable : RefTable) (archiveReader : Option RefTable)
    (before : List ConversationItem) : Prop where
  payload : ∀ item ∈ before, Sends R content r item
  table : Archived content r refTable
  reader : ∀ vtable ∈ archiveReader, Archived content r vtable

/-- The reference is in the table or in that of the reader. -/
def Available (r : ShortRef) (refTable : RefTable) (archiveReader : Option RefTable) : Prop :=
  (refTable.get r).isSome = true ∨ (archiveReader.bind (·.get r)).isSome = true

theorem hydrateSessionStepReadReplays_concat (before i : List ConversationItem) (item : ConversationItem) :
    hydrateSessionStepReadReplays R before (i ++ [item]) =
      hydrateSessionStepReadReplays R before i ++ [hydrateItem R (before ++ i) item] := by
  induction i generalizing before with
  | nil => simp [hydrateSessionStepReadReplays]
  | cons first i ih => simp [hydrateSessionStepReadReplays, ih]

variable {before it : List ConversationItem} {content : RenderedContent} {r : ShortRef}
  {refTable t : RefTable} {archiveReader : Option RefTable} {value : Value} {item : ConversationItem}

theorem basePayload_mem (h : basePayload ar before = some value) :
    ∃ item ∈ before, ∃ step he i, item.content = .sessionStep step ∧
      step.op = .sendDone ar he i ∧ step.sendDoneReplayPayload = some value := by
  obtain ⟨item, hm, hs⟩ := List.exists_of_findSome?_eq_some (Option.join_eq_some_iff.mp h)
  refine ⟨item, List.mem_reverse.mp hm, ?_⟩
  unfold sendDonePayload? at hs
  split at hs
  · rename_i step hc
    split at hs
    · rename_i ref he i hop
      split at hs
      · rename_i hr
        exact ⟨step, he, i, hc, hr ▸ hop, Option.some.inj hs⟩
      · cases hs
    · cases hs
  · cases hs

theorem sends_hydrateItem (h : Sends R content r item) (before : List ConversationItem) :
    Sends R content r (hydrateItem R before item) := by
  unfold hydrateItem
  split
  · rename_i step hc
    split
    · dsimp only
      split
      · exact h
      · intro step' ar he i value hs hop hp hv
        cases hs
        exact h step ar he i value hc hop hp hv
    · exact h
  · exact h

theorem get_insertHistory (refTable : RefTable) (e : HistoryEntry) (content : String) (r : ShortRef) :
    (refTable.insertHistory e content).2.get r = refTable.get r := by
  unfold RefTable.insertHistory
  split
  · dsimp only
    split <;> rfl
  · rfl

theorem get_insertVirtualArchiveRef (refTable : RefTable) (r' : ShortRef) (e : ArchiveEntry) (r : ShortRef) :
    (refTable.insertVirtualArchiveRef r' e).get r = if r = r' then some e else refTable.get r := by
  have hp : (refTable.putEntry r' e).get r = if r = r' then some e else refTable.get r :=
    Function.update_apply _ _ _ _
  unfold RefTable.insertVirtualArchiveRef
  split
  · exact hp
  · exact hp

theorem holds_render (archiveReader : Option RefTable) (h : Archived content r refTable)
    (hi : Sends R content r item) :
    Archived content r (renderProjectionContent L R archiveReader refTable item).1 := by
  unfold renderProjectionContent
  split
  · split
    · exact h
    · intro entry hg
      exact h entry ((get_insertHistory refTable _ _ r).symm.trans hg)
  · exact h
  · rename_i step hc
    unfold renderSessionStep
    split
    · exact h
    · rename_i ar he i hop
      unfold seedSendDoneReplayArchive
      split
      · rename_i payload r' hp hpa
        dsimp only
        split
        · exact h
        · intro entry hg
          rw [get_insertVirtualArchiveRef] at hg
          split at hg
          · rename_i hr
            obtain rfl := Option.some.inj hg
            exact hi step ar he i payload hc hop (hr ▸ hpa) hp
          · exact h entry hg
      · exact h
    · exact h
    · exact h

theorem holds_project (archiveReader : Option RefTable) (h : Archived content r refTable)
    (hit : ∀ item ∈ it, Sends R content r item) (before : List ConversationItem) :
    Archived content r (Run.exec (renderProjectionContent L R archiveReader) refTable
      (hydrateSessionStepReadReplays R before it)) := by
  induction it generalizing refTable before with
  | nil => exact h
  | cons item it ih =>
    exact ih (holds_render L R archiveReader h (sends_hydrateItem R (hit item List.mem_cons_self) before))
      (fun i hi => hit i (List.mem_cons_of_mem _ hi)) _

def projectedTable (archiveReader : Option RefTable) (refTable : RefTable) (before : List ConversationItem) :
    RefTable :=
  Run.exec (renderProjectionContent L R archiveReader) refTable (hydrateSessionStepReadReplays R [] before)

variable {L}

/-- The lines of the payload that a read has been given. -/
def replayLines (archiveRef : String) (before : List ConversationItem) : Option (List String) :=
  ((basePayload archiveRef before).map fun val => (renderToLines R val).lines).filter (· ≠ [])

theorem hydrateItem_read (before : List ConversationItem) (an t : String) (op : SessionStepOp) :
    hydrateItem R before ⟨an, .sessionStep ⟨t, op, none, none⟩⟩ =
      ⟨an, .sessionStep ⟨t, op, none, (readRef? op).bind (replayLines R · before)⟩⟩ := by
  cases hr : readRef? op with
  | none => simp [hydrateItem, hr]
  | some ar =>
    cases hb : basePayload ar before with
    | none => simp [hydrateItem, hr, hb, replayLines]
    | some val =>
      by_cases he : (renderToLines R val).lines = []
      all_goals simp [hydrateItem, hr, hb, replayLines, RenderedContent.isEmpty, he, Option.filter_some]

/-- A read that comes last is shown from the table that the items before it leave. -/
theorem getLast?_projectPromptContext (archiveReader : Option RefTable) (refTable : RefTable)
    (before : List ConversationItem) (an t : String) (r : ShortRef) (gr : Option (GrepPattern L))
    (o : ℕ) (l : PageLimit) :
    (projectPromptContext L R archiveReader refTable
        (before ++ [⟨an, .sessionStep ⟨t, recordedRead r gr o l, none, none⟩⟩])).getLast? =
      some (some (renderRead L (projectedTable L R archiveReader refTable before) archiveReader
        (replayLines R r.display before) r.display (gr.map GrepPattern.patternText) o l.get)) := by
  rw [projectPromptContext, hydrateSessionStepReadReplays_concat, Run.outputs_concat, List.getLast?_concat,
    hydrateItem_read]
  cases gr with
  | none => rfl
  | some g => rfl

variable {R}

theorem Unchanged.renderToLines_eq (hu : Unchanged R content r refTable archiveReader before) (hf : r.Fits)
    (hv : basePayload r.display before = some value) : renderToLines R value = content := by
  obtain ⟨item, hi, step, he, i, hc, hop, hp⟩ := basePayload_mem hv
  exact hu.payload item hi step _ he i value hc hop (ShortRef.parse_display hf) hp

theorem renderRead_of_replayLines (hf : r.Fits) (hu : Unchanged R content r refTable archiveReader before)
    (hb : (basePayload r.display before).isSome = true) (hne : content.lines ≠ []) (t : RefTable)
    (g : Option String) (o : ℕ) (limit : PageLimit) :
    renderRead L t archiveReader (replayLines R r.display before) r.display g o limit.get =
      formatSessionReadBodyFromRendered L (.fromLines (content.lines.filter (· ≠ ""))) r.display g o limit := by
  obtain ⟨value, hv⟩ := Option.isSome_iff_exists.mp hb
  have hl : replayLines R r.display before = some content.lines := by
    simp [replayLines, hv, hu.renderToLines_eq hf hv, hne]
  simp [renderRead, hl, hne, Option.filter_some]

theorem renderRead_of_none (hfi : r.Fits) (ht : Archived content r t)
    (hrd : ∀ v ∈ archiveReader, Archived content r v) (g : Option String) (o : ℕ)
    (limit : PageLimit) :
    (Available r t archiveReader ∧ renderRead L t archiveReader none r.display g o limit.get =
        formatSessionReadBodyFromRendered L content r.display g o limit) ∨
      (¬ Available r t archiveReader ∧ renderRead L t archiveReader none r.display g o limit.get =
        sessionReadCommandLine r.display g) := by
  have hf : ∀ v : RefTable, formatSessionReadFromVtable L v r.display g o limit.get =
      (v.get r).map fun entry =>
        formatSessionReadBodyFromRendered L entry.content r.display g o limit := by
    simp [formatSessionReadFromVtable, ShortRef.parseLoose_display hfi]
  have hre : renderRead L t archiveReader none r.display g o limit.get =
      (((t.get r).or (archiveReader.bind (·.get r))).map fun entry =>
        formatSessionReadBodyFromRendered L entry.content r.display g o limit).getD
        (sessionReadCommandLine r.display g) := by
    cases archiveReader with
    | none => simp [renderRead, hf]
    | some v =>
      simp only [renderRead, hf]
      cases t.get r with
      | none => rfl
      | some entry => rfl
  cases hg : t.get r with
  | some entry =>
    refine .inl ⟨.inl (by simp [hg]), ?_⟩
    rw [hre, hg, ← ht entry hg]
    rfl
  | none =>
    cases hr : archiveReader.bind (·.get r) with
    | some entry =>
      obtain ⟨v, hv, he⟩ := Option.bind_eq_some_iff.mp hr
      refine .inl ⟨.inr (by simp [hr]), ?_⟩
      rw [hre, hg, hr, ← hrd v hv entry he]
      rfl
    | none =>
      refine .inr ⟨by simp [Available, hg, hr], ?_⟩
      rw [hre, hg, hr]
      rfl

theorem shownLines_command (ar : String) (g : Option String) :
    shownLines ar g (sessionReadCommandLine ar g) = [] := by
  rw [shownLines, List.drop_of_length_le (String.length_toList ▸ Nat.le_succ _)]
  rfl

theorem map_text_matched (content : RenderedContent) :
    (matched content (none : Option (GrepPattern L))).map LineWithPosition.text = content.lines := by
  simp [matched, Function.comp_def]

theorem nonblank_pages_iff (content : RenderedContent) :
    (∀ (g : Option (GrepPattern L)) (o : ℕ) (l : PageLimit),
        (grepPaginate (.fromLines (content.lines.filter (· ≠ "")))
          (rereadPattern L (g.map GrepPattern.patternText)) o l).lines =
        (grepPaginate content (rereadPattern L (g.map GrepPattern.patternText)) o l).lines) ↔
      "" ∉ content.lines := by
  have hli : (RenderedContent.fromLines (content.lines.filter (· ≠ ""))).lines = content.lines.filter (· ≠ "") :=
    RenderedContent.lines_fromLines fun li hl => content.newline_notMem li (List.mem_of_mem_filter hl)
  constructor
  · intro hp
    have hm : matched (.fromLines (content.lines.filter (· ≠ ""))) none =
        matched content none := matched_eq_of_pages (hp none)
    have ht := congrArg (List.map LineWithPosition.text) hm
    rw [map_text_matched, map_text_matched, hli] at ht
    intro hme
    exact of_decide_eq_true (List.filter_eq_self.mp ht "" hme) rfl
  · intro hf g o l
    have ha : content.lines.filter (· ≠ "") = content.lines := by
      refine List.filter_eq_self.mpr fun li hl => ?_
      exact decide_eq_true fun heq => hf (heq ▸ hl)
    rw [ha, RenderedContent.fromLines_lines]

theorem empty_pages_iff (content : RenderedContent) :
    (∀ (g : Option (GrepPattern L)) (o : ℕ) (l : PageLimit), [] =
        (grepPaginate content (rereadPattern L (g.map GrepPattern.patternText)) o l).lines) ↔
      content.lines = [] := by
  constructor
  · intro hp
    have hf : [] = (grepPaginate content none 0 (.new 1)).lines := hp none 0 (.new 1)
    have hn : matched content (none : Option (GrepPattern L)) = [] := by
      rw [grepPaginate_one] at hf
      simpa using hf.symm
    rw [← map_text_matched (L := L), hn]
    rfl
  · intro he g o l
    simp [grepPaginate, matched, he]

/-- The text of a read in the projection shows the lines of the live read. -/
def ReplaysRead (L : PatternLibrary) (R : RenderLibrary) (archiveReader : Option RefTable) (refTable : RefTable)
    (before : List ConversationItem) (content : RenderedContent) (r : ShortRef) : Prop :=
  ∀ (grep : Option (GrepPattern L)) (offset : ℕ) (limit : PageLimit),
    shownLines r.display (grep.map GrepPattern.patternText)
        (renderRead L (projectedTable L R archiveReader refTable before) archiveReader (replayLines R r.display before)
          r.display (grep.map GrepPattern.patternText) offset limit.get) =
      (grepPaginate content (rereadPattern L (grep.map GrepPattern.patternText)) offset limit).lines

theorem replaysRead_of_payload (hf : r.Fits) (hu : Unchanged R content r refTable archiveReader before)
    (hb : (basePayload r.display before).isSome = true) (hne : content.lines ≠ []) :
    ReplaysRead L R archiveReader refTable before content r ↔ "" ∉ content.lines := by
  rw [← nonblank_pages_iff (L := L)]
  refine forall_congr' fun grep => forall_congr' fun offset => forall_congr' fun limit => ?_
  rw [renderRead_of_replayLines hf hu hb hne, shownLines_formatRendered]

theorem replaysRead_of_none (hf : r.Fits) (hu : Unchanged R content r refTable archiveReader before)
    (hl : replayLines R r.display before = none) :
    ReplaysRead L R archiveReader refTable before content r ↔
      content.lines = [] ∨ Available r (projectedTable L R archiveReader refTable before) archiveReader := by
  have hta : Archived content r (projectedTable L R archiveReader refTable before) :=
    holds_project L R archiveReader hu.table hu.payload []
  have hc := renderRead_of_none (L := L) hf hta hu.reader
  unfold ReplaysRead
  rw [hl]
  by_cases ha : Available r (projectedTable L R archiveReader refTable before) archiveReader
  · refine iff_of_true (fun g o l => ?_) (.inr ha)
    obtain ⟨-, ht⟩ | ⟨hn, -⟩ := hc (g.map GrepPattern.patternText) o l
    · rw [ht, shownLines_formatRendered]
    · exact absurd ha hn
  · rw [or_iff_left ha, ← empty_pages_iff (L := L)]
    refine forall_congr' fun g => forall_congr' fun o => forall_congr' fun l => ?_
    obtain ⟨hav, -⟩ | ⟨-, ht⟩ := hc (g.map GrepPattern.patternText) o l
    · exact absurd hav ha
    · rw [ht, shownLines_command]

/-- Every read is shown again as it was exactly when no line is empty if there is a payload of a
send, and the content is found (or empty) if there is none. -/
theorem replaysRead_iff (hf : r.Fits) (hu : Unchanged R content r refTable archiveReader before) :
    ReplaysRead L R archiveReader refTable before content r ↔
      ((basePayload r.display before).isSome = true → "" ∉ content.lines) ∧
        (basePayload r.display before = none →
          content.lines = [] ∨ Available r (projectedTable L R archiveReader refTable before) archiveReader) := by
  cases hb : basePayload r.display before with
  | none =>
    have hl : replayLines R r.display before = none := by simp [replayLines, hb]
    simp [replaysRead_of_none hf hu hl]
  | some value =>
    by_cases he : content.lines = []
    · have hl : replayLines R r.display before = none := by
        simp [replayLines, hb, hu.renderToLines_eq hf hb, he]
      simp [replaysRead_of_none hf hu hl, he]
    · have hs : (basePayload r.display before).isSome = true := by rw [hb]; rfl
      simp [replaysRead_of_payload hf hu hs he]

/-- The lines of a read that is shown again are those of the live read, whatever its pattern, offset
and limit, exactly when no line is empty if there is a payload of a send, and the content is
found (or empty) if there is none. -/
theorem replay_shows_live_lines_iff {live live' : RefTable} {store : ArchiveStore} {r : ShortRef} {entry : ArchiveEntry}
    (hresolved : resolveArchiveEntry live store r = .ok (entry, live')) (hfits : r.Fits) {refTable : RefTable}
    {archiveReader : Option RefTable} {before : List ConversationItem}
    (hunchanged : Unchanged R entry.content r refTable archiveReader before) :
    (∀ (grep : Option (GrepPattern L)) (offset : ℕ) (limit : PageLimit) (opName anchor toolName : String),
        ∃ body op hasMore nextOffset text, executeArchiveReadStep live store opName r offset limit grep =
            .ok ⟨readJson ⟨entry.displayHeader r ++ "\n" ++ body, hasMore, nextOffset⟩, some op, live'⟩ ∧
          (projectPromptContext L R archiveReader refTable
            (before ++ [⟨anchor, .sessionStep ⟨toolName, op, none, none⟩⟩])).getLast? = some (some text) ∧
          shownLines r.display (grep.map GrepPattern.patternText) text =
            shownLines r.display (grep.map GrepPattern.patternText) body) ↔
      ((basePayload r.display before).isSome = true → "" ∉ entry.content.lines) ∧
        (basePayload r.display before = none →
          entry.content.lines = [] ∨ Available r (projectedTable L R archiveReader refTable before) archiveReader) := by
  rw [← replaysRead_iff hfits hunchanged]
  refine forall_congr' fun grep => forall_congr' fun offset => forall_congr' fun limit => ?_
  rw [← shownLines_readBody entry.content r grep offset limit]
  constructor
  · intro hr
    obtain ⟨body, op, hasMore, nextOffset, text, hst, ht, hs⟩ := hr "" "" ""
    rw [executeArchiveReadStep_of_resolved hresolved] at hst
    obtain ⟨ho, hop, -⟩ := ReadOutcome.mk.inj (Except.ok.inj hst)
    obtain rfl := Option.some.inj hop
    have hb : readBody entry.content r grep offset limit = body := by
      simp only [readJson, Value.object.injEq, List.cons.injEq, Prod.mk.injEq] at ho
      simpa using ho.2.1.2
    rw [getLast?_projectPromptContext] at ht
    obtain rfl := Option.some.inj (Option.some.inj ht)
    rw [hb, hs]
  · intro hs opName anchor toolName
    exact ⟨_, _, _, _, _, executeArchiveReadStep_of_resolved hresolved opName offset limit grep,
      getLast?_projectPromptContext R archiveReader refTable before anchor toolName r grep offset limit, hs⟩

end

def sendOf (archiveRef : String) (payload : Value) : ConversationItem :=
  ⟨"activity", .sessionStep ⟨"ci", .sendDone archiveRef "" "", some payload, none⟩⟩

theorem unchanged_sendOf (R : RenderLibrary) (payload : Value) :
    Unchanged R (renderToLines R payload) ⟨1, 1⟩ .new none [sendOf "@1" payload] where
  payload := by
    intro item hi step ar header i value hc hop hp hv
    obtain rfl := List.mem_singleton.mp hi
    cases hc
    cases hv
    rfl
  table := by
    intro entry hg
    cases hg
  reader := by
    intro vtable hvt
    cases hvt

/-- The archived result of a tool, and a table that has it as `@1`. -/
def resultOf (content : RenderedContent) : ArchiveEntry := .new content "ci" none "activity" "tool_result"

def archived (content : RenderedContent) : RefTable := RefTable.new.insertAt ⟨1, 1⟩ (resultOf content)

theorem resolve_archived (content : RenderedContent) :
    resolveArchiveEntry (archived content) none ⟨1, 1⟩ = .ok (resultOf content, archived content) := rfl

theorem fits_one : ShortRef.Fits ⟨1, 1⟩ := by
  constructor <;> decide

/-- Values that are not texts are all written as `0`. -/
def zeros : RenderLibrary := ⟨fun _ => "0", fun _ => by decide, Text.toAsciiLowercase⟩

theorem replay_shows_live_lines_of_status : ∃ body op hasMore nextOffset text,
      executeArchiveReadStep (archived (renderToLines zeros (.object [("status", .null)]))) none "PageRead" ⟨1, 1⟩ 0
          .default (none : Option (GrepPattern fixedTexts)) =
        .ok ⟨readJson
          ⟨(resultOf (renderToLines zeros (.object [("status", .null)]))).displayHeader ⟨1, 1⟩ ++ "\n" ++ body,
          hasMore, nextOffset⟩, some op, archived (renderToLines zeros (.object [("status", .null)]))⟩ ∧
      (projectPromptContext fixedTexts zeros none .new ([sendOf "@1" (.object [("status", .null)])] ++
        [⟨"activity", .sessionStep ⟨"ci", op, none, none⟩⟩])).getLast? = some (some text) ∧
      shownLines "@1" none text = shownLines "@1" none body := by
  have hl : "" ∉ (renderToLines zeros (.object [("status", .null)])).lines := by
    decide
  have hr := (replay_shows_live_lines_iff (L := fixedTexts) (resolve_archived _) fits_one
    (unchanged_sendOf zeros (.object [("status", .null)]))).mpr
    ⟨fun _ => hl, fun hn => by cases hn⟩
  exact hr none 0 .default "PageRead" "activity" "ci"

/-- An empty line of the archived result is not shown again, and the lines after it have other
numbers. -/
theorem empty_line_lost_in_replay : ∃ body text,
      executeArchiveReadStep (archived (renderToLines zeros (.object [("a\n\nb", .null)]))) none "PageRead" ⟨1, 1⟩ 0
        .default
          (none : Option (GrepPattern fixedTexts)) =
        .ok ⟨readJson
          ⟨(resultOf (renderToLines zeros (.object [("a\n\nb", .null)]))).displayHeader ⟨1, 1⟩ ++ "\n" ++ body,
          false, 3⟩, some (.pageRead "@1" 0 200), archived (renderToLines zeros (.object [("a\n\nb", .null)]))⟩ ∧
      shownLines "@1" none body = [⟨1, "a"⟩, ⟨2, ""⟩, ⟨3, "b: null"⟩] ∧
      (projectPromptContext fixedTexts zeros none .new ([sendOf "@1" (.object [("a\n\nb", .null)])] ++
        [⟨"activity", .sessionStep ⟨"ci", .pageRead "@1" 0 200, none, none⟩⟩])).getLast? = some (some text) ∧
      shownLines "@1" none text = [⟨1, "a"⟩, ⟨2, "b: null"⟩] := by
  refine ⟨readBody (renderToLines zeros (.object [("a\n\nb", .null)])) ⟨1, 1⟩ none 0 .default,
    formatSessionReadBodyFromRendered fixedTexts (.fromLines ["a", "b: null"]) "@1" none 0 .default, rfl, ?_, ?_, ?_⟩
  · exact (shownLines_readBody _ ⟨1, 1⟩ none 0 .default).trans (by decide +kernel)
  · decide +kernel
  · exact shownLines_formatRendered fixedTexts (.fromLines ["a", "b: null"]) ⟨1, 1⟩ none 0 .default

end AgentiumOs.Archive
