import AgentiumOs.Repository.Service

/-! What a call does to the repository, whatever fails in it. It reads, stores one entry
that is new under its hash and under its name and version, and records the edges of
that entry. A statement that fails may have been carried out. -/

namespace AgentiumOs.Repository

open Lib Lib.Program Lib.Script List

namespace Statement

def IsSelect : Statement → Prop
  | createEntry _ | createTag _ _ | createEdge _ => False
  | selectVersion _ | selectDuplicate _ | selectByHash _ | selectByVersion _ _ | selectLatest _
  | selectTags _ => True

/-- A failure after which the entry of the call is in the store: the entry was stored all the same, or
its edges come next. -/
def LeavesEntry : Statement × Bool → Prop
  | (createEntry _, true) | (createEdge _, _) => True
  | _ => False

theorem IsSelect.apply (st : Statement) (h : st.IsSelect) (s : Store) : st.apply s = s := by
  cases st <;> first | rfl | cases h

theorem IsSelect.not_leavesEntry (f : Statement × Bool) (h : f.1.IsSelect) : ¬ LeavesEntry f := by
  rcases f with ⟨stmt, applied⟩
  cases stmt <;> first | exact fun he => he | cases h

end Statement

abbrev Reads {α : Type} (m : RepositoryQuery α) : Prop := Uses Statement.IsSelect m

variable {α : Type}

theorem reads_select (st : Statement) (h : st.IsSelect) (r : Store → α) :
    Reads (select st r) := uses_query h _ _

theorem reads_decode (l : String) (x : Except String α) : Reads (decode l x) := by
  cases x with
  | error e => exact uses_throw _
  | ok a => exact uses_pure a

theorem reads_entryFromRow (row : EntryRow) : Reads (entryFromRow row) := by
  refine .bind (reads_decode _ _) fun name => .bind (reads_decode _ _) fun v => ?_
  refine .bind (reads_decode _ _) fun r => ?_
  exact .bind (reads_select (.selectTags row.hash) trivial _) fun tags => uses_pure _

theorem reads_entryFromRow? (row? : Option EntryRow) : Reads (entryFromRow? row?) := by
  cases row? with
  | none => exact uses_pure _
  | some row => exact .bind (reads_entryFromRow row) fun e => uses_pure _

theorem reads_getByHash (hash : ContentHash) : Reads (getByHash hash) :=
  .bind (reads_select (.selectByHash hash) trivial _) reads_entryFromRow?

theorem reads_greatestGeneration (i : List InfluenceRef) (m : Generation) : Reads (greatestGeneration m i) := by
  induction i generalizing m with
  | nil => exact uses_pure _
  | cons inf i ih =>
    refine .bind (reads_getByHash _) fun e? => ?_
    cases e? with
    | none => exact uses_throw _
    | some e => exact ih _

theorem reads_derivation (n : AgentName) (o : PublishOrigin) : Reads (derivation n o) := by
  cases o with
  | original => exact uses_pure _
  | iteration =>
    refine .bind (.bind (reads_select (.selectLatest _) trivial _) reads_entryFromRow?) fun prev? => ?_
    cases prev? with
    | none | some prev => exact uses_pure _
  | influenced i => exact .bind (reads_greatestGeneration _ _) fun g => uses_pure _

variable {c c' : Connection Statement String Store} {e : RepositoryEntry}

abbrev Clean (c : Connection Statement String Store) : Prop := ∀ f ∈ c.failed, ¬ Statement.LeavesEntry f

theorem reads_run {m : RepositoryQuery α} (h : Reads m) (hc : Clean c) :
    ∃ r c', perform (execute Statement.apply) m c = (r, c') ∧ c'.store = c.store ∧ Clean c' :=
  ⟨_, _, rfl, store_eq_of_uses h Statement.IsSelect.apply rfl,
    failed_of_uses h Statement.IsSelect.not_leavesEntry rfl hc⟩

theorem Clean.append (hc : Clean c) {st : Store} {fa : List (Option (Fault String))}
    (h : ∀ f ∈ fai, ¬ Statement.LeavesEntry f) : Clean ⟨st, fa, c.failed ++ fai⟩ :=
  forall_mem_append.mpr ⟨hc, h⟩

theorem entryFromRow_ok (h : perform (execute Statement.apply) (entryFromRow row) c = (.ok e, c')) :
    e.hash = row.hash ∧ e.generation = row.generation := by
  obtain ⟨name, mid, -, h⟩ := (perform_bind_eq_ok _).mp h
  obtain ⟨v, mid, -, h⟩ := (perform_bind_eq_ok _).mp h
  obtain ⟨r, mid, -, h⟩ := (perform_bind_eq_ok _).mp h
  obtain ⟨tags, mid, -, h⟩ := (perform_bind_eq_ok _).mp h
  cases h
  exact ⟨rfl, rfl⟩

theorem entryFromRow?_ok (h : perform (execute Statement.apply) (entryFromRow? row?) c = (.ok (some e), c')) :
    ∃ row, row? = some row ∧ e.hash = row.hash ∧ e.generation = row.generation := by
  cases row? with
  | none => cases h
  | some row =>
    obtain ⟨e', mid, he, h⟩ := (perform_bind_eq_ok _).mp h
    cases h
    exact ⟨row, rfl, entryFromRow_ok he⟩

theorem getByHash_ok {hash : ContentHash}
    (h : perform (execute Statement.apply) (getByHash hash) c = (.ok (some e), c')) :
    ∃ row ∈ c.store.entries, row.hash = hash ∧ row.generation = e.generation := by
  obtain ⟨row?, mid, hs, h⟩ := (perform_bind_eq_ok _).mp h
  obtain ⟨row, rfl, -, hg⟩ := entryFromRow?_ok h
  have hf : c.store.rowByHash hash = some row := (perform_query_eq_ok _ hs).1.symm
  exact ⟨row, mem_of_find?_eq_some hf, by simpa using find?_some hf, hg.symm⟩

theorem getLatest_ok (h : perform (execute Statement.apply) (getLatest n) c = (.ok (some e), c')) :
    ∃ row ∈ c.store.entries, row.hash = e.hash ∧ row.generation = e.generation := by
  obtain ⟨row?, mid, hs, h⟩ := (perform_bind_eq_ok _).mp h
  obtain ⟨row, rfl, hh, hg⟩ := entryFromRow?_ok h
  have hf : c.store.latestRow n.text = some row := (perform_query_eq_ok _ hs).1.symm
  have hm := argmax_mem hf
  exact ⟨row, (mem_filter.mp hm).1, hh.symm, hg.symm⟩

namespace Store

theorem entries_createEntry {s : Store} {row : EntryRow} (h : s.Accepts row) :
    (s.createEntry row).entries = s.entries ++ [row] := by
  rw [createEntry, dif_pos h]

variable (s : Store)

@[simp] theorem edges_createEntry (row : EntryRow) : (s.createEntry row).edges = s.edges := by
  unfold createEntry
  split <;> rfl

@[simp] theorem tags_createEntry (row : EntryRow) : (s.createEntry row).tags = s.tags := by
  unfold createEntry
  split <;> rfl

@[simp] theorem entries_createTag (hash : ContentHash) (tag : Tag) : (s.createTag hash tag).entries = s.entries := by
  unfold createTag
  split <;> rfl

@[simp] theorem edges_createTag (hash : ContentHash) (tag : Tag) : (s.createTag hash tag).edges = s.edges := by
  unfold createTag
  split <;> rfl

variable {hash : ContentHash}

theorem mem_tags_createTag : x ∈ (s.createTag hash tag).tags ↔ x ∈ s.tags ∨ x = (hash, tag) := by
  unfold createTag
  split
  · rename_i h
    exact ⟨.inl, fun hx => hx.elim id fun heq => heq ▸ h⟩
  · simp

@[simp] theorem entries_createEdge (edge : LineageEdge) : (s.createEdge edge).entries = s.entries := by
  unfold createEdge
  split <;> rfl

theorem mem_edges_createEdge {s : Store} {edge e : LineageEdge} (h : e ∈ (s.createEdge edge).edges) :
    e ∈ s.edges ∨ e = edge := by
  unfold createEdge at h
  split at h
  · exact .inl h
  · simpa using h

theorem nextVersion_fresh (name : String) (hne : nextVersion ((s.latestRow name).map EntryRow.version) ≠ 0) :
    (name, nextVersion ((s.latestRow name).map EntryRow.version)) ∉ s.entries.map EntryRow.nameVersion := by
  intro hm
  obtain ⟨row, hr, heq⟩ := mem_map.mp hm
  obtain ⟨hn, hv⟩ := Prod.mk.inj heq
  have hf : row ∈ s.entries.filter fun row => row.agentName = name :=
    mem_filter.mpr ⟨hr, by simpa using hn⟩
  cases hl : s.latestRow name with
  | none =>
    rw [latestRow, argmax_eq_none] at hl
    rw [hl] at hf
    cases hf
  | some l =>
    have hle : row.version.toNat ≤ l.version.toNat :=
      le_of_mem_argmax (f := fun row : EntryRow => row.version.toNat) hf hl
    rw [hl] at hv hne
    simp only [Option.map_some, nextVersion] at hv hne
    have hs : (l.version + 1).toNat = l.version.toNat + 1 := by
      have hlt := l.version.toNat_lt
      have hz : (l.version + 1).toNat ≠ 0 := fun h => hne (UInt32.toNat_inj.mp h)
      rw [UInt32.toNat_add] at hz ⊢
      have ho : (1 : UInt32).toNat = 1 := rfl
      omega
    rw [hv] at hle
    omega

theorem notMem_of_rowByHash {s : Store} (h : s.rowByHash hash = none) : hash ∉ s.entries.map EntryRow.hash := by
  intro hm
  obtain ⟨row, hr, heq⟩ := mem_map.mp hm
  exact find?_eq_none.mp h row hr (by simpa using heq)

end Store

theorem Version.value_of_new {value : UInt32} {v : Version} (h : Version.new value = .ok v) :
    v.value = value := by
  unfold Version.new at h
  split at h
  · cases h
  · cases h
    rfl

theorem draft_nextVersion {H : Hashing} {en : NewEntry} {v : UInt32} {d : Draft}
    (h : draft H en v = .ok d) : d.nextVersion = v := by
  unfold draft at h
  split at h
  · cases h
  · split at h
    · cases h
    · cases h
      rfl

theorem createTags_run (st : RepositoryEntry) (t : List Tag) (hc : Clean c) :
    ∃ c', perform (execute Statement.apply) (createTags st t) c = (.ok st, c') ∧
      c'.store.entries = c.store.entries ∧ c'.store.edges = c.store.edges ∧ Clean c' := by
  induction t generalizing c with
  | nil => exact ⟨c, rfl, rfl, rfl, hc⟩
  | cons tag t ih =>
    rw [createTags, perform_bind]
    obtain ⟨store, f, failed, h, hs, hfa⟩ :=
      perform_attempt_cases Statement.apply (.createTag st.hash tag) c
    have hcl : Clean ⟨store, f, c.failed ++ failed⟩ := by
      refine hc.append ?_
      rintro ⟨stmt, applied⟩ hf
      obtain rfl : stmt = _ := hfa _ hf
      exact fun h => h
    obtain ⟨c', hr, he, hed, hc'⟩ := ih hcl
    rw [h]
    rcases hs with rfl | rfl
    · exact ⟨c', hr, he, hed, hc'⟩
    · exact ⟨c', hr, he.trans (Store.entries_createTag _ _ _), hed.trans (Store.edges_createTag _ _ _), hc'⟩

theorem duplicateError_run (hash : ContentHash) (row : EntryRow) (c : Connection Statement String Store) :
    ∃ f, perform (execute Statement.apply) (duplicateError hash row) c = (.error f, c) := by
  unfold duplicateError
  cases AgentName.parse row.agentName with
  | error e => exact ⟨_, rfl⟩
  | ok name =>
    cases Version.new row.version with
    | error e | ok v => exact ⟨_, rfl⟩

structure Inserted (s s' : Store) (row : EntryRow) : Prop where
  entries : s'.entries = s.entries ++ [row]
  edges : s'.edges = s.edges

variable (H : Hashing)

/-- What the insertion of an entry comes to; the statement that stores it may fail after it did. -/
inductive InsertEffect (createdAt : Timestamp) (entry : NewEntry) (s : Store) :
    Except Failure RepositoryEntry × Connection Statement String Store → Prop
  | untouched (f : Failure) (c : Connection Statement String Store) (hs : c.store = s) (hc : Clean c) :
      InsertEffect createdAt entry s (.error f, c)
  | stored (d : Draft) (v : Version) (c : Connection Statement String Store)
      (hin : Inserted s c.store (entry.row d createdAt)) (hc : Clean c) :
      InsertEffect createdAt entry s (.ok (entry.stored d v createdAt), c)
  | left (d : Draft) (m : String) (c : Connection Statement String Store)
      (hin : Inserted s c.store (entry.row d createdAt)) (hf : ∃ f ∈ c.failed, Statement.LeavesEntry f) :
      InsertEffect createdAt entry s (.error (writeError m), c)

theorem storeEntry_effect {en : NewEntry} (v : Version) (hc : Clean c) (ha : c.store.Accepts (en.row d ca)) :
    InsertEffect ca en c.store (perform (execute Statement.apply) (storeEntry ca en d v) c) := by
  have hin : Inserted c.store (c.store.createEntry (en.row d ca)) (en.row d ca) :=
    ⟨Store.entries_createEntry ha, Store.edges_createEntry _ _⟩
  rw [storeEntry, perform_bind]
  rcases perform_query_cases Statement.apply (.createEntry (en.row d ca)) (fun _ => ()) writeError c with
    ⟨⟨m, ap⟩, fa, h⟩ | ⟨fa, h⟩
  · rw [create, h]
    cases ap with
    | false => exact .untouched _ _ rfl (hc.append (forall_mem_singleton.mpr fun h => h))
    | true => exact .left d m _ hin ⟨_, mem_append_right _ (mem_singleton_self _), trivial⟩
  · obtain ⟨c', hr, he, hed, hc'⟩ := @createTags_run
      ⟨c.store.createEntry (en.row d ca), fa, c.failed⟩ (en.stored d v ca) en.tags hc
    rw [create, h]
    dsimp only
    rw [Statement.apply, hr]
    exact .stored d v c' ⟨he.trans hin.entries, hed.trans hin.edges⟩ hc'

theorem insertEntry_effect (ca : Timestamp) (en : NewEntry) (hc : Clean c) :
    InsertEffect ca en c.store (perform (execute Statement.apply) (insertEntry H ca en) c) := by
  obtain ⟨latest, c₁, hl, hs, hc⟩ := reads_run (reads_select (.selectVersion en.name.text) trivial
    fun s => (s.latestRow en.name.text).map EntryRow.version) hc
  rw [insertEntry, perform_bind, hl, ← hs]
  cases latest with
  | error f => exact .untouched f c₁ rfl hc
  | ok latest =>
    obtain rfl := (perform_query_eq_ok _ hl).1
    dsimp only
    rw [← hs]
    cases hd : draft H en (nextVersion ((c₁.store.latestRow en.name.text).map EntryRow.version)) with
    | error f => exact .untouched f c₁ rfl hc
    | ok d =>
      obtain ⟨row, c₂, hr, hs, hc⟩ := reads_run
        (reads_select (.selectDuplicate d.hash) trivial fun s => s.rowByHash d.hash) hc
      dsimp only [checkDuplicate]
      rw [perform_bind, hr]
      cases row with
      | error f => exact .untouched f c₂ hs hc
      | ok row =>
        obtain rfl := (perform_query_eq_ok _ hr).1
        dsimp only
        cases hdu : c₁.store.rowByHash d.hash with
        | some row =>
          obtain ⟨f, hr⟩ := duplicateError_run d.hash row c₂
          dsimp only
          rw [hr]
          exact .untouched f c₂ hs hc
        | none =>
          cases hv : Version.new d.nextVersion with
          | error e => exact .untouched _ c₂ hs hc
          | ok v =>
            have hne : d.nextVersion ≠ 0 := by
              intro hz
              rw [hz] at hv
              cases hv
            rw [draft_nextVersion hd] at hne
            rw [← hs] at hdu hne ⊢
            refine storeEntry_effect v hc ⟨Store.notMem_of_rowByHash hdu, ?_⟩
            rw [NewEntry.row, draft_nextVersion hd, ← hs]
            exact c₂.store.nextVersion_fresh en.name.text hne

theorem recordEdges_run (edges : List LineageEdge) (hc : Clean c) :
    ∃ r c', perform (execute Statement.apply) (recordEdges edges) c = (r, c') ∧
      c'.store.entries = c.store.entries ∧ (∀ e ∈ c'.store.edges, e ∈ c.store.edges ∨ e ∈ edges) ∧
      ((r = .ok () ∧ Clean c') ∨
        (∃ m, r = .error (writeError m)) ∧ ∃ f ∈ c'.failed, Statement.LeavesEntry f) := by
  induction edges generalizing c with
  | nil => exact ⟨_, c, rfl, rfl, fun e he => .inl he, .inl ⟨rfl, hc⟩⟩
  | cons edge edges ih =>
    have hnew : ∀ e ∈ (c.store.createEdge edge).edges, e ∈ c.store.edges ∨ e ∈ edge :: edges := by
      intro e he
      rcases Store.mem_edges_createEdge he with ho | rfl
      · exact .inl ho
      · exact .inr mem_cons_self
    rw [recordEdges, perform_bind]
    rcases perform_query_cases Statement.apply (.createEdge edge) (fun _ => ()) writeError c with
      ⟨⟨m, ap⟩, fa, h⟩ | ⟨fa, h⟩
    · rw [create, h]
      refine ⟨_, _, rfl, ?_, ?_, .inr ⟨⟨m, rfl⟩, (.createEdge edge, ap), by simp, trivial⟩⟩ <;>
        cases ap
      · rfl
      · exact Store.entries_createEdge _ _
      · exact fun e he => .inl he
      · exact hnew
    · obtain ⟨r, c', hru, hen, hed, hr⟩ := @ih ⟨c.store.createEdge edge, fa, c.failed⟩ hc
      rw [create, h]
      refine ⟨r, c', hru, hen.trans (Store.entries_createEdge _ _), fun e he => ?_, hr⟩
      rcases hed e he with ho | hn
      · exact hnew e ho
      · exact .inr (mem_cons_of_mem edge hn)

/-- What a call for an entry of a generation with edges leaves of a store. -/
inductive CallEffect (s : Store) (generation : Generation) (descriptors : List EdgeDescriptor)
    (r : Except Failure PublishResult) (c : Connection Statement String Store) : Prop
  | untouched (hr : ∃ failure, r = .error failure) (hstore : c.store = s) (hfailed : Clean c)
  | stored (row : EntryRow) (hgen : row.generation = generation)
      (hentries : c.store.entries = s.entries ++ [row])
      (hedges : ∀ e ∈ c.store.edges, e ∈ s.edges ∨ e.target = row.hash ∧ ∃ d ∈ descriptors, d.source = e.source)
      (hr : ((∃ result, r = .ok result) ∧ Clean c) ∨
        (∃ message, r = .error (writeError message)) ∧ ∃ f ∈ c.failed, Statement.LeavesEntry f)

theorem insertWithEdges_effect (env : Surroundings) (en : NewEntry) (de : List EdgeDescriptor)
    (hc : Clean c) (hg : en.generation = g) :
    CallEffect c.store g de
      (perform (execute Statement.apply) (insertWithEdges H env en de) c).1
      (perform (execute Statement.apply) (insertWithEdges H env en de) c).2 := by
  unfold insertWithEdges
  rw [perform_bind]
  have hi := insertEntry_effect H env.now en hc
  generalize perform (execute Statement.apply) (insertEntry H env.now en) c = o at hi ⊢
  cases hi with
  | untouched f mid hs hm => exact .untouched ⟨f, rfl⟩ hs hm
  | left d m mid hin hf =>
    exact .stored (en.row d env.now) hg hin.entries (fun e he => .inl (hin.edges ▸ he)) (.inr ⟨⟨m, rfl⟩, hf⟩)
  | stored d v mid hin hm =>
    obtain ⟨r, c', hed, hen, hme, hr⟩ := recordEdges_run
      (lineageEdges env.newUuid (en.stored d v env.now).hash de) hm
    have hn : ∀ e ∈ c'.store.edges, e ∈ c.store.edges ∨
        e.target = (en.row d env.now).hash ∧ ∃ d ∈ de, d.source = e.source := by
      intro e he
      rcases hme e he with ho | hn
      · exact .inl (hin.edges ▸ ho)
      · obtain ⟨i, hi, rfl⟩ := mem_mapIdx.mp hn
        exact .inr ⟨rfl, de[i], getElem_mem hi, rfl⟩
    simp only [perform_bind, hed]
    rcases hr with ⟨rfl, hf⟩ | ⟨⟨m, rfl⟩, hf⟩
    · exact .stored (en.row d env.now) hg (hen.trans hin.entries) hn (.inl ⟨⟨_, rfl⟩, hf⟩)
    · exact .stored (en.row d env.now) hg (hen.trans hin.entries) hn (.inr ⟨⟨m, rfl⟩, hf⟩)

/-- The call records its edges from entries of earlier generations. -/
def RepositoryOp.RaisesGeneration : RepositoryOp → Prop
  | .fork _ => True
  | .publish cmd =>
      match cmd.origin with
      | .influenced _ => True
      | .original | .iteration => False

/-- How the generation of a new entry follows from that of an entry it refers to. -/
def RepositoryOp.Follows (op : RepositoryOp) (s : Store) (source generation : Generation) : Prop :=
  (generation = source ∧ ¬ op.RaisesGeneration) ∨
    ∃ g : Generation, generation = g.increment ∧ source.value ≤ g.value ∧
      (g = .root ∨ ∃ row ∈ s.entries, row.generation = g)

theorem greatestGeneration_ok {i : List InfluenceRef} {m g : Generation}
    (h : perform (execute Statement.apply) (greatestGeneration m i) c = (.ok g, c')) :
    m.value ≤ g.value ∧
      (∀ inf ∈ i, ∃ src ∈ c.store.entries, src.hash = inf.source ∧ src.generation.value ≤ g.value) ∧
      (g = m ∨ ∃ row ∈ c.store.entries, row.generation = g) := by
  induction i generalizing m c with
  | nil =>
    cases h
    exact ⟨UInt32.le_refl _, by simp, .inl rfl⟩
  | cons inf i ih =>
    obtain ⟨e?, mid, hge, h⟩ := (perform_bind_eq_ok _).mp h
    cases e? with
    | none => cases h
    | some e =>
      have hmi := store_eq_of_uses (reads_getByHash inf.source) Statement.IsSelect.apply hge
      obtain ⟨row, hr, hh, hgn⟩ := getByHash_ok hge
      obtain ⟨hle, ha, hg⟩ := ih h
      rw [hmi] at ha hg
      have hm : m.value ≤ g.value ∧ e.generation.value ≤ g.value := by
        split_ifs at hle with hlt
        · exact ⟨UInt32.le_trans (UInt32.le_of_lt hlt) hle, hle⟩
        · exact ⟨hle, UInt32.le_trans (UInt32.not_lt.mp hlt) hle⟩
      refine ⟨hm.1, forall_mem_cons.mpr ⟨⟨row, hr, hh, hgn ▸ hm.2⟩, ha⟩, ?_⟩
      rcases hg with hg | hg
      · split_ifs at hg
        · exact .inr ⟨row, hr, hgn.trans hg.symm⟩
        · exact .inl hg
      · exact .inr hg

theorem derivation_ok (h : perform (execute Statement.apply) (derivation cmd.name cmd.origin) c = (.ok d, c')) :
    ∀ de ∈ d.edgeDescriptors, ∃ src ∈ c.store.entries, src.hash = de.source ∧
      (RepositoryOp.publish cmd).Follows c.store src.generation d.generation := by
  rcases cmd with ⟨name, source, r, o⟩
  cases o with
  | original =>
    cases h
    simp
  | iteration =>
    obtain ⟨prev?, mid, hge, h⟩ := (perform_bind_eq_ok _).mp h
    cases prev? with
    | none =>
      cases h
      simp
    | some prev =>
      obtain ⟨row, hro, hh, hgn⟩ := getLatest_ok hge
      cases h
      intro de hd
      rw [mem_singleton.mp hd]
      exact ⟨row, hro, hh, .inl ⟨hgn.symm, fun hr => hr⟩⟩
  | influenced i =>
    obtain ⟨g, mid, hge, h⟩ := (perform_bind_eq_ok _).mp h
    obtain ⟨-, ha, hg⟩ := greatestGeneration_ok hge
    cases h
    intro de hd
    obtain ⟨inf, hi, rfl⟩ := mem_map.mp hd
    obtain ⟨src, hs, hh, hle⟩ := ha inf hi
    exact ⟨src, hs, hh, .inr ⟨g, rfl, hle, hg⟩⟩

/-- What a call does: it refers to stored entries, and leaves the store or adds its entry and edges. -/
theorem call_effect (ca : RepositoryCall) (s : Store) : ∃ g de,
      (∀ d ∈ de, ∃ src ∈ s.entries, src.hash = d.source ∧ ca.op.Follows s src.generation g) ∧
      CallEffect s g de (ca.perform H s).1 (ca.perform H s).2 := by
  rcases ca with ⟨op, env, fa⟩
  cases op with
  | publish cmd =>
    unfold RepositoryCall.perform RepositoryOp.query Repository.publish
    obtain ⟨r, mid, hr, rfl, hf⟩ := @reads_run _ ⟨s, fa, []⟩ _ (reads_derivation cmd.name cmd.origin) (by simp)
    simp only [perform_bind, hr]
    cases r with
    | error f => exact ⟨.root, [], by simp, .untouched ⟨f, rfl⟩ rfl hf⟩
    | ok d =>
      have hs := derivation_ok hr
      exact ⟨d.generation, d.edgeDescriptors, hs, insertWithEdges_effect H env _ _ hf (by rfl)⟩
  | fork cmd =>
    unfold RepositoryCall.perform RepositoryOp.query Repository.fork
    obtain ⟨r, mid, hr, rfl, hf⟩ := @reads_run _ ⟨s, fa, []⟩ _ (reads_getByHash cmd.sourceHash) (by simp)
    simp only [perform_bind, hr]
    rcases r with f | _ | e
    · exact ⟨.root, [], by simp, .untouched ⟨f, rfl⟩ rfl hf⟩
    · exact ⟨.root, [], by simp, .untouched ⟨_, rfl⟩ rfl hf⟩
    · obtain ⟨row, hro, hh, hg⟩ := getByHash_ok hr
      refine ⟨e.generation.increment, [⟨cmd.sourceHash, .fork, cmd.forkDescription⟩], fun d hd => ?_,
        insertWithEdges_effect H env _ _ hf (by rfl)⟩
      rw [mem_singleton.mp hd]
      exact ⟨row, hro, hh, .inr ⟨e.generation, rfl, hg ▸ UInt32.le_refl _, .inr ⟨row, hro, hg⟩⟩⟩

/-- A call that returns an error leaves the repository as it was, exactly when neither the recording of
an edge failed nor the storing of the entry after it was done: the entry is not taken back then. -/
theorem failed_call_keeps_store_iff (H : Hashing) (call : RepositoryCall) (s : Store) :
    ((∃ err, (call.perform H s).1 = .error (.returned err)) → (call.perform H s).2.store = s) ↔
      ∀ f ∈ (call.perform H s).2.failed, ¬ Statement.LeavesEntry f := by
  obtain ⟨g, d, -, hef⟩ := call_effect H call s
  cases hef with
  | untouched _ hs hf => exact ⟨fun _ => hf, fun _ _ => hs⟩
  | stored row _ he _ hr =>
    rcases hr with ⟨⟨result, hok⟩, hf⟩ | ⟨⟨m, h⟩, hf⟩
    · refine ⟨fun _ => hf, fun _ ⟨err, h⟩ => ?_⟩
      rw [hok] at h
      cases h
    · constructor
      · intro hk
        rw [hk ⟨.storageWrite m, h⟩] at he
        simp at he
      · obtain ⟨f, hmem, hl⟩ := hf
        exact fun hn => absurd hl (hn f hmem)

def versionHashing : Hashing where
  compactText v := match v.get "version" with
    | some (.string version) => Framing.utf8 version
    | _ => []
  sha256 bytes := bytes.drop (bytes.length - 1)

def emptyBundle : SourceBundle := ⟨⟨.object [], .object (by simp) (by simp)⟩, [], []⟩

def publishPlanner (id : Char) (origin : PublishOrigin) (faults : List (Option (Fault String))) :
    RepositoryCall where
  op := .publish ⟨⟨"planner"⟩, emptyBundle, ⟨"first draft"⟩, origin⟩
  env := ⟨⟨"2026-01-01T00:00:00Z"⟩, fun i => String.ofList (List.replicate (i + 1) id)⟩
  faults

/-- The sixth statement of an iteration records its edge. -/
theorem failed_edge_leaves_entry :
    let before := ((publishPlanner 'a' .original []).perform versionHashing .empty).2.store
    let call := publishPlanner 'b' .iteration (replicate 5 none ++ [some ⟨"connection reset", false⟩])
    (call.perform versionHashing before).1 = .error (.returned (.storageWrite "connection reset")) ∧
      before.entries.map (fun row => (row.nameVersion, row.parentage)) = [(("planner", 1), .original)] ∧
      (call.perform versionHashing before).2.store.entries.map (fun row => (row.nameVersion, row.parentage)) =
        [(("planner", 1), .original), (("planner", 2), .forked ⟨"31"⟩ ⟨"Iteration from planner@v1"⟩)] ∧
      (call.perform versionHashing before).2.store.edges = [] := by
  decide +kernel

end AgentiumOs.Repository
