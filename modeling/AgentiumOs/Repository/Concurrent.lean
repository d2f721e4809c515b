import AgentiumOs.Repository.Insertion

/-! Concurrent insertions into one store. A call reads the latest version and looks for a
duplicate before it creates its row, and another call may create a row in between. An
index then refuses the row of the first call, which goes on and answers as if it were
stored. -/

namespace AgentiumOs.Repository

open Lib Lib.Program Lib.Script Lib.Interleave Insertion

variable {ι : Type}

abbrev InsertPool (ι : Type) := Pool Store InsertScript ι

def insertPool (H : Hashing) (calls : ι → InsertCall) (s : Store) : InsertPool ι :=
  ⟨s, fun i => (calls i).script H⟩

def insertStep [DecidableEq ι] : InsertPool ι → ι → InsertPool ι × Unit := turn (Script.advance Statement.apply)

/-- No index refuses the row, if the next statement of the call creates one. -/
def CreatesAccepted (p : InsertPool ι) (i : ι) : Prop :=
  match (p.thread i).next? with
  | some (.createEntry row) => p.shared.Accepts row
  | _ => True

instance (p : InsertPool ι) (i : ι) : Decidable (CreatesAccepted p i) := by
  unfold CreatesAccepted
  split <;> infer_instance

def Returned (p : InsertPool ι) (i : ι) (e : RepositoryEntry) : Prop := (p.thread i).result? = some (.ok e)

/-- What `get_by_hash` and `get_by_version` accept of an entry they read. -/
def RepositoryEntry.Readable (e : RepositoryEntry) : Prop :=
  AgentName.parse e.versionRef.name.text = .ok e.versionRef.name ∧
    ChangeRationale.new e.changeRationale.text = .ok e.changeRationale

/-- The entry is read by its hash and by its version. Its tags are its own and those that the
store had for its hash before. -/
def Finds (s₀ s : Store) (e : RepositoryEntry) : Prop :=
  ∃ found, (perform (execute Statement.apply) (getByHash e.hash) ⟨s, [], []⟩).1 = .ok (some found) ∧
    (perform (execute Statement.apply) (getByVersion e.versionRef.name e.versionRef.version) ⟨s, [], []⟩).1 =
      .ok (some found) ∧
    { found with tags := e.tags } = e ∧ ∀ tag, tag ∈ found.tags ↔ tag ∈ e.tags ∨ (e.hash, tag) ∈ s₀.tags

/-- What the calls have answered is in the store, each under a version of its own. -/
structure Faithful (s₀ : Store) (p : InsertPool ι) : Prop where
  found : ∀ i e, Returned p i e → Finds s₀ p.shared e
  distinct : ∀ i j e f, Returned p i e → Returned p j f → e.versionRef = f.versionRef → i = j

theorem find?_of_nodup {α β : Type} [DecidableEq β] {l : List α} {key : α → β} (hl : (l.map key).Nodup)
    {a : α} (ha : a ∈ l) : l.find? (fun b => key b = key a) = some a := by
  cases h : l.find? (fun b => key b = key a) with
  | none => exact absurd (List.find?_eq_none.mp h a ha) (by simp)
  | some b =>
    have hk : key b = key a := by simpa using List.find?_some h
    rw [List.inj_on_of_nodup_map hl (List.mem_of_find?_eq_some h) ha hk]

theorem perform_entryFromRow (s : Store) (row : EntryRow) (hn : AgentName.parse row.agentName = .ok n)
    (hv : Version.new row.version = .ok v) (hr : ChangeRationale.new row.changeRationale = .ok r) :
    perform (execute Statement.apply) (entryFromRow row) ⟨s, [], []⟩ =
      (.ok ⟨row.hash, ⟨n, v⟩, row.source, row.parentage, row.generation, r, row.createdAt,
        s.tagsForHash row.hash⟩, ⟨s, [], []⟩) := by
  unfold entryFromRow
  rw [hn, hv, hr]
  rfl

variable {s : Store} {e : RepositoryEntry}

theorem perform_entryFromRow?
    (h : perform (execute Statement.apply) (entryFromRow row) ⟨s, [], []⟩ = (.ok e, ⟨s, [], []⟩)) :
    perform (execute Statement.apply) (entryFromRow? (some row)) ⟨s, [], []⟩ = (.ok (some e), ⟨s, [], []⟩) := by
  rw [entryFromRow?, perform_bind, h]
  rfl

theorem perform_getByHash {ha : ContentHash} {row : EntryRow} (hr : s.rowByHash ha = some row)
    (h : perform (execute Statement.apply) (entryFromRow row) ⟨s, [], []⟩ = (.ok e, ⟨s, [], []⟩)) :
    (perform (execute Statement.apply) (getByHash ha) ⟨s, [], []⟩).1 = .ok (some e) := by
  have hs : perform (execute Statement.apply) (select (.selectByHash ha) fun s => s.rowByHash ha) ⟨s, [], []⟩ =
      (.ok (s.rowByHash ha), ⟨s, [], []⟩) := rfl
  rw [getByHash, perform_bind, hs, hr]
  exact congrArg Prod.fst (perform_entryFromRow? h)

theorem perform_getByVersion (hr : s.rowByVersion n.text v.value = some row)
    (h : perform (execute Statement.apply) (entryFromRow row) ⟨s, [], []⟩ = (.ok e, ⟨s, [], []⟩)) :
    (perform (execute Statement.apply) (getByVersion n v) ⟨s, [], []⟩).1 = .ok (some e) := by
  have hs : perform (execute Statement.apply) (select (.selectByVersion n.text v.value)
      fun s => s.rowByVersion n.text v.value) ⟨s, [], []⟩ =
      (.ok (s.rowByVersion n.text v.value), ⟨s, [], []⟩) := rfl
  rw [getByVersion, perform_bind, hs, hr]
  exact congrArg Prod.fst (perform_entryFromRow? h)

variable {c c' : Connection Statement String Store}

theorem decode_eq_ok (h : perform (execute Statement.apply) (decode lead x) c = (.ok a, c')) : x = .ok a := by
  cases x with
  | error e => cases h
  | ok b =>
    cases h
    rfl

theorem entryFromRow_checks (h : perform (execute Statement.apply) (entryFromRow row) c = (.ok e, c')) :
    AgentName.parse row.agentName = .ok e.versionRef.name ∧
      ChangeRationale.new row.changeRationale = .ok e.changeRationale := by
  obtain ⟨name, mid, hn, h⟩ := (perform_bind_eq_ok _).mp h
  obtain ⟨v, mid, -, h⟩ := (perform_bind_eq_ok _).mp h
  obtain ⟨ra, mid, hr, h⟩ := (perform_bind_eq_ok _).mp h
  obtain ⟨tags, mid, -, h⟩ := (perform_bind_eq_ok _).mp h
  cases h
  refine ⟨decode_eq_ok hn, ?_⟩
  have hm := decode_eq_ok hr
  cases hne : ChangeRationale.new row.changeRationale with
  | error e =>
    rw [hne] at hm
    cases hm
  | ok r =>
    rw [hne] at hm
    cases hm
    rfl

/-! ### The calls at their points -/

def Insertion.held (t : Insertion) : Option EntryRow := t.point.holds.map t.call.row

theorem Insertion.held_eq_some {t : Insertion} {row : EntryRow} :
    t.held = some row ↔ ∃ d v tags, t.point = .tagging true d v tags ∧ t.call.row d = row := by
  rcases t with ⟨call, _ | _ | _ | ⟨ac, d, v, tags⟩ | _⟩
  all_goals simp [held, InsertPoint.holds]

def insertions (calls : ι → InsertCall) (s : Store) : Pool Store Insertion ι := ⟨s, fun i => ⟨calls i, .selecting⟩⟩

variable [DecidableEq ι] {H : Hashing}

def pointStep (H : Hashing) : Pool Store Insertion ι → ι → Pool Store Insertion ι × Unit := turn (Insertion.advance H)

theorem insertStep_map (p : Pool Store Insertion ι) (i : ι) :
    (insertStep (p.map (Insertion.script H)) i).1 = (pointStep H p i).1.map (Insertion.script H) :=
  turn_map _ (advance_script H) p i

omit [DecidableEq ι] in
theorem createsAccepted_map (p : Pool Store Insertion ι) (i : ι) : CreatesAccepted (p.map (Insertion.script H)) i ↔
      (p.thread i).point.Accepted (p.thread i).call p.shared := by
  dsimp only [CreatesAccepted, Pool.map]
  rcases p.thread i with ⟨call, _ | _ | _ | ⟨_, _, _, _ | _⟩ | _⟩ <;> exact Iff.rfl

omit [DecidableEq ι] in
theorem returned_map {p : Pool Store Insertion ι} {i : ι} : Returned (p.map (Insertion.script H)) i e ↔
      ∃ ac d v, (p.thread i).point = .tagging ac d v [] ∧ (p.thread i).call.stored d v = e := by
  dsimp only [Returned, Pool.map]
  rcases p.thread i with ⟨call, _ | d | d | ⟨ac, d, v, _ | ⟨tag, tags⟩⟩ | failure⟩
  case tagging.nil =>
    constructor
    · intro h
      exact ⟨ac, d, v, rfl, Except.ok.inj (Option.some.inj h)⟩
    · rintro ⟨_, _, _, hp, rfl⟩
      cases hp
      rfl
  all_goals
    constructor
    · intro h
      cases h
    · rintro ⟨_, _, _, hp, -⟩
      cases hp

/-- The rows are those of the store the calls began on and one for each call that stored its
own; the tags likewise. -/
structure Placed (s₀ : Store) (p : Pool Store Insertion ι) : Prop where
  mem_entries : ∀ row, row ∈ p.shared.entries ↔ row ∈ s₀.entries ∨ ∃ i, (p.thread i).held = some row
  solo_hash : Solo Insertion.held EntryRow.hash p
  solo_version : Solo Insertion.held EntryRow.nameVersion p
  tags : s₀.tags ⊆ p.shared.tags
  tagged : ∀ x ∈ p.shared.tags, x ∈ s₀.tags ∨
    ∃ i, (p.thread i).point.Tagging x.1 ∧ x.2 ∈ (p.thread i).call.entry.tags
  sound : ∀ i, (p.thread i).point.Sound (p.thread i).call s₀ p.shared

namespace Placed

variable {s₀ : Store} {p : Pool Store Insertion ι} {calls : ι → InsertCall}

omit [DecidableEq ι] in
theorem start (calls : ι → InsertCall) (s : Store) : Placed s (insertions calls s) where
  mem_entries row := by simp [insertions, Insertion.held, InsertPoint.holds]
  solo_hash := Solo.of_none fun _ => rfl
  solo_version := Solo.of_none fun _ => rfl
  tags := List.Subset.refl _
  tagged x hx := .inl hx
  sound i := trivial

theorem turn_entries (p : Pool Store Insertion ι) (i : ι) :
    ((pointStep H p i).1.shared.entries = p.shared.entries ∧
        (Insertion.advance H p.shared (p.thread i)).2.held = (p.thread i).held) ∨
      ∃ row, p.shared.Accepts row ∧ (pointStep H p i).1.shared.entries = p.shared.entries ++ [row] ∧
        (p.thread i).held = none ∧ (Insertion.advance H p.shared (p.thread i)).2.held = some row := by
  have hc := call_advance H p.shared (p.thread i)
  rcases (advances H p.shared (p.thread i)).entries with ⟨he, hh⟩ | ⟨d, ha, he, hn, hs⟩
  · refine .inl ⟨he, ?_⟩
    rw [Insertion.held, Insertion.held, hc, hh]
  · refine .inr ⟨(p.thread i).call.row d, ha, he, ?_, ?_⟩
    · rw [Insertion.held, hn]
      rfl
    · rw [Insertion.held, hc, hs]
      rfl

theorem mem_entries_turn (h : Placed s₀ p) (i : ι) (row : EntryRow) : row ∈ (pointStep H p i).1.shared.entries ↔
      row ∈ s₀.entries ∨ ∃ j, ((pointStep H p i).1.thread j).held = some row := by
  rcases turn_entries p i with ⟨he, hh⟩ | ⟨new, -, he, hn, hs⟩
  · rw [he, h.mem_entries]
    have hsa := thread_turn_of_eq (advance H) hh
    simp [pointStep, hsa]
  · rw [he, List.mem_append, List.mem_singleton, h.mem_entries, or_assoc]
    refine or_congr_right ⟨?_, ?_⟩
    · rintro (⟨j, hj⟩ | rfl)
      · have hji : j ≠ i := by
          rintro rfl
          rw [hn] at hj
          cases hj
        refine ⟨j, ?_⟩
        rwa [pointStep, turn_thread_of_ne _ p hji]
      · refine ⟨i, ?_⟩
        rwa [pointStep, turn_thread_self]
    · rintro ⟨j, hj⟩
      rcases hold_turn_cases hs hj with ⟨-, rfl⟩ | ⟨-, ho⟩
      · exact .inr rfl
      · exact .inl ⟨j, ho⟩

/-- Of an index that refuses a row whose key is there, no two calls hold one key. -/
theorem solo_turn (h : Placed s₀ p) (hs : Solo Insertion.held key p) (i : ι)
    (hk : ∀ row, p.shared.Accepts row → key row ∉ p.shared.entries.map key) :
    Solo Insertion.held key (pointStep H p i).1 := by
  rcases turn_entries (H := H) p i with ⟨-, hh⟩ | ⟨new, ha, -, -, hso⟩
  · exact hs.keeps (.inr hh)
  · refine hs.takes hso fun j row hj heq => hk new ha ?_
    rw [← heq]
    exact List.mem_map_of_mem ((h.mem_entries row).mpr (.inr ⟨j, hj⟩))

theorem tagged_turn (h : Placed s₀ p) (i : ι) (x : ContentHash × Tag)
    (hx : x ∈ (pointStep H p i).1.shared.tags) : x ∈ s₀.tags ∨ ∃ j,
      ((pointStep H p i).1.thread j).point.Tagging x.1 ∧ x.2 ∈ ((pointStep H p i).1.thread j).call.entry.tags := by
  have hs := advances H p.shared (p.thread i)
  -- a call that has come to its tags stays with them
  have hk : ∀ j, (p.thread j).point.Tagging x.1 → x.2 ∈ (p.thread j).call.entry.tags →
      ∃ j, ((pointStep H p i).1.thread j).point.Tagging x.1 ∧
        x.2 ∈ ((pointStep H p i).1.thread j).call.entry.tags := by
    intro j hj hm
    refine ⟨j, ?_⟩
    by_cases hji : j = i
    · subst hji
      rw [pointStep, turn_thread_self, call_advance]
      exact ⟨hs.tagging hj, hm⟩
    · rw [pointStep, turn_thread_of_ne _ p hji]
      exact ⟨hj, hm⟩
  rcases (hs.mem_tags x).2 hx with ho | ⟨ht, ac, d, v, tags, hp⟩
  · rcases h.tagged x ho with hb | ⟨j, hj, hm⟩
    · exact .inl hb
    · exact .inr (hk j hj hm)
  · have hso := h.sound i
    rw [hp] at hso
    exact .inr (hk i ht (hso.2.2.1 List.mem_cons_self))

theorem sound_turn (h : Placed s₀ p) (i j : ι) :
    ((pointStep H p i).1.thread j).point.Sound ((pointStep H p i).1.thread j).call s₀
      (pointStep H p i).1.shared := by
  have hs := advances H p.shared (p.thread i)
  by_cases hji : j = i
  · subst hji
    rw [pointStep, turn_thread_self, call_advance]
    exact hs.sound (fun row hr => (h.mem_entries row).mpr (.inl hr)) (h.sound j)
  · rw [pointStep, turn_thread_of_ne _ p hji]
    exact Insertion.Sound.mono (h.sound j) fun x hx => (hs.mem_tags x).1 hx

theorem turn (h : Placed s₀ p) (i : ι) : Placed s₀ (pointStep H p i).1 where
  mem_entries := h.mem_entries_turn i
  solo_hash := h.solo_turn h.solo_hash i fun _ ha => ha.1
  solo_version := h.solo_turn h.solo_version i fun _ ha => ha.2
  tags x hx := ((advances H p.shared (p.thread i)).mem_tags x).1 (h.tags hx)
  tagged := h.tagged_turn i
  sound := h.sound_turn i

end Placed

/-! ### What the calls answer -/

section Answers

variable {s₀ s : Store} {p : Pool Store Insertion ι}

theorem refused_turn (p : Pool Store Insertion ι) (i : ι) : (∀ j, ¬ ((pointStep H p i).1.thread j).point.Refused) ↔
      (∀ j, ¬ (p.thread j).point.Refused) ∧ (p.thread i).point.Accepted (p.thread i).call p.shared := by
  have hs := (advances H p.shared (p.thread i)).refused_iff
  constructor
  · intro h
    have hi := h i
    rw [pointStep, turn_thread_self, hs, not_or, not_not] at hi
    refine ⟨fun j => ?_, hi.2⟩
    by_cases hji : j = i
    · subst hji
      exact hi.1
    · have hj := h j
      rwa [pointStep, turn_thread_of_ne _ p hji] at hj
  · rintro ⟨hn, hi⟩
    refine forall_turn _ (P := fun t : Insertion => ¬ t.point.Refused) hn ?_
    rw [hs, not_or, not_not]
    exact ⟨hn i, hi⟩

omit [DecidableEq ι] in
theorem held_of_tagging {i : ι} {ac : Bool} {d : Draft} {v : Version} {t : List Tag}
    (hn : ¬ (p.thread i).point.Refused) (hp : (p.thread i).point = .tagging ac d v t) :
    (p.thread i).held = some ((p.thread i).call.row d) := by
  rw [hp] at hn
  have ha : ac = true := by simpa [InsertPoint.Refused] using hn
  rw [Insertion.held, hp, ha]
  rfl

theorem Version.new_value (version : Version) : Version.new version.value = .ok version := by
  rw [Version.new, dif_neg version.ne_zero]

theorem Store.mem_tagsForHash {h : ContentHash} {tag : Tag} : tag ∈ s.tagsForHash h ↔ (h, tag) ∈ s.tags := by
  simp [tagsForHash]

omit [DecidableEq ι] in
theorem Placed.nextVersion_eq (h : Placed s₀ p) {i : ι} {ac : Bool} {d : Draft} {v : Version}
    {t : List Tag} (hp : (p.thread i).point = .tagging ac d v t) :
    v.value = d.nextVersion := by
  have hs := h.sound i
  rw [hp] at hs
  exact hs.1

omit [DecidableEq ι] in
/-- Where no row was refused, the row of a call that has returned is read back. -/
theorem Placed.finds (h : Placed s₀ p) (hn : ∀ j, ¬ (p.thread j).point.Refused) {i : ι} {accepted : Bool}
    {d : Draft} {version : Version} (hp : (p.thread i).point = .tagging accepted d version [])
    (hr : ((p.thread i).call.stored d version).Readable) :
    Finds s₀ p.shared ((p.thread i).call.stored d version) := by
  have hh := held_of_tagging (hn i) hp
  have hs := h.sound i
  rw [hp] at hs
  obtain ⟨hv, -, -, hta⟩ := hs
  generalize hc : (p.thread i).call = call at *
  have hro := (h.mem_entries (call.row d)).mpr (.inr ⟨i, hh⟩)
  have he := perform_entryFromRow p.shared (call.row d) hr.1
    ((congrArg Version.new hv.symm).trans version.new_value) hr.2
  have hha : p.shared.rowByHash d.hash = some (call.row d) := find?_of_nodup p.shared.hash_unique hro
  have hna : p.shared.rowByVersion call.entry.name.text version.value = some (call.row d) := by
    rw [hv]
    exact find?_of_nodup p.shared.version_unique hro
  refine ⟨_, perform_getByHash hha he, perform_getByVersion hna he, rfl, fun tag => ?_⟩
  rw [Store.mem_tagsForHash]
  constructor
  · intro hm
    rcases h.tagged (d.hash, tag) hm with hb | ⟨j, ht, htg⟩
    · exact .inr hb
    · cases hj : (p.thread j).point with
      | tagging accepted' d' version' tags' =>
        rw [hj] at ht
        have hsa : i = j := h.solo_hash i j _ _ hh (held_of_tagging (hn j) hj) ht.symm
        subst hsa
        rw [hc] at htg
        exact .inl htg
      | selecting | checking | creating | failed =>
        rw [hj] at ht
        cases ht
  · rintro (hm | hm)
    · rcases hta tag hm with hl | hd
      · cases hl
      · exact hd
    · exact h.tags hm

theorem ChangeRationale.text_of_new {s : String} {r : ChangeRationale} (h : ChangeRationale.new s = .ok r) :
    r.text = s := by
  unfold ChangeRationale.new at h
  split at h
  · cases h
  · cases h
    rfl

theorem Finds.row {e : RepositoryEntry} (h : Finds s₀ s e) : e.Readable ∧
    ∃ row ∈ s.entries, row.nameVersion = (e.versionRef.name.text, e.versionRef.version.value) := by
  obtain ⟨found, -, hg, heq, -⟩ := h
  obtain ⟨row?, mid, hs, hr⟩ := (perform_bind_eq_ok _).mp (Prod.ext hg rfl)
  have hro? := (perform_query_eq_ok _ hs).1
  cases row? with
  | none => cases hr
  | some row =>
    obtain ⟨e', mid', hro, hr⟩ := (perform_bind_eq_ok _).mp hr
    cases hr
    obtain ⟨hn, hra⟩ := entryFromRow_checks hro
    have hk : row.nameVersion = (e.versionRef.name.text, e.versionRef.version.value) := by
      simpa using List.find?_some hro?.symm
    have hv : found.versionRef = e.versionRef := by rw [← heq]
    have hc : found.changeRationale = e.changeRationale := by rw [← heq]
    refine ⟨⟨?_, ?_⟩, row, List.mem_of_find?_eq_some hro?.symm, hk⟩
    · rw [← (Prod.mk.inj hk).1, hn, hv]
    · rw [← hc, ChangeRationale.text_of_new hra, hra]

omit [DecidableEq ι] in
/-- A call whose row was refused answers for an entry that is not there, or for the version of
another. -/
theorem Placed.not_refused (h : Placed s₀ p) (hf : Faithful s₀ (p.map (Insertion.script H)))
    (he : ∀ i accepted d version tags, (p.thread i).point = .tagging accepted d version tags → tags = [])
    (i : ι) : ¬ (p.thread i).point.Refused := by
  intro hre
  have hr : ∀ j accepted d version tags, (p.thread j).point = .tagging accepted d version tags →
      Returned (p.map (Insertion.script H)) j ((p.thread j).call.stored d version) ∧
        version.value = d.nextVersion ∧ s₀.Accepts ((p.thread j).call.row d) := by
    intro j accepted d version tags hj
    have hs := h.sound j
    rw [hj] at hs
    rw [he j accepted d version tags hj] at hj
    exact ⟨returned_map.mpr ⟨accepted, d, version, hj, rfl⟩, hs.1, hs.2.1⟩
  obtain ⟨d, version, tags, hi⟩ := InsertPoint.refused_iff.mp hre
  obtain ⟨hrt, hv, ha⟩ := hr i _ d version tags hi
  obtain ⟨-, row, hro, hk⟩ := (hf.found i _ hrt).row
  have hk : row.nameVersion = ((p.thread i).call.row d).nameVersion :=
    hk.trans (congrArg (Prod.mk _) hv)
  rcases (h.mem_entries row).mp hro with hb | ⟨j, hh⟩
  · exact ha.2 (List.mem_map.mpr ⟨row, hb, hk⟩)
  · obtain ⟨d', version', tags', hj, rfl⟩ := Insertion.held_eq_some.mp hh
    obtain ⟨hrt', hv', -⟩ := hr j _ d' version' tags' hj
    -- the row under this version is that of another call, which has returned too
    have hn : (p.thread j).call.entry.name = (p.thread i).call.entry.name :=
      AgentName.ext (Prod.mk.inj hk).1
    have hsa : version' = version := Version.ext ((hv'.trans (Prod.mk.inj hk).2).trans hv.symm)
    have hij : j = i := hf.distinct j i _ _ hrt' hrt (VersionRef.ext hn hsa)
    subst hij
    rw [hi] at hj
    cases hj

end Answers

theorem exec_insertPool (H : Hashing) (calls : ι → InsertCall) (s : Store) (sc : List ι) :
    Run.exec insertStep (insertPool H calls s) sc =
      (Run.exec (pointStep H) (insertions calls s) sc).map (Insertion.script H) :=
  Run.exec_map _ (Pool.map (script H)) insertStep_map (insertions calls s) sc

theorem along_insertPool (H : Hashing) (calls : ι → InsertCall) (s : Store) (sc : List ι) :
    Run.Along insertStep CreatesAccepted (insertPool H calls s) sc ↔
      ∀ i, ¬ ((Run.exec (pointStep H) (insertions calls s) sc).thread i).point.Refused := by
  have hm := Run.along_map _ (Pool.map (script H)) insertStep_map createsAccepted_map (insertions calls s) sc
  have hi := Run.exec_iff_along (pointStep H) (fun p => ∀ i, ¬ (p.thread i).point.Refused) refused_turn
    (insertions calls s) sc
  exact hm.trans ⟨fun ha => hi.mpr ⟨fun i hr => hr, ha⟩, fun h => (hi.mp h).2⟩

/-- While no index has refused a row, and their names and rationales are valid, the calls that
have returned are answered for by the store; and once all calls have ended, not otherwise. -/
theorem insert_faithful (H : Hashing) (calls : ι → InsertCall) (s : Store) (schedule : List ι) :
    (Run.Along insertStep CreatesAccepted (insertPool H calls s) schedule →
      (∀ i e, Returned (Run.exec insertStep (insertPool H calls s) schedule) i e → e.Readable) →
        Faithful s (Run.exec insertStep (insertPool H calls s) schedule)) ∧
    ((∀ i ∈ schedule, ((Run.exec insertStep (insertPool H calls s) schedule).thread i).result?.isSome) →
      Faithful s (Run.exec insertStep (insertPool H calls s) schedule) →
        Run.Along insertStep CreatesAccepted (insertPool H calls s) schedule ∧
          ∀ i e, Returned (Run.exec insertStep (insertPool H calls s) schedule) i e → e.Readable) := by
  have hpl : Placed s (Run.exec (pointStep H) (insertions calls s) schedule) :=
    Run.exec_invariant _ (Placed s) (fun p i h => h.turn i) _ (.start calls s) schedule
  have hst : ∀ i ∉ schedule,
      (Run.exec (pointStep H) (insertions calls s) schedule).thread i = (insertions calls s).thread i :=
    fun i hi => thread_exec_of_notMem _ hi _
  rw [along_insertPool, exec_insertPool]
  constructor
  · intro hn hr
    constructor
    · intro i e hret
      obtain ⟨accepted, d, version, hp, rfl⟩ := returned_map.mp hret
      exact hpl.finds hn hp (hr i _ hret)
    · intro i j e f hi hj hv
      obtain ⟨accepted, d, version, hp, rfl⟩ := returned_map.mp hi
      obtain ⟨accepted', d', version', hp', rfl⟩ := returned_map.mp hj
      have hna := congrArg (fun v : VersionRef => v.name.text) hv
      have hva := congrArg (fun v : VersionRef => v.version.value) hv
      refine hpl.solo_version i j _ _ (held_of_tagging (hn i) hp)
        (held_of_tagging (hn j) hp') (Prod.ext hna ?_)
      exact ((hpl.nextVersion_eq hp).symm.trans hva).trans (hpl.nextVersion_eq hp')
  · intro he hf
    refine ⟨hpl.not_refused hf fun i accepted d version tags hp => ?_, fun i e hret =>
      (hf.found i e hret).row.1⟩
    by_cases hi : i ∈ schedule
    · have hs := he i hi
      dsimp only [Pool.map, script] at hs
      rw [hp] at hs
      cases tags with
      | nil => rfl
      | cons tag tags => cases hs
    · rw [hst i hi] at hp
      cases hp

/-- Two calls for one name, with different sources. -/
def plannerInsert (second : Bool) : InsertCall where
  createdAt := ⟨"2026-01-01T00:00:00Z"⟩
  entry := {
    name := ⟨"planner"⟩
    source := { emptyBundle with tsSources := [⟨"index.ts", if second then "b" else "a"⟩] }
    parentage := .original
    generation := .root
    changeRationale := ⟨"first draft"⟩
    tags := [⟨"draft"⟩] }

/-- One call after the other. -/
theorem planner_inserts_faithful :
    Faithful .empty (Run.exec insertStep (insertPool versionHashing plannerInsert .empty)
      [false, false, false, false, true, true, true, true]) := by
  refine (insert_faithful versionHashing plannerInsert .empty _).1 (by decide +kernel) fun i e h => ?_
  have hv : ((Run.exec insertStep (insertPool versionHashing plannerInsert .empty)
      [false, false, false, false, true, true, true, true]).thread i).result?.map (fun r => r.toOption.map
        fun e => (e.versionRef.name, e.changeRationale)) = some (some (⟨"planner"⟩, ⟨"first draft"⟩)) := by
    cases i <;> decide +kernel
  rw [h] at hv
  obtain ⟨hn, hr⟩ := Prod.mk.inj (Option.some.inj (Option.some.inj hv))
  rw [RepositoryEntry.Readable, hn, hr]
  decide +kernel

/-- Both calls read the version and look for a duplicate before either creates its row. Both
return version one, and the entry of the second is not there. -/
theorem overlapping_inserts_lose_entry :
    let p := Run.exec insertStep (insertPool versionHashing plannerInsert .empty)
      [false, true, false, true, false, true, false, true]
    (∀ i, (p.thread i).result?.map (fun r => r.toOption.map fun e => (e.hash.hex, e.versionRef)) =
        some (some (if i then "62" else "61", ⟨⟨"planner"⟩, ⟨1, by decide⟩⟩))) ∧
      (perform (execute Statement.apply) (getByHash ⟨"62"⟩) ⟨p.shared, [], []⟩).1.toOption.map Option.isSome =
        some false ∧
      p.shared.entries.map (fun row => (row.hash.hex, row.nameVersion)) = [("61", ("planner", 1))] := by
  decide +kernel

end AgentiumOs.Repository
