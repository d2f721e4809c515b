import AgentiumOs.Repository.Calls
import AgentiumOs.Lib.Run

/-! Lineage over whole runs. Entries are only appended, and a call records edges from
entries it found to the entry it has just stored. An edge therefore goes forward in the
order of storage, which leaves no cycle, and generations never go down along it. -/

namespace AgentiumOs.Repository

open Lib

/-- The edge joins two stored entries, the source stored first. -/
structure Store.Joins (s : Store) (edge : LineageEdge) (source target : EntryRow) : Prop where
  order : [source, target].Sublist s.entries
  source_hash : source.hash = edge.source
  target_hash : target.hash = edge.target

def Store.Derives (s : Store) (source target : ContentHash) : Prop :=
  ∃ edge ∈ s.edges, edge.source = source ∧ edge.target = target

def repositoryAfter (H : Hashing) (calls : List RepositoryCall) : Store :=
  Run.exec (repositoryStep H) .empty calls

variable {H : Hashing} {edge : LineageEdge} {s s' : Store}

theorem Store.Joins.mono {so target : EntryRow} (h : s.Joins edge so target)
    (he : s.entries <+: s'.entries) : s'.Joins edge so target :=
  ⟨h.order.trans he.sublist, h.source_hash, h.target_hash⟩

theorem step_entries (s : Store) (c : RepositoryCall) : s.entries <+: (repositoryStep H s c).1.entries := by
  obtain ⟨g, d, -, he⟩ := call_effect H c s
  cases he with
  | untouched _ hs _ =>
    have hk : (repositoryStep H s c).1.entries = s.entries := congrArg Store.entries hs
    exact hk.symm ▸ List.prefix_refl _
  | stored row _ hen _ _ =>
    rw [repositoryStep, hen]
    exact List.prefix_append _ _

theorem step_edges (s : Store) (c : RepositoryCall) (he : edge ∈ (repositoryStep H s c).1.edges) :
    edge ∈ s.edges ∨ ∃ source t, (repositoryStep H s c).1.Joins edge source t ∧
      c.op.Follows s source.generation t.generation := by
  obtain ⟨g, de, hs, hef⟩ := call_effect H c s
  cases hef with
  | untouched _ hst _ =>
    rw [repositoryStep, hst] at he
    exact .inl he
  | stored row hg hen hed _ =>
    rcases hed edge he with ho | ⟨ht, d, hd, hso⟩
    · exact .inl ho
    · obtain ⟨source, hm, hh, hf⟩ := hs d hd
      refine .inr ⟨source, row, ⟨?_, hh.trans hso, ht.symm⟩, hg ▸ hf⟩
      rw [repositoryStep, hen]
      exact (List.singleton_sublist.mpr hm).append (List.Sublist.refl [row])

/-- Generations go up along an edge, as long as they stay below the greatest. -/
theorem RepositoryOp.Follows.lt {op : RepositoryOp} {so ge : Generation} (h : op.Follows s so ge)
    (hb : ∀ row ∈ s.entries, row.generation.value.toNat < 2 ^ 32 - 1) :
    so.value ≤ ge.value ∧ (op.RaisesGeneration → so.value < ge.value) := by
  rcases h with ⟨rfl, hs⟩ | ⟨g, rfl, hle, hg⟩
  · exact ⟨UInt32.le_refl _, fun hr => absurd hr hs⟩
  · have hlt : g.value.toNat < 2 ^ 32 - 1 := by
      rcases hg with rfl | ⟨row, hro, rfl⟩
      · decide
      · exact hb row hro
    have hn : g.increment.value.toNat = g.value.toNat + 1 := by
      have ho : (1 : UInt32).toNat = 1 := rfl
      rw [Generation.increment, UInt32.toNat_add]
      omega
    have hl : so.value < g.increment.value := by
      rw [UInt32.lt_iff_toNat_lt]
      have := UInt32.le_iff_toNat_le.mp hle
      omega
    exact ⟨UInt32.le_of_lt hl, fun _ => hl⟩

theorem repositoryAfter_concat (c : List RepositoryCall) (ca : RepositoryCall) :
    repositoryAfter H (c ++ [ca]) = (repositoryStep H (repositoryAfter H c) ca).1 :=
  Run.exec_concat _ _ _ _

theorem entries_mono (c m : List RepositoryCall) :
    (repositoryAfter H c).entries <+: (repositoryAfter H (c ++ m)).entries := by
  rw [repositoryAfter, repositoryAfter, Run.exec_append]
  refine Run.exec_invariant _ (fun s => (Run.exec (repositoryStep H) Store.empty c).entries <+: s.entries)
    (fun s call hs => hs.trans (step_entries s call)) _ (List.prefix_refl _) _

/-- A hash, and a version of a name, stand for the same entry in the rest of every run. -/
theorem entry_found_again (H : Hashing) (calls more : List RepositoryCall) (row : EntryRow) :
    (∀ hash, (repositoryAfter H calls).rowByHash hash = some row →
      (repositoryAfter H (calls ++ more)).rowByHash hash = some row) ∧
    ∀ name version, (repositoryAfter H calls).rowByVersion name version = some row →
      (repositoryAfter H (calls ++ more)).rowByVersion name version = some row := by
  obtain ⟨added, hm⟩ := entries_mono (H := H) calls more
  simp only [Store.rowByHash, Store.rowByVersion, ← hm, List.find?_append]
  exact ⟨fun _ h => by rw [h]; rfl, fun _ _ h => by rw [h]; rfl⟩

theorem recorded_edge {c b af : List RepositoryCall} {ca : RepositoryCall} (hs : c = b ++ ca :: af)
    (hg : ∀ row ∈ (repositoryAfter H c).entries, row.generation.value.toNat < 2 ^ 32 - 1)
    (he : edge ∈ (repositoryAfter H (b ++ [ca])).edges) (hn : edge ∉ (repositoryAfter H b).edges) :
    ∃ source t, (repositoryAfter H c).Joins edge source t ∧ source.generation.value ≤ t.generation.value ∧
      (ca.op.RaisesGeneration → source.generation.value < t.generation.value) := by
  rw [repositoryAfter_concat] at he
  rcases step_edges _ ca he with ho | ⟨source, t, hj, hf⟩
  · exact absurd ho hn
  · refine ⟨source, t, ?_, hf.lt fun row hr => hg row ?_⟩
    · have hl := entries_mono (H := H) (b ++ [ca]) af
      rw [repositoryAfter_concat, List.append_assoc, List.singleton_append, ← hs] at hl
      exact hj.mono hl
    · have hl := entries_mono (H := H) b (ca :: af)
      rw [← hs] at hl
      exact hl.subset hr

theorem exists_recorded (he : edge ∈ (repositoryAfter H c).edges) : ∃ b call after, c = b ++ call :: after ∧
      edge ∈ (repositoryAfter H (b ++ [call])).edges ∧ edge ∉ (repositoryAfter H b).edges := by
  induction c using List.reverseRecOn with
  | nil => cases he
  | append_singleton c call ih =>
    by_cases ho : edge ∈ (repositoryAfter H c).edges
    · obtain ⟨b, call', after, rfl, hin, hn⟩ := ih ho
      exact ⟨b, call', after ++ [call], by simp, hin, hn⟩
    · exact ⟨c, call, [], rfl, he, ho⟩

theorem idxOf_lt_of_sublist {α : Type} [DecidableEq α] {l : List α} (hl : l.Nodup) {a b : α}
    (h : [a, b].Sublist l) : l.idxOf a < l.idxOf b := by
  induction l with
  | nil => cases h
  | cons x l ih =>
    obtain ⟨hx, hl⟩ := List.nodup_cons.mp hl
    cases h with
    | cons _ h =>
      have ha : a ≠ x := fun heq => hx (heq ▸ h.subset (by simp))
      have hb : b ≠ x := fun heq => hx (heq ▸ h.subset (by simp))
      rw [List.idxOf_cons_ne _ ha.symm, List.idxOf_cons_ne _ hb.symm]
      exact Nat.succ_lt_succ (ih hl h)
    | cons_cons _ h =>
      have hb : b ≠ a := fun heq => hx (heq ▸ h.subset (by simp))
      rw [List.idxOf_cons_self, List.idxOf_cons_ne _ hb.symm]
      exact Nat.succ_pos _

/-- Where every edge goes forward in the order of storage, there is no cycle. -/
theorem acyclic_of_joins (h : ∀ edge ∈ s.edges, ∃ source t, s.Joins edge source t)
    (hash : ContentHash) : ¬ Relation.TransGen s.Derives hash hash := by
  have hf : ∀ a b, s.Derives a b →
      (s.entries.map EntryRow.hash).idxOf a < (s.entries.map EntryRow.hash).idxOf b := by
    rintro a b ⟨edge, he, rfl, rfl⟩
    obtain ⟨source, t, hj⟩ := h edge he
    rw [← hj.source_hash, ← hj.target_hash]
    exact idxOf_lt_of_sublist s.hash_unique (hj.order.map EntryRow.hash)
  have hp : ∀ a b, Relation.TransGen s.Derives a b →
      (s.entries.map EntryRow.hash).idxOf a < (s.entries.map EntryRow.hash).idxOf b := by
    intro a b hab
    induction hab with
    | single h => exact hf _ _ h
    | tail _ h ih => exact ih.trans (hf _ _ h)
  exact fun hc => lt_irrefl _ (hp hash hash hc)

/-- After any run, edges join stored entries in the order they were stored and without a
cycle, generations do not go down along them, and they go up along the edges that a fork
or an influenced publish recorded. -/
theorem lineage_sound (H : Hashing) (calls : List RepositoryCall)
    (hgen : ∀ row ∈ (repositoryAfter H calls).entries, row.generation.value.toNat < 2 ^ 32 - 1) :
    (∀ edge ∈ (repositoryAfter H calls).edges, ∃ source target,
      (repositoryAfter H calls).Joins edge source target ∧ source.generation.value ≤ target.generation.value) ∧
    (∀ hash, ¬ Relation.TransGen (repositoryAfter H calls).Derives hash hash) ∧
    ∀ before call after, calls = before ++ call :: after → call.op.RaisesGeneration →
      ∀ edge ∈ (repositoryAfter H (before ++ [call])).edges, edge ∉ (repositoryAfter H before).edges →
        ∃ source target, (repositoryAfter H calls).Joins edge source target ∧
          source.generation.value < target.generation.value := by
  have hjo : ∀ edge ∈ (repositoryAfter H calls).edges, ∃ source target,
      (repositoryAfter H calls).Joins edge source target ∧ source.generation.value ≤ target.generation.value := by
    intro edge he
    obtain ⟨before, call, after, hs, hin, h⟩ := exists_recorded he
    obtain ⟨source, target, hj, hle, -⟩ := recorded_edge hs hgen hin h
    exact ⟨source, target, hj, hle⟩
  refine ⟨hjo, acyclic_of_joins fun edge he => ?_, fun before call after hs hr edge hin h => ?_⟩
  · obtain ⟨source, target, hj, -⟩ := hjo edge he
    exact ⟨source, target, hj⟩
  · obtain ⟨source, target, hj, -, hlt⟩ := recorded_edge hs hgen hin h
    exact ⟨source, target, hj, hlt hr⟩

def plannerCalls : List RepositoryCall :=
  [publishPlanner 'a' .original [], publishPlanner 'b' .iteration [],
    publishPlanner 'c' (.influenced [⟨⟨"31"⟩, ⟨"its tools"⟩⟩, ⟨⟨"32"⟩, ⟨"its prompts"⟩⟩]) []]

theorem planner_lineage_sound :
    (repositoryAfter versionHashing plannerCalls).entries.map (fun row => (row.hash.hex, row.generation.value)) =
        [("31", 0), ("32", 0), ("33", 1)] ∧
      (repositoryAfter versionHashing plannerCalls).edges.map (fun e => (e.source.hex, e.target.hex)) =
        [("31", "32"), ("31", "33"), ("32", "33")] ∧
      ∀ hash, ¬ Relation.TransGen (repositoryAfter versionHashing plannerCalls).Derives hash hash :=
  ⟨by decide +kernel, by decide +kernel, (lineage_sound versionHashing plannerCalls (by decide +kernel)).2.1⟩

end AgentiumOs.Repository
