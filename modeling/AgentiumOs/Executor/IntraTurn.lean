import AgentiumOs.Lib.Json
import AgentiumOs.Tools.Error

/-! The lines of the conversation that a loop of hops adds to what the provider shows. The
supplement keeps every line since the loop began, the provider shows the last lines only: a line
that has left the provider's window comes back at its end. -/

namespace AgentiumOs.Executor

open List

open Tools (BamlRtError)
open Lib.Json (Value)

def defaultLlmContextItemCap : ℕ := 40

section

variable {Line : Type} [DecidableEq Line]

/-- What was appended, if nothing else was changed. -/
def takePrefixGrowth (before after : List Line) : Option (List Line) :=
  if before.isPrefixOf after then some (after.drop before.length) else none

/-- The lines that the provider does not have, in order. -/
def appendIntraLines (prov extra : List Line) : List Line :=
  extra.foldl (fun prov line => if line ∈ prov then prov else prov ++ [line]) prov

def appendIntraLinesToProviderThenCap (prov extra : List Line) : List Line :=
  let merged := appendIntraLines prov extra
  if defaultLlmContextItemCap < merged.length then merged.drop (merged.length - defaultLlmContextItemCap) else merged

def hopLinesFromProviderDelta (before after : List Line) (phaseFunction : String) : Except BamlRtError (List Line) :=
  if after = before then .ok []
  else
    match takePrefixGrowth before after with
    | some appended => .ok appended
    | none =>
        -- a line was changed or dropped: the lines that were nowhere before
        let novel := after.filter (· ∉ before)
        if novel = [] then
          .error (.bamlRuntime ("step executor hop " ++ phaseFunction ++ ": conversation_context is not a prefix " ++
            "extension and added no new line values vs the pre-step snapshot; graph reordered or suppressed only"))
        else .ok novel

def appendStepIntraDeltas (supplement before after : List Line) (phaseFunction : String) :
    Except BamlRtError (List Line) :=
  (hopLinesFromProviderDelta before after phaseFunction).map (supplement ++ ·)

/-- The supplement after hops that each leave a snapshot of the provider's lines. -/
def supplementAfter (supplement before : List Line) : List (String × List Line) → Except BamlRtError (List Line)
  | [] => .ok supplement
  | (phaseFunction, after) :: hops => do
      let supplement ← appendStepIntraDeltas supplement before after phaseFunction
      supplementAfter supplement after hops

def lastSnapshot (first : List Line) (hops : List (String × List Line)) : List Line :=
  (hops.getLast?.map Prod.snd).getD first

omit [DecidableEq Line] in
@[simp] theorem lastSnapshot_cons (first : List Line) (hop : String × List Line) (hops : List (String × List Line)) :
    lastSnapshot first (hop :: hops) = lastSnapshot hop.2 hops := by
  cases hops with
  | nil => rfl
  | cons next hops => rw [lastSnapshot, lastSnapshot, List.getLast?_cons_cons, List.getLast?_cons, Option.map_some]; rfl

theorem hopLines_of_prefix {b af : List Line} (h : b <+: af) (p : String) :
    hopLinesFromProviderDelta b af p = .ok (af.drop b.length) := by
  rw [hopLinesFromProviderDelta]
  split
  · rename_i heq
    rw [heq, drop_length]
  · rw [takePrefixGrowth, if_pos (List.isPrefixOf_iff_prefix.mpr h)]

/-- Snapshots that only grow leave what was appended to the first as the supplement. -/
theorem supplementAfter_of_growing {f : List Line} {h : List (String × List Line)}
    (hg : (f :: h.map Prod.snd).IsChain (· <+: ·)) (s : List Line) :
    f <+: lastSnapshot f h ∧ supplementAfter s f h = .ok (s ++ (lastSnapshot f h).drop f.length) := by
  induction h generalizing f s with
  | nil =>
    refine ⟨prefix_rfl, ?_⟩
    show Except.ok s = _
    rw [lastSnapshot, getLast?_nil, Option.map_none, Option.getD_none, drop_length, append_nil]
  | cons hop h ih =>
    obtain ⟨hf, hr⟩ := isChain_cons_cons.mp hg
    obtain ⟨hn, hs⟩ := ih hr (s ++ hop.2.drop f.length)
    rw [lastSnapshot_cons]
    refine ⟨hf.trans hn, ?_⟩
    obtain ⟨ad, ha⟩ := hf
    obtain ⟨more, hm⟩ := hn
    rw [supplementAfter, appendStepIntraDeltas, hopLines_of_prefix ⟨ad, ha⟩]
    show supplementAfter (s ++ hop.2.drop f.length) hop.2 h = _
    rw [hs, ← hm, drop_left, ← ha, drop_left, append_assoc, append_assoc f, drop_left]

theorem appendIntraLines_cons (prov : List Line) (l : Line) (extra : List Line) :
    appendIntraLines prov (l :: extra) =
      if l ∈ prov then appendIntraLines prov extra else appendIntraLines (prov ++ [l]) extra := by
  rw [appendIntraLines, foldl_cons]
  split <;> rfl

variable {e prov : List Line}

theorem appendIntraLines_of_subset (h : ∀ li ∈ e, li ∈ prov) : appendIntraLines prov e = prov := by
  induction e with
  | nil => rfl
  | cons li e ih =>
    rw [appendIntraLines_cons, if_pos (h li mem_cons_self)]
    exact ih fun l hl => h l (mem_cons_of_mem li hl)

/-- Otherwise the merged lines end with one that the provider does not show. -/
theorem appendIntraLines_of_not_subset (h : ¬ ∀ li ∈ e, li ∈ prov) :
    ∃ new la, appendIntraLines prov e = prov ++ new ++ [la] ∧ la ∉ prov := by
  induction e generalizing prov with
  | nil => exact absurd (fun _ hl => by cases hl) h
  | cons li e ih =>
    rw [appendIntraLines_cons]
    split
    · rename_i hm
      refine ih fun ha => h fun l hl => ?_
      rcases mem_cons.mp hl with rfl | hl
      · exact hm
      · exact ha l hl
    · rename_i hn
      by_cases hr : ∀ l ∈ e, l ∈ prov ++ [li]
      · exact ⟨[], li, by rw [appendIntraLines_of_subset hr, append_nil], hn⟩
      · obtain ⟨new, la, heq, hla⟩ := ih hr
        refine ⟨li :: new, la, by rw [heq, append_assoc prov]; rfl, fun hm => hla ?_⟩
        exact mem_append_left _ hm

theorem appendThenCap_eq_rtake (prov e : List Line) :
    appendIntraLinesToProviderThenCap prov e = (appendIntraLines prov e).rtake defaultLlmContextItemCap := by
  rw [appendIntraLinesToProviderThenCap, List.rtake]
  split
  · rfl
  · rename_i hle
    rw [Nat.sub_eq_zero_of_le (Nat.le_of_not_lt hle), drop_zero]

theorem appendThenCap_eq_self_iff (hc : prov.length ≤ defaultLlmContextItemCap) :
    appendIntraLinesToProviderThenCap prov e = prov ↔ ∀ l ∈ e, l ∈ prov := by
  rw [appendThenCap_eq_rtake]
  constructor
  · intro hs
    by_contra hn
    obtain ⟨new, last, heq, hl⟩ := appendIntraLines_of_not_subset hn
    refine hl ?_
    rw [← hs, heq, List.rtake, drop_append_of_le_length]
    · exact mem_append_right _ mem_cons_self
    · simp only [length_append, length_singleton, defaultLlmContextItemCap]
      omega
  · intro hsu
    rw [appendIntraLines_of_subset hsu, List.rtake, Nat.sub_eq_zero_of_le hc, drop_zero]

/-- Over snapshots that only grow, merging the supplement onto the last lines of the last snapshot
gives just those lines exactly when every line appended since the first is still among them. -/
theorem merged_lines_eq_tail_iff {first : List Line} {hops : List (String × List Line)}
    (hgrow : (first :: hops.map Prod.snd).IsChain (· <+: ·)) :
    ∃ supplement, supplementAfter [] first hops = .ok supplement ∧
      (appendIntraLinesToProviderThenCap ((lastSnapshot first hops).rtake defaultLlmContextItemCap) supplement =
          (lastSnapshot first hops).rtake defaultLlmContextItemCap ↔
        ∀ line ∈ (lastSnapshot first hops).drop first.length,
          line ∈ (lastSnapshot first hops).rtake defaultLlmContextItemCap) := by
  refine ⟨_, (supplementAfter_of_growing hgrow []).2, appendThenCap_eq_self_iff ?_⟩
  rw [List.rtake, length_drop]
  omega

end

/-- Two hops of one line each, the second with the text of the first. -/
theorem merged_lines_eq_tail_of_repeated_line :
    ∃ supplement, supplementAfter [] [] [("Step__entry", [Value.string "a"]),
        ("Step__entry", [.string "a", .string "a"])] = .ok supplement ∧
      appendIntraLinesToProviderThenCap [.string "a", .string "a"] supplement = [.string "a", .string "a"] := by
  obtain ⟨supplement, hs, hm⟩ := @merged_lines_eq_tail_iff _ _ []
    [("Step__entry", [Value.string "a"]), ("Step__entry", [.string "a", .string "a"])]
    (by simp)
  exact ⟨supplement, hs, hm.mpr (by decide)⟩

/-- After a hop that appends 41 lines the first of them is shown again after the last, and the
second is not shown. -/
theorem line_comes_back_after_cap : ∃ supplement, supplementAfter [] []
        [("Step__entry", (List.range 41).map fun n : ℕ => Value.number (.integer n))] = .ok supplement ∧
      appendIntraLinesToProviderThenCap ((List.range' 1 40).map fun n : ℕ => Value.number (.integer n)) supplement =
        (List.range' 2 39 ++ [0]).map fun n : ℕ => Value.number (.integer n) :=
  ⟨_, rfl, by decide +kernel⟩

end AgentiumOs.Executor
