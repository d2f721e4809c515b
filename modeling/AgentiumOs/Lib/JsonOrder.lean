import AgentiumOs.Lib.Json

/-! The order of the members of JSON objects. Two values are reorderings of each
other when they differ in the order of the members of objects only, at any depth;
a value with its members in increasing order of their keys represents its class. -/

namespace AgentiumOs.Lib.Json.Value

open List

inductive UniqueKeys : Value → Prop
  | null : UniqueKeys null
  | bool (b : Bool) : UniqueKeys (bool b)
  | number (n : Number) : UniqueKeys (number n)
  | string (s : String) : UniqueKeys (string s)
  | array {items : List Value} (h : ∀ v ∈ items, UniqueKeys v) : UniqueKeys (array items)
  | object {members : List (String × Value)} (h : ∀ m ∈ members, UniqueKeys m.2)
      (hkeys : (members.map Prod.fst).Nodup) : UniqueKeys (object members)

/-- The members of every object are in increasing order of their keys. -/
inductive KeySorted : Value → Prop
  | null : KeySorted null
  | bool (b : Bool) : KeySorted (bool b)
  | number (n : Number) : KeySorted (number n)
  | string (s : String) : KeySorted (string s)
  | array {items : List Value} (h : ∀ v ∈ items, KeySorted v) : KeySorted (array items)
  | object {members : List (String × Value)} (h : ∀ m ∈ members, KeySorted m.2)
      (hkeys : members.Pairwise fun m n => m.1 < n.1) : KeySorted (object members)

/-- The values differ in the order of the members of objects, at any depth. -/
inductive Reorders : Value → Value → Prop
  | refl (v : Value) : Reorders v v
  | trans {u v w : Value} (h : Reorders u v) (h' : Reorders v w) : Reorders u w
  | members {ms ns : List (String × Value)} (h : ms.Perm ns) : Reorders (object ms) (object ns)
  | item (pre post : List Value) {v w : Value} (h : Reorders v w) :
      Reorders (array (pre ++ v :: post)) (array (pre ++ w :: post))
  | member (pre post : List (String × Value)) (key : String) {v w : Value} (h : Reorders v w) :
      Reorders (object (pre ++ (key, v) :: post)) (object (pre ++ (key, w) :: post))

variable {v w x : Value}

theorem Reorders.symm (h : Reorders v w) : Reorders w v := by
  induction h with
  | refl v => exact .refl v
  | trans _ _ ih ih' => exact .trans ih' ih
  | members h => exact .members h.symm
  | item pre post _ ih => exact .item pre post ih
  | member pre post key _ ih => exact .member pre post key ih

theorem Reorders.uniqueKeys (h : Reorders v w) (hv : UniqueKeys v) : UniqueKeys w := by
  induction h with
  | refl v => exact hv
  | trans _ _ ih ih' => exact ih' (ih hv)
  | members h =>
    cases hv with
    | object hme hk =>
      exact .object (fun m hm => hme m (h.mem_iff.mpr hm)) ((h.map Prod.fst).nodup_iff.mp hk)
  | item pre post _ ih =>
    cases hv with
    | array hi =>
      obtain ⟨hpr, hv, hp⟩ := by simpa only [forall_mem_append, forall_mem_cons] using hi
      refine .array ?_
      simpa only [forall_mem_append, forall_mem_cons] using ⟨hpr, ih hv, hp⟩
  | member pre post key _ ih =>
    cases hv with
    | object hme hk =>
      obtain ⟨hpr, hv, hp⟩ := by
        simpa only [forall_mem_append, forall_mem_cons] using hme
      refine .object ?_ ?_
      · simpa only [forall_mem_append, forall_mem_cons] using ⟨hpr, ih hv, hp⟩
      · simpa only [map_append, map_cons] using hk

theorem reorders_array_map (f : Value → Value) {i : List Value} (h : ∀ v ∈ i, Reorders v (f v))
    (pre : List Value) : Reorders (array (pre ++ i)) (array (pre ++ i.map f)) := by
  induction i generalizing pre with
  | nil => exact .refl _
  | cons v i ih =>
    obtain ⟨hv, hi⟩ := forall_mem_cons.mp h
    have hr := ih hi (pre ++ [f v])
    simp only [append_assoc] at hr
    exact .trans (.item pre i hv) hr

theorem reorders_object_map (f : Value → Value) {me : List (String × Value)}
    (h : ∀ m ∈ me, Reorders m.2 (f m.2)) (pre : List (String × Value)) :
    Reorders (object (pre ++ me)) (object (pre ++ me.map fun m => (m.1, f m.2))) := by
  induction me generalizing pre with
  | nil => exact .refl _
  | cons m me ih =>
    obtain ⟨hm, hme⟩ := forall_mem_cons.mp h
    have hr := ih hme (pre ++ [(m.1, f m.2)])
    simp only [append_assoc] at hr
    exact .trans (.member pre me m.1 hm) hr

theorem UniqueKeys.setMember {key : String} (hv : UniqueKeys v) (hx : UniqueKeys x)
    (h : v.setMember key x = some w) : UniqueKeys w := by
  cases hv with
  | null =>
    cases h
    exact .object (by simpa using hx) (by simp)
  | object hme hk =>
    rename_i me
    simp only [Value.setMember, Option.some.injEq] at h
    subst h
    split_ifs with hke
    · refine .object (fun m hm => ?_) ?_
      · obtain ⟨n, hn, rfl⟩ := mem_map.mp hm
        split_ifs
        · exact hx
        · exact hme n hn
      · have hs : (me.map fun m => if m.1 = key then (key, x) else m).map Prod.fst =
            me.map Prod.fst := by
          rw [map_map]
          refine map_congr_left fun m _ => ?_
          by_cases hm : m.1 = key <;> simp [hm]
        rwa [hs]
    · refine .object (fun m hm => ?_) ?_
      · rcases mem_append.mp hm with hm | hm
        · exact hme m hm
        · rw [mem_singleton.mp hm]
          exact hx
      · rw [map_append, nodup_append]
        refine ⟨hk, by simp, fun a ha b hb hab => hke ?_⟩
        rw [map_singleton, mem_singleton] at hb
        rwa [hab, hb] at ha
  | _ => cases h

end AgentiumOs.Lib.Json.Value
