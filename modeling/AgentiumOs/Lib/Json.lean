import Mathlib

/-! JSON values. An object is the list of its members, as a document lists them.
A number is an integer or a floating-point number, which are told apart even where
they denote the same: `1` and `1.0` are written differently. -/

namespace AgentiumOs.Lib.Json

/-- An integer, or a floating-point number by its bits. -/
inductive Number where
  | integer (value : ℤ)
  | float (bits : BitVec 64)
  deriving DecidableEq

inductive Value where
  | null
  | bool (value : Bool)
  | number (value : Number)
  | string (value : String)
  | array (items : List Value)
  | object (members : List (String × Value))

namespace Value

-- The type is nested in lists, so equality is decided together with that of its lists.
mutual

def decEq : (a b : Value) → Decidable (a = b)
  | null, null => isTrue rfl
  | bool a, bool b => decidable_of_iff (a = b) (by simp)
  | number a, number b => decidable_of_iff (a = b) (by simp)
  | string a, string b => decidable_of_iff (a = b) (by simp)
  | array a, array b =>
      match decEqItems a b with
      | isTrue h => isTrue (by rw [h])
      | isFalse h => isFalse (by simpa using h)
  | object a, object b =>
      match decEqMembers a b with
      | isTrue h => isTrue (by rw [h])
      | isFalse h => isFalse (by simpa using h)
  | null, bool _ | null, number _ | null, string _ | null, array _ | null, object _
  | bool _, null | bool _, number _ | bool _, string _ | bool _, array _ | bool _, object _
  | number _, null | number _, bool _ | number _, string _ | number _, array _ | number _, object _
  | string _, null | string _, bool _ | string _, number _ | string _, array _ | string _, object _
  | array _, null | array _, bool _ | array _, number _ | array _, string _ | array _, object _
  | object _, null | object _, bool _ | object _, number _ | object _, string _ | object _, array _ =>
      isFalse (by simp)

def decEqItems : (a b : List Value) → Decidable (a = b)
  | [], [] => isTrue rfl
  | [], _ :: _ | _ :: _, [] => isFalse (by simp)
  | a :: as, b :: bs =>
      match decEq a b, decEqItems as bs with
      | isTrue h, isTrue hs => isTrue (by rw [h, hs])
      | isFalse h, _ => isFalse (by simp [h])
      | _, isFalse hs => isFalse (by simp [hs])

def decEqMembers : (a b : List (String × Value)) → Decidable (a = b)
  | [], [] => isTrue rfl
  | [], _ :: _ | _ :: _, [] => isFalse (by simp)
  | (k, a) :: as, (l, b) :: bs =>
      match decEq a b, decEqMembers as bs with
      | isTrue h, isTrue hs => decidable_of_iff (k = l) (by simp [h, hs])
      | isFalse h, _ => isFalse (by simp [h])
      | _, isFalse hs => isFalse (by simp [hs])

end

instance : DecidableEq Value := decEq

/-- Induction over a value, with a hypothesis for every item and every member. -/
@[elab_as_elim]
theorem induction {motive : Value → Prop} (null : motive null) (bool : ∀ b, motive (bool b))
    (number : ∀ n, motive (number n)) (string : ∀ s, motive (string s))
    (array : ∀ items, (∀ v ∈ items, motive v) → motive (array items))
    (object : ∀ members : List (String × Value), (∀ m ∈ members, motive m.2) → motive (object members))
    (v : Value) : motive v :=
  @Value.rec motive (fun items => ∀ v ∈ items, motive v) (fun members => ∀ m ∈ members, motive m.2)
    (fun m => motive m.2) null bool number string array object (by simp)
    (fun v vs hv hvs => List.forall_mem_cons.mpr ⟨hv, hvs⟩) (by simp)
    (fun m ms hm hms => List.forall_mem_cons.mpr ⟨hm, hms⟩) (fun _ _ hv => hv) v

/-- The member of an object; other values have none. -/
def get (key : String) : Value → Option Value
  | object members => members.lookup key
  | _ => none

/-- `value[key] = x`: a null becomes an object, and what is not an object panics. -/
def setMember (value : Value) (key : String) (x : Value) : Option Value :=
  match value with
  | null => some (object [(key, x)])
  | object members =>
      some (object (if key ∈ members.map Prod.fst then
          members.map fun m => if m.1 = key then (key, x) else m
        else members ++ [(key, x)]))
  | _ => none

def asStr : Value → Option String
  | string value => some value
  | _ => none

def asArray : Value → Option (List Value)
  | array items => some items
  | _ => none

end Value

end AgentiumOs.Lib.Json
