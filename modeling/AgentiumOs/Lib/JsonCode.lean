import AgentiumOs.Lib.Json
import AgentiumOs.Lib.Text

/-! Bytes from which a JSON value can be read back. Numbers are written in unary, and
every part of a value says in front what it is. -/

namespace AgentiumOs.Lib.Json

open List

def unary (n : ℕ) : List UInt8 := List.replicate n 1 ++ [0]

variable {rest rest' : List UInt8}

theorem unary_append_inj {m n : ℕ} (h : unary m ++ rest = unary n ++ rest') : m = n ∧ rest = rest' := by
  simp only [unary, append_assoc] at h
  have ho : ∀ k, (0 : UInt8) ∉ replicate k 1 := by
    intro k hm
    exact absurd (eq_of_mem_replicate hm) (by decide)
  obtain ⟨hl, hr⟩ := Text.lead_unique (ho m) (ho n) h
  exact ⟨by simpa using congrArg length hl, hr⟩

/-- A code of lists that ends with `unary 0` and writes each item before the rest can be read back if
the items can. -/
theorem list_append_inj {α : Type} {code : List α → List UInt8} {f : α → List UInt8} (hn : code [] = unary 0)
    (hc : ∀ a as, code (a :: as) = f a ++ code as) (hi : ∀ a r s, f a ++ r ≠ unary 0 ++ s)
    {as bs : List α} (ih : ∀ a ∈ as, ∀ b r s, f a ++ r = f b ++ s → a = b ∧ r = s)
    (h : code as ++ rest = code bs ++ rest') : as = bs ∧ rest = rest' := by
  induction as generalizing bs with
  | nil =>
    cases bs with
    | nil => exact ⟨rfl, append_cancel_left h⟩
    | cons b bs =>
      rw [hn, hc, append_assoc] at h
      exact absurd h.symm (hi b _ _)
  | cons a as iha =>
    obtain ⟨hf, ho⟩ := forall_mem_cons.mp ih
    rw [hc, append_assoc] at h
    cases bs with
    | nil =>
      rw [hn] at h
      exact absurd h (hi a _ _)
    | cons b bs =>
      rw [hc, append_assoc] at h
      obtain ⟨rfl, hit⟩ := hf _ _ _ h
      obtain ⟨rfl, hr⟩ := iha ho hit
      exact ⟨rfl, hr⟩

def textCode : List Char → List UInt8
  | [] => unary 0
  | c :: cs => unary (c.toNat + 1) ++ textCode cs

theorem textCode_append_inj {cs ds : List Char} (h : textCode cs ++ rest = textCode ds ++ rest') :
    cs = ds ∧ rest = rest' := by
  refine list_append_inj (f := fun c => unary (c.toNat + 1)) (by simp [textCode]) (fun c cs => by simp [textCode])
    (fun c r s heq => ?_) (fun c _ d r s heq => ?_) h
  · cases (unary_append_inj heq).1
  · obtain ⟨hc, hr⟩ := unary_append_inj heq
    exact ⟨Char.toNat_inj.mp (Nat.succ.inj hc), hr⟩

def numberCode : Number → List UInt8
  | .integer n => unary 0 ++ unary (Equiv.intEquivNat n)
  | .float bits => unary 1 ++ unary bits.toNat

theorem numberCode_append_inj {m n : Number} (h : numberCode m ++ rest = numberCode n ++ rest') :
    m = n ∧ rest = rest' := by
  rcases m with m | m <;> rcases n with n | n <;>
    (rw [numberCode, numberCode, append_assoc, append_assoc] at h
     obtain ⟨hk, hr⟩ := unary_append_inj h)
  · obtain ⟨hv, hr⟩ := unary_append_inj hr
    exact ⟨by rw [Equiv.intEquivNat.injective hv], hr⟩
  · cases hk
  · cases hk
  · obtain ⟨hb, hr⟩ := unary_append_inj hr
    exact ⟨by rw [BitVec.eq_of_toNat_eq hb], hr⟩

namespace Value

mutual

def code : Value → List UInt8
  | null => unary 0
  | bool b => unary (if b then 1 else 2)
  | number n => unary 3 ++ numberCode n
  | string s => unary 4 ++ textCode s.toList
  | array items => unary 5 ++ itemsCode items
  | object members => unary 6 ++ membersCode members

def itemsCode : List Value → List UInt8
  | [] => unary 0
  | v :: items => unary 1 ++ (code v ++ itemsCode items)

def membersCode : List (String × Value) → List UInt8
  | [] => unary 0
  | (key, v) :: members => unary 1 ++ (textCode key.toList ++ (code v ++ membersCode members))

end

def kind : Value → ℕ
  | null => 0
  | bool b => if b then 1 else 2
  | number _ => 3
  | string _ => 4
  | array _ => 5
  | object _ => 6

def body : Value → List UInt8
  | null => []
  | bool _ => []
  | number n => numberCode n
  | string s => textCode s.toList
  | array items => itemsCode items
  | object members => membersCode members

theorem code_eq (v : Value) : code v = unary v.kind ++ v.body := by
  cases v <;> simp [code, kind, body]

variable {rest rest' : List UInt8}

theorem itemsCode_append_inj {as bs : List Value} (ih : ∀ v ∈ as, ∀ w r s, code v ++ r = code w ++ s → v = w ∧ r = s)
    (h : itemsCode as ++ rest = itemsCode bs ++ rest') : as = bs ∧ rest = rest' := by
  refine list_append_inj (f := fun v => unary 1 ++ code v) (by simp [itemsCode]) (fun v vs => by simp [itemsCode])
    (fun v r s heq => ?_) (fun v hv w r s heq => ?_) h
  · rw [append_assoc] at heq
    cases (unary_append_inj heq).1
  · rw [append_assoc] at heq
    exact ih v hv w r s (append_cancel_left heq)

theorem membersCode_append_inj {as bs : List (String × Value)}
    (ih : ∀ m ∈ as, ∀ w r s, code m.2 ++ r = code w ++ s → m.2 = w ∧ r = s)
    (h : membersCode as ++ rest = membersCode bs ++ rest') : as = bs ∧ rest = rest' := by
  refine list_append_inj (f := fun m => unary 1 ++ (textCode m.1.toList ++ code m.2)) (by simp [membersCode])
    (fun m ms => by simp [membersCode]) (fun m r s heq => ?_) (fun m hm n r s heq => ?_) h
  · rw [append_assoc] at heq
    cases (unary_append_inj heq).1
  · simp only [append_assoc] at heq
    obtain ⟨hk, hme⟩ := textCode_append_inj (append_cancel_left heq)
    obtain ⟨hv, hr⟩ := ih m hm _ _ _ hme
    exact ⟨Prod.ext (String.toList_inj.mp hk) hv, hr⟩

/-- A value can be read back from the beginning of its code and what follows it. -/
theorem code_append_inj (v : Value) : ∀ w rest rest', code v ++ rest = code w ++ rest' → v = w ∧ rest = rest' := by
  induction v using Value.induction
  all_goals
    intro w rest rest' h
    rw [code_eq, code_eq, append_assoc, append_assoc] at h
    obtain ⟨hk, hb⟩ := unary_append_inj h
  case null =>
    cases w with
    | null => exact ⟨rfl, hb⟩
    | bool b => cases b <;> cases hk
    | _ => cases hk
  case bool b =>
    cases w with
    | bool c => cases b <;> cases c <;> first | exact ⟨rfl, hb⟩ | cases hk
    | _ => cases b <;> cases hk
  case number n =>
    cases w with
    | number m =>
      obtain ⟨rfl, hr⟩ := numberCode_append_inj hb
      exact ⟨rfl, hr⟩
    | bool b => cases b <;> cases hk
    | _ => cases hk
  case string s =>
    cases w with
    | string t =>
      obtain ⟨ht, hr⟩ := textCode_append_inj hb
      exact ⟨by rw [String.toList_inj.mp ht], hr⟩
    | bool b => cases b <;> cases hk
    | _ => cases hk
  case array items ih =>
    cases w with
    | array items' =>
      obtain ⟨rfl, hr⟩ := itemsCode_append_inj ih hb
      exact ⟨rfl, hr⟩
    | bool b => cases b <;> cases hk
    | _ => cases hk
  case object members ih =>
    cases w with
    | object members' =>
      obtain ⟨rfl, hr⟩ := membersCode_append_inj ih hb
      exact ⟨rfl, hr⟩
    | bool b => cases b <;> cases hk
    | _ => cases hk

theorem code_injective : Function.Injective code := by
  intro v w h
  exact (code_append_inj v w [] [] (by rw [h])).1

end Value

end AgentiumOs.Lib.Json
