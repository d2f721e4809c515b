import Mathlib

/-! Byte strings from which their parts can be read back. A text is the list of its
UTF-8 bytes, a record is a tag and data with the length of each in front, and a
list of records is determined by their concatenation as long as the lengths fit
their fields. -/

namespace AgentiumOs.Lib.Framing

open List

def utf8 (s : String) : List UInt8 := s.toList.flatMap String.utf8EncodeChar

theorem utf8_injective : Function.Injective utf8 := by
  intro s t h
  have hs : ∀ u : String, u.toByteArray = (utf8 u).toByteArray := by
    intro u
    conv_lhs => rw [← String.ofList_toList (s := u)]
    rfl
  rw [← String.toByteArray_inj, hs, hs, h]

theorem zero_mem_utf8EncodeChar {c : Char} (h : 0 ∈ String.utf8EncodeChar c) : c = Char.ofNat 0 := by
  have hb : ∀ n, 0 < n → n < 256 → 0 ≠ UInt8.ofNat n := by
    intro n hp hn hz
    have ht := congrArg UInt8.toNat hz
    rw [UInt8.toNat_ofNat', Nat.mod_eq_of_lt hn] at ht
    exact Nat.ne_of_lt hp ht
  unfold String.utf8EncodeChar at h
  dsimp only at h
  split_ifs at h with h1 h2 h3 <;> simp only [mem_cons, not_mem_nil, or_false] at h
  · by_contra hc
    refine hb c.val.toNat (Nat.pos_of_ne_zero fun hv => hc ?_) (by omega) h
    exact Char.ext (UInt32.toNat_inj.mp hv)
  · rcases h with h | h <;> exact absurd h (hb _ (by omega) (by omega))
  · rcases h with h | h | h <;> exact absurd h (hb _ (by omega) (by omega))
  · rcases h with h | h | h | h <;> exact absurd h (hb _ (by omega) (by omega))

theorem zero_notMem_utf8 {s : String} (h : Char.ofNat 0 ∉ s.toList) : 0 ∉ utf8 s := by
  intro hz
  obtain ⟨c, hc, hm⟩ := mem_flatMap.mp hz
  exact h (zero_mem_utf8EncodeChar hm ▸ hc)

/-- `to_le_bytes` of an integer of `width` bytes. -/
def leBytes : ℕ → ℕ → List UInt8
  | 0, _ => []
  | width + 1, n => UInt8.ofNat n :: leBytes width (n / 256)

@[simp] theorem length_leBytes (width n : ℕ) : (leBytes width n).length = width := by
  induction width generalizing n with
  | zero => rfl
  | succ width ih => rw [leBytes, length_cons, ih]

theorem leBytes_inj {w m n : ℕ} (hm : m < 256 ^ w) (hn : n < 256 ^ w)
    (h : leBytes w m = leBytes w n) : m = n := by
  induction w generalizing m n with
  | zero => omega
  | succ w ih =>
    obtain ⟨hl, hh⟩ := List.cons.inj h
    have hd : m / 256 = n / 256 := by
      refine ih ?_ ?_ hh
      · exact Nat.div_lt_of_lt_mul (by rwa [Nat.pow_succ'] at hm)
      · exact Nat.div_lt_of_lt_mul (by rwa [Nat.pow_succ'] at hn)
    have hmo : m % 256 = n % 256 := by
      simpa only [UInt8.toNat_ofNat'] using congrArg UInt8.toNat hl
    omega

/-- `from_le_bytes`. -/
def ofLeBytes (bytes : List UInt8) : ℕ := bytes.foldr (fun b n => b.toNat + 256 * n) 0

theorem ofLeBytes_leBytes (width n : ℕ) : ofLeBytes (leBytes width n) = n % 256 ^ width := by
  induction width generalizing n with
  | zero => simp [leBytes, ofLeBytes, Nat.mod_one]
  | succ width ih =>
    have hr : ofLeBytes (leBytes width (n / 256)) = n / 256 % 256 ^ width := ih _
    rw [Nat.pow_succ', Nat.mod_mul, ← hr]
    rfl

def delimited (width : ℕ) (data : List UInt8) : List UInt8 := leBytes width data.length ++ data

theorem delimited_append_inj {w : ℕ} {a b rest rest' : List UInt8} (ha : a.length < 256 ^ w)
    (hb : b.length < 256 ^ w) (h : delimited w a ++ rest = delimited w b ++ rest') :
    a = b ∧ rest = rest' := by
  rw [delimited, delimited, append_assoc, append_assoc] at h
  obtain ⟨hl, hd⟩ := append_inj h (by rw [length_leBytes, length_leBytes])
  exact append_inj hd (leBytes_inj ha hb hl)

@[ext]
structure Section where
  tag : List UInt8
  data : List UInt8

def Section.Fits (r : Section) : Prop := r.tag.length < 256 ^ 4 ∧ r.data.length < 256 ^ 8

def Section.bytes (r : Section) : List UInt8 := delimited 4 r.tag ++ delimited 8 r.data

theorem bytes_append_inj {r s : Section} {rest rest' : List UInt8} (hr : r.Fits) (hs : s.Fits)
    (h : r.bytes ++ rest = s.bytes ++ rest') : r = s ∧ rest = rest' := by
  rw [Section.bytes, Section.bytes, append_assoc, append_assoc] at h
  obtain ⟨ht, hre⟩ := delimited_append_inj hr.1 hs.1 h
  obtain ⟨hd, hre⟩ := delimited_append_inj hr.2 hs.2 hre
  exact ⟨Section.ext ht hd, hre⟩

theorem bytes_ne_nil (r : Section) : r.bytes ≠ [] := by
  intro h
  have hl := congrArg length h
  simp [Section.bytes, delimited] at hl

theorem flatMap_bytes_inj {rs ss : List Section} (hr : ∀ r ∈ rs, r.Fits) (hs : ∀ s ∈ ss, s.Fits)
    (h : rs.flatMap Section.bytes = ss.flatMap Section.bytes) : rs = ss := by
  induction rs generalizing ss with
  | nil =>
    cases ss with
    | nil => rfl
    | cons s ss => exact absurd (append_eq_nil_iff.mp h.symm).1 (bytes_ne_nil s)
  | cons r rs ih =>
    cases ss with
    | nil => exact absurd (append_eq_nil_iff.mp h).1 (bytes_ne_nil r)
    | cons s ss =>
      obtain ⟨hf, hre⟩ := bytes_append_inj (hr r mem_cons_self) (hs s mem_cons_self) h
      rw [hf, ih (fun t ht => hr t (mem_cons_of_mem r ht)) (fun t ht => hs t (mem_cons_of_mem s ht)) hre]

def hexByte (b : UInt8) : List Char := [(b.toNat / 16).digitChar, (b.toNat % 16).digitChar]

theorem digitChar_inj : ∀ m < 16, ∀ n < 16, Nat.digitChar m = Nat.digitChar n → m = n := by decide

theorem hexByte_injective : Function.Injective hexByte := by
  intro a b h
  obtain ⟨hh, hlow⟩ := List.cons.inj h
  have ha := a.toNat_lt
  have hb := b.toNat_lt
  have hdiv := digitChar_inj _ (by omega) _ (by omega) hh
  have hmod := digitChar_inj _ (by omega) _ (by omega) (List.cons.inj hlow).1
  exact UInt8.toNat_inj.mp (by omega)

theorem flatMap_hexByte_injective : Function.Injective fun bytes : List UInt8 => bytes.flatMap hexByte := by
  intro as bs h
  induction as generalizing bs with
  | nil =>
    cases bs with
    | nil => rfl
    | cons b bs => cases h
  | cons a as ih =>
    cases bs with
    | nil => cases h
    | cons b bs =>
      have happend : hexByte a ++ as.flatMap hexByte = hexByte b ++ bs.flatMap hexByte := h
      obtain ⟨hb, hr⟩ := append_inj happend rfl
      rw [hexByte_injective hb, ih hr]

end AgentiumOs.Lib.Framing
