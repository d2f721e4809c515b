import AgentiumOs.Lib.Text

/-! Texts that end in a separator and a decimal number: what stands after the
last separator is determined by the text, so the number can be read back. -/

namespace AgentiumOs.Lib.Decimal

theorem repr_toList (n : ℕ) : n.repr.toList = Nat.toDigits 10 n := by
  simp

theorem colon_notMem_repr (n : ℕ) : ':' ∉ n.repr.toList := by
  intro h
  rw [repr_toList] at h
  have hd := Nat.isDigit_of_mem_toDigits (by decide) (by decide) h
  revert hd
  decide

theorem append_colon_repr_inj {p q : String} {m n : ℕ}
    (h : p ++ ":" ++ m.repr = q ++ ":" ++ n.repr) : p = q ∧ m = n := by
  have hl := congrArg String.toList h
  simp only [String.toList_append, List.append_assoc] at hl
  obtain ⟨hp, hn⟩ := Text.suffix_unique (colon_notMem_repr m) (colon_notMem_repr n) hl
  exact ⟨String.toList_inj.mp hp, Nat.repr_injective (String.toList_inj.mp hn)⟩

end AgentiumOs.Lib.Decimal
