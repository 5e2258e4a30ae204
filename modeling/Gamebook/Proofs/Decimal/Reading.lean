import Gamebook.Proofs.Decimal.Scaling
import Gamebook.Proofs.Decimal.Written

namespace Gamebook

namespace Numeral

/-- The number that a numeral without its sign is written for. -/
def worth (n : Numeral) : ℚ :=
  naturalValue (n.whole ++ n.fraction) * 10 ^ (n.power.getD 0 - n.fraction.length)

theorem le_ofDigitChars (ds : List Char) (n : ℕ) : n ≤ Nat.ofDigitChars 10 ds n := by
  rw [Nat.ofDigitChars_eq_ofDigitChars_zero]
  exact Nat.le_add_right_of_le (Nat.le_mul_of_pos_left n (Nat.pow_pos (by decide)))

/-- Digits are absorbed up to the first one that does not fit. -/
theorem absorb_spec (n : ℕ) (ds : List Char) : ∃ taken,
    ds = taken ++ (absorb n ds).2 ∧ (absorb n ds).1 = Nat.ofDigitChars 10 taken n ∧
    (n < 2 ^ 64 → (absorb n ds).1 < 2 ^ 64) ∧
    ∀ c ∈ (absorb n ds).2.head?, 2 ^ 64 ≤ 10 * (absorb n ds).1 + digitValue c := by
  induction ds generalizing n with
  | nil => exact ⟨[], rfl, rfl, id, by simp [absorb]⟩
  | cons c ds ih =>
    rw [absorb]
    split
    next hlt =>
      obtain ⟨taken, hds, hvalue, hbound, hnext⟩ := ih (10 * n + digitValue c)
      refine ⟨c :: taken, ?_, ?_, fun _ => hbound hlt, hnext⟩
      · rw [List.cons_append, ← hds]
      · rw [hvalue, Nat.ofDigitChars_cons]
        rfl
    next hge =>
      refine ⟨[], rfl, rfl, id, ?_⟩
      intro d hd
      cases hd
      exact Nat.le_of_not_lt hge

theorem naturalValue_lt {ds : List Char} (hds : AllDigits ds) :
    naturalValue ds < 10 ^ ds.length := by
  induction ds with
  | nil => decide
  | cons c ds ih =>
    obtain ⟨hc, hds⟩ := List.forall_mem_cons.mp hds
    have hrest : Nat.ofDigitChars 10 ds 0 < 10 ^ ds.length := ih hds
    have hdigit : c.toNat - 48 ≤ 9 := by
      simp only [Char.isDigit, Bool.and_eq_true, decide_eq_true_eq] at hc
      have hle : c.val.toNat ≤ 57 := hc.2
      have hto : c.toNat = c.val.toNat := rfl
      omega
    have hscaled := Nat.mul_le_mul_left (10 ^ ds.length) hdigit
    have hvalue : naturalValue (c :: ds) =
        10 ^ ds.length * (c.toNat - 48) + Nat.ofDigitChars 10 ds 0 := by
      rw [← Nat.ofDigitChars_eq_ofDigitChars_zero]
      change Nat.ofDigitChars 10 (c :: ds) 0 = _
      rw [Nat.ofDigitChars_cons, Nat.mul_zero, Nat.zero_add]
      rfl
    rw [hvalue, List.length_cons, Nat.pow_succ]
    omega

theorem digitValue_lt (c : Char) : digitValue c < 2 ^ 64 := by
  have : c.val.toNat < 2 ^ 32 := c.val.toNat_lt
  have hc : digitValue c = c.val.toNat - 48 := rfl
  omega

theorem absorb_all {ds : List Char} (h : naturalValue ds < 2 ^ 64) :
    absorb 0 ds = (naturalValue ds, []) := by
  obtain ⟨taken, hds, hvalue, _, hnext⟩ := absorb_spec 0 ds
  cases hrest : (absorb 0 ds).2 with
  | nil =>
    rw [hrest, List.append_nil] at hds
    rw [Prod.ext_iff]
    exact ⟨by rw [hvalue, ← hds]; rfl, hrest⟩
  | cons c rest =>
    have hc := hnext c (by simp [hrest])
    have hle : 10 * (absorb 0 ds).1 + digitValue c ≤ naturalValue ds := by
      conv_rhs => rw [hds, hrest]
      change _ ≤ Nat.ofDigitChars 10 (taken ++ c :: rest) 0
      rw [Nat.ofDigitChars_append, ← hvalue, Nat.ofDigitChars_cons]
      exact le_ofDigitChars rest _
    omega

theorem scaled?_isSome_eq {n : Numeral} {whole significand : ℕ} {dropped unread : List Char}
    (hwhole : absorb 0 n.whole = (whole, dropped))
    (hfraction : absorb whole n.fraction = (significand, unread)) :
    n.scaled?.isSome = (scale? (Float.ofNat significand) (n.power.getD 0 + dropped.length -
      (n.fraction.length - unread.length : ℕ))).isSome := by
  simp only [scaled?, hwhole, hfraction, Option.isSome_map]

/-- The leading digits alone are scaled, and they are not more than all of them. -/
theorem scaled?_isSome {n : Numeral} (hwhole : naturalValue n.whole < 2 ^ 64)
    (hpos : 0 < naturalValue (n.whole ++ n.fraction)) (hreach : n.worth ≤ Binary64.reach) :
    n.scaled?.isSome = true := by
  obtain ⟨taken, hds, hvalue, hbound, hnext⟩ := absorb_spec (naturalValue n.whole) n.fraction
  rw [scaled?_isSome_eq (absorb_all hwhole) rfl]
  generalize (absorb (naturalValue n.whole) n.fraction).1 = significand at *
  generalize (absorb (naturalValue n.whole) n.fraction).2 = unread at *
  have hall : naturalValue (n.whole ++ n.fraction) =
      10 ^ unread.length * significand + Nat.ofDigitChars 10 unread 0 := by
    conv_lhs => rw [hds]
    change Nat.ofDigitChars 10 (n.whole ++ (taken ++ unread)) 0 = _
    rw [Nat.ofDigitChars_append, Nat.ofDigitChars_append, ← Nat.ofDigitChars_eq_ofDigitChars_zero,
      hvalue]
    rfl
  have hsignificand : 0 < significand := by
    -- a significand of zero would have absorbed every digit
    rcases Nat.eq_zero_or_pos significand with rfl | h
    · cases unread with
      | nil => simp at hall; omega
      | cons c rest =>
        have := hnext c rfl
        have := digitValue_lt c
        omega
    · exact h
  refine scale?_ofNat_isSome hsignificand (hbound hwhole) fun _ => ?_
  have hlength : n.fraction.length = taken.length + unread.length := by
    rw [← List.length_append, ← hds]
  have hexponent : n.power.getD 0 + (([] : List Char).length : ℤ) -
      (n.fraction.length - unread.length : ℕ) =
        unread.length + (n.power.getD 0 - n.fraction.length) := by
    simp only [List.length_nil]
    omega
  have hle : (10 : ℚ) ^ unread.length * significand ≤ naturalValue (n.whole ++ n.fraction) := by
    exact_mod_cast hall ▸ Nat.le_add_right _ _
  have hunit : (0 : ℚ) ≤ 10 ^ (n.power.getD 0 - n.fraction.length) := zpow_nonneg (by norm_num) _
  calc (significand : ℚ) * 10 ^ (n.power.getD 0 + (([] : List Char).length : ℤ) -
        (n.fraction.length - unread.length : ℕ))
      = 10 ^ unread.length * significand * 10 ^ (n.power.getD 0 - n.fraction.length) := by
        rw [hexponent, zpow_add₀ (by norm_num), zpow_natCast]
        ring
    _ ≤ n.worth := mul_le_mul_of_nonneg_right hle hunit
    _ ≤ Binary64.reach := hreach

end Numeral

end Gamebook
