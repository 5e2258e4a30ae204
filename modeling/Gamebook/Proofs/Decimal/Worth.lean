import Gamebook.Decimal.Shortest
import Mathlib.Algebra.Order.Field.Power
import Mathlib.Algebra.Order.Ring.Rat
import Mathlib.Tactic.FieldSimp
import Mathlib.Tactic.Linarith
import Mathlib.Tactic.NormNum
import Mathlib.Tactic.Ring

namespace Gamebook

def Decimal.worth (d : Decimal) : ℚ := d.digits * 10 ^ d.exponent

def Magnitude.worth (m : Magnitude) : ℚ := m.mantissa * 2 ^ m.exponent

theorem pow_toNat_eq_zpow {b : ℕ} (hb : 0 < b) (e : ℤ) :
    ((Nat.pow b e.toNat : ℕ) : ℚ) = (b : ℚ) ^ e * (Nat.pow b (-e).toNat : ℕ) := by
  have hb0 : (b : ℚ) ≠ 0 := by exact_mod_cast hb.ne'
  rcases Int.le_total 0 e with he | he
  · obtain ⟨n, rfl⟩ := Int.eq_ofNat_of_zero_le he
    have hneg : (-(n : ℤ)).toNat = 0 := by omega
    rw [hneg]
    simp
  · obtain ⟨n, hn⟩ := Int.eq_ofNat_of_zero_le (Int.neg_nonneg_of_nonpos he)
    obtain rfl : e = -(n : ℤ) := by omega
    have hneg : (-(n : ℤ)).toNat = 0 := by omega
    rw [hneg]
    simp [hb0]

/-- Both sides of a comparison are scaled alike. -/
theorem Decimal.compare_scaled (d : Decimal) (m : Magnitude) : ∃ c : ℚ, 0 < c ∧
    ((d.digits * tens d.exponent * twos (-m.exponent) : ℕ) : ℚ) = c * d.worth ∧
    ((m.mantissa * twos m.exponent * tens (-d.exponent) : ℕ) : ℚ) = c * m.worth := by
  have htens := pow_toNat_eq_zpow (b := 10) (by decide) d.exponent
  have htwos := pow_toNat_eq_zpow (b := 2) (by decide) m.exponent
  have hpos : 0 < tens (-d.exponent) * twos (-m.exponent) :=
    Nat.mul_pos (Nat.pow_pos (by decide)) (Nat.pow_pos (by decide))
  refine ⟨(tens (-d.exponent) * twos (-m.exponent) : ℕ), by exact_mod_cast hpos, ?_, ?_⟩
  · simp only [tens, twos, Decimal.worth, Nat.cast_mul, Nat.cast_ofNat] at htens ⊢
    rw [htens]
    ring
  · simp only [tens, twos, Magnitude.worth, Nat.cast_mul, Nat.cast_ofNat] at htwos ⊢
    rw [htwos]
    ring

theorem Decimal.compare_eq_gt_iff {d : Decimal} {m : Magnitude} :
    d.compare m = .gt ↔ m.worth < d.worth := by
  obtain ⟨c, hc, hd, hm⟩ := d.compare_scaled m
  rw [Decimal.compare, Nat.compare_eq_gt, ← Nat.cast_lt (α := ℚ), hd, hm, mul_lt_mul_iff_right₀ hc]

theorem Decimal.compare_eq_lt_iff {d : Decimal} {m : Magnitude} :
    d.compare m = .lt ↔ d.worth < m.worth := by
  obtain ⟨c, hc, hd, hm⟩ := d.compare_scaled m
  rw [Decimal.compare, Nat.compare_eq_lt, ← Nat.cast_lt (α := ℚ), hd, hm, mul_lt_mul_iff_right₀ hc]

theorem Decimal.compare_eq_eq_iff {d : Decimal} {m : Magnitude} :
    d.compare m = .eq ↔ d.worth = m.worth := by
  obtain ⟨c, hc, hd, hm⟩ := d.compare_scaled m
  rw [Decimal.compare, Nat.compare_eq_eq, ← Nat.cast_inj (R := ℚ), hd, hm,
    mul_right_inj' hc.ne']

theorem Decimal.digits_pos_of_worth {d : Decimal} (h : 0 < d.worth) : 0 < d.digits := by
  rcases Nat.eq_zero_or_pos d.digits with h0 | hpos
  · rw [Decimal.worth, h0] at h
    simp at h
  · exact hpos

theorem Decimal.trimZeros_worth (fuel : ℕ) (d : Decimal) : (d.trimZeros fuel).worth = d.worth := by
  induction fuel generalizing d with
  | zero => rfl
  | succ fuel ih =>
    rw [Decimal.trimZeros]
    split
    next h =>
      have hten : (10 : ℚ) ≠ 0 := by norm_num
      have hdigits : (d.digits : ℚ) = 10 * (d.digits / 10 : ℕ) := by
        exact_mod_cast (Nat.mul_div_cancel' (Nat.dvd_of_mod_eq_zero h.1)).symm
      rw [ih, Decimal.worth, Decimal.worth, hdigits, zpow_add_one₀ hten]
      ring
    next => rfl

theorem Decimal.trim_worth (d : Decimal) : d.trim.worth = d.worth := d.trimZeros_worth _

namespace Magnitude

variable {m : Magnitude} {d : Decimal}

theorem exact_worth (m : Magnitude) : m.exact.worth = m.worth := by
  unfold exact
  split
  next h =>
    obtain ⟨n, hn⟩ := Int.eq_ofNat_of_zero_le h
    simp [Decimal.worth, worth, twos, hn]
  next h =>
    obtain ⟨n, hn⟩ := Int.eq_ofNat_of_zero_le (a := -m.exponent) (by omega)
    have he : m.exponent = -(n : ℤ) := by omega
    have hten : (10 : ℚ) ^ n = 5 ^ n * 2 ^ n := by rw [← mul_pow]; norm_num
    have hfive : (5 : ℚ) ^ n ≠ 0 := by positivity
    simp only [Decimal.worth, worth, he, neg_neg, Int.toNat_natCast, Nat.pow_eq, Nat.cast_mul,
      Nat.cast_pow, Nat.cast_ofNat, zpow_neg, zpow_natCast, hten]
    field_simp

theorem low_worth_pos (hm : 0 < m.mantissa) : 0 < m.low.worth := by
  have hpos : 0 < 4 * m.mantissa - (if m.narrowBelow then 1 else 2) := by
    split <;> omega
  exact mul_pos (by exact_mod_cast hpos) (by positivity)

theorem low_le_worth (m : Magnitude) : m.low.worth ≤ m.worth := by
  have hle : ((4 * m.mantissa - (if m.narrowBelow then 1 else 2) : ℕ) : ℚ) ≤ 4 * m.mantissa := by
    exact_mod_cast Nat.sub_le _ _
  have hpow : (2 : ℚ) ^ m.exponent = 4 * 2 ^ (m.exponent - 2) := by
    rw [zpow_sub₀ (by norm_num), show (2 : ℚ) ^ (2 : ℤ) = 4 by norm_num]
    field_simp
  have hpos : (0 : ℚ) < 2 ^ (m.exponent - 2) := by positivity
  calc m.low.worth ≤ 4 * m.mantissa * 2 ^ (m.exponent - 2) :=
        mul_le_mul_of_nonneg_right hle hpos.le
    _ = m.worth := by rw [worth, hpow]; ring

theorem high_worth (m : Magnitude) :
    m.high.worth = (2 * m.mantissa + 1) * 2 ^ (m.exponent - 1) := by
  have hpow : (2 : ℚ) ^ (m.exponent - 1) = 2 * 2 ^ (m.exponent - 2) := by
    rw [show m.exponent - 1 = (m.exponent - 2) + 1 by omega, zpow_add_one₀ (by norm_num)]
    ring
  rw [worth, high, hpow]
  push_cast
  ring

theorem worth_le_high (m : Magnitude) : m.worth ≤ m.high.worth := by
  have hpow : (2 : ℚ) ^ m.exponent = 2 * 2 ^ (m.exponent - 1) := by
    rw [zpow_sub_one₀ (by norm_num)]
    ring
  have hpos : (0 : ℚ) < 2 ^ (m.exponent - 1) := by positivity
  rw [high_worth, worth, hpow]
  linarith

theorem between_of_admits (h : m.admits d = true) :
    m.low.worth ≤ d.worth ∧ d.worth ≤ m.high.worth := by
  simp only [admits, Bool.and_eq_true, Bool.or_eq_true, beq_iff_eq, Decimal.compare_eq_gt_iff,
    Decimal.compare_eq_eq_iff, Decimal.compare_eq_lt_iff] at h
  obtain ⟨hlow, hhigh⟩ := h
  constructor
  · rcases hlow with hlt | ⟨_, heq⟩
    · exact hlt.le
    · exact heq.ge
  · rcases hhigh with hlt | ⟨_, heq⟩
    · exact hlt.le
    · exact heq.le

theorem nearer_eq (m : Magnitude) (tie : Tie) (n : ℕ) (grid : ℤ) :
    m.nearer tie n grid = ⟨n, grid⟩ ∨ m.nearer tie n grid = ⟨n + 1, grid⟩ := by
  unfold nearer
  split
  · exact Or.inl rfl
  · exact Or.inr rfl
  · split
    · exact Or.inl rfl
    · exact Or.inr rfl

theorem admits_of_onGrid? {tie : Tie} {grid : ℤ} (h : m.onGrid? tie grid = some d) :
    m.admits d = true := by
  unfold onGrid? at h
  simp only at h
  split at h
  next hdown hup =>
    cases Option.some.inj h
    rcases m.nearer_eq tie (m.steps grid) grid with he | he
    · rw [he]; exact hdown
    · rw [he]; exact hup
  next hdown _ => cases Option.some.inj h; exact hdown
  next _ hup => cases Option.some.inj h; exact hup
  next => simp at h

theorem shortest_between (hm : 0 < m.mantissa) (tie : Tie) : 0 < (m.shortest tie).digits ∧
    m.low.worth ≤ (m.shortest tie).worth ∧ (m.shortest tie).worth ≤ m.high.worth := by
  have hbetween : m.low.worth ≤ (m.shortest tie).worth ∧
      (m.shortest tie).worth ≤ m.high.worth := by
    unfold shortest
    rw [Decimal.trim_worth]
    cases hfound : (List.range 17).findSome? fun (i : ℕ) => m.onGrid? tie (m.leading - i) with
    | none =>
      rw [Option.getD_none, exact_worth]
      exact ⟨m.low_le_worth, m.worth_le_high⟩
    | some d =>
      obtain ⟨i, _, hi⟩ := List.exists_of_findSome?_eq_some hfound
      exact between_of_admits (admits_of_onGrid? hi)
  exact ⟨Decimal.digits_pos_of_worth (lt_of_lt_of_le (low_worth_pos hm) hbetween.1), hbetween⟩

end Magnitude

end Gamebook
