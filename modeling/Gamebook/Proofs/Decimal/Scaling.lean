import Gamebook.Proofs.Decimal.Product

namespace Gamebook

namespace Binary64

open Float.Model Float.Model.UnpackedFloat

theorem one_unpack : (Float.exactlyRepresentablePowersOfTen[0]).toModel.unpack =
    .finite .positive (2 ^ 52) (-52) (by decide) := by
  rfl

/-- Below `2 ^ 53` the binary digits are moved to the front. -/
theorem ofNat_small {n : ℕ} (hn : 0 < n) (hsmall : n < 2 ^ 53) :
    ∃ (m s : ℕ) (h : 0 < m), 2 ^ 52 ≤ m ∧ m < 2 ^ 53 ∧ s ≤ 52 ∧ m = n * 2 ^ s ∧
      UnpackedFloat.ofNat .binary64 n = .finite .positive m (-(s : ℤ)) h := by
  have hlog : n.log2 < 53 := (Nat.log2_lt hn.ne').mpr hsmall
  have hpos : 0 < n * 2 ^ (52 - n.log2) := Nat.mul_pos hn (Nat.pow_pos (by decide))
  have hlow : 2 ^ 52 ≤ n * 2 ^ (52 - n.log2) := by
    have := Nat.mul_le_mul_right (2 ^ (52 - n.log2)) (Nat.log2_self_le hn.ne')
    rwa [← Nat.pow_add, show n.log2 + (52 - n.log2) = 52 by omega] at this
  have hhigh : n * 2 ^ (52 - n.log2) < 2 ^ 53 := by
    have := Nat.mul_lt_mul_of_pos_right (Nat.lt_log2_self (n := n))
      (Nat.pow_pos (n := 52 - n.log2) (show 0 < 2 by decide))
    rwa [← Nat.pow_add, show n.log2 + 1 + (52 - n.log2) = 53 by omega] at this
  refine ⟨_, 52 - n.log2, hpos, hlow, hhigh, Nat.sub_le _ _, rfl, ?_⟩
  have hgt : compare (n : ℤ) 0 = .gt := compare_gt_iff_gt.mpr (by omega)
  have htarget : Format.binary64.targetExponent (totalExponent n 0) =
      -((52 - n.log2 : ℕ) : ℤ) := by
    rw [totalExponent, show (n.log2 + 1 + 0 : ℤ) = -((52 - n.log2 : ℕ) : ℤ) + 53 by omega,
      targetExponent_normal (by omega)]
  have hexact := round_exact hlow hhigh 0 (e := -((52 - n.log2 : ℕ) : ℤ)) (by omega) .positive
  have hround : UnpackedFloat.ofNat .binary64 n = roundWithAccuracy .binary64 .positive
      (n * 2 ^ (52 - n.log2) * 2 ^ 0) (-((52 - n.log2 : ℕ) : ℤ)) .exact := by
    simp only [UnpackedFloat.ofNat, UnpackedFloat.ofInt, UnpackedFloat.normalize, hgt,
      UnpackedFloat.round, htarget, decreaseExponent, Int.zero_sub, Int.neg_neg, Int.toNat_natCast,
      Nat.shiftLeft_eq, Nat.pow_zero, Nat.mul_one]
  exact hround.trans (hexact.trans (finite_congr _ rfl (Int.add_zero _)))

theorem rounds_ofNat {n : ℕ} (hn : 0 < n) (hmax : n < 2 ^ 64) :
    ∃ m e, Rounds (Float.ofNat n) n m e := by
  by_cases hsmall : n < 2 ^ 53
  · obtain ⟨m, s, h, hlow, hhigh, hs, hm, hof⟩ := ofNat_small hn hsmall
    have hto : n.toUInt64.toNat = n := Nat.mod_eq_of_lt hmax
    have hfloat : Float.ofNat n =
        n.toUInt64.toFloat * Float.exactlyRepresentablePowersOfTen[0] := by
      change Float.ofScientific n false 0 = _
      rw [Float.ofScientific, dif_pos ⟨hsmall, by decide⟩]
      rfl
    have hfactor : n.toUInt64.toFloat.toModel.unpack = .finite .positive m (-(s : ℤ)) h := by
      rw [← unpack_pack hlow hhigh (by omega) (by omega) .positive h, ← hof]
      change (Float.Model.pack (UnpackedFloat.ofNat .binary64 n.toUInt64.toNat)).unpack = _
      rw [hto]
    have hexact := round_exact hlow hhigh 52 (e := -(s : ℤ) + -52) (by omega) .positive
    rw [show -(s : ℤ) + -52 + (52 : ℕ) = -(s : ℤ) by omega] at hexact
    have heq : Float.ofNat n = .ofModel (.pack (.finite .positive m (-(s : ℤ)) h)) := by
      rw [hfloat]
      change Float.ofModel (.pack (UnpackedFloat.mul .binary64 n.toUInt64.toFloat.toModel.unpack
        (Float.exactlyRepresentablePowersOfTen[0]).toModel.unpack)) = _
      rw [hfactor, one_unpack]
      exact congrArg (fun u => Float.ofModel (.pack u)) hexact
    have hworth : (m : ℚ) * 2 ^ (-(s : ℤ)) = n := by
      rw [hm, Nat.cast_mul, Nat.cast_pow, Nat.cast_ofNat, zpow_neg, zpow_natCast]
      field_simp
    refine ⟨m, -(s : ℤ), ?_, by omega, ?_⟩
    · rw [heq]
      exact Holds.ofModel_pack hlow hhigh (by omega) (by omega) h
    · rw [hworth]
      have : (0 : ℚ) ≤ n := by positivity
      linarith
  · have hfloat : Float.ofNat n = .ofModel (Float.Model.ofScientific n (0 : ℕ)) := by
      change Float.ofScientific n false 0 = _
      rw [Float.ofScientific, dif_neg (by omega)]
      rfl
    have hlimit : 2 ^ 64 < limit := by decide +kernel
    rw [hfloat]
    simpa using rounds_ofScientific hn (by decide) (k := 0) (by omega)

/-- The leading digits of a number, without rounding. -/
def leading (n : ℕ) : ℕ := n * 2 ^ 52 / 2 ^ n.log2

theorem leading_bounds {n : ℕ} (hn : n ≠ 0) : 2 ^ 52 ≤ leading n ∧ leading n < 2 ^ 53 ∧
    2 ^ 53 * ((leading n : ℚ) * 2 ^ ((n.log2 : ℤ) - 52)) ≤ (2 ^ 53 + 1) * n := by
  have hpos : 0 < 2 ^ n.log2 := Nat.pow_pos (by decide)
  refine ⟨?_, ?_, ?_⟩
  · rw [leading, Nat.le_div_iff_mul_le hpos, Nat.mul_comm]
    exact Nat.mul_le_mul_right _ (Nat.log2_self_le hn)
  · have hlt : n < 2 * 2 ^ n.log2 := by
      rw [← Nat.pow_succ']
      exact Nat.lt_log2_self
    rw [leading, Nat.div_lt_iff_lt_mul hpos]
    omega
  · have hdiv : (leading n : ℚ) * 2 ^ n.log2 ≤ n * 2 ^ 52 := by
      exact_mod_cast Nat.div_mul_le_self (n * 2 ^ 52) (2 ^ n.log2)
    have hsplit : (leading n : ℚ) * 2 ^ ((n.log2 : ℤ) - 52) =
        leading n * 2 ^ n.log2 / 2 ^ 52 := by
      rw [zpow_sub₀ (by norm_num), zpow_natCast]
      norm_num
      ring
    have hn0 : (0 : ℚ) ≤ n := by positivity
    rw [hsplit]
    linarith

/-- The powers that are stored are exact. -/
theorem powerOfTen_small {k : ℕ} (hk : k < 23) : ∃ h, Numeral.powerOfTen k = .ofModel (.pack
    (.finite .positive (leading (10 ^ k)) ((10 ^ k).log2 - 52) h)) := by
  have hall : ∀ k : Fin 23, ∃ h, Numeral.powerOfTen k = .ofModel (.pack
      (.finite .positive (leading (10 ^ k.val)) ((10 ^ k.val).log2 - 52) h)) := by
    decide +kernel
  exact hall ⟨k, hk⟩

theorem ten_pow_lt_limit {k : ℕ} (hk : k ≤ 308) : 10 ^ k < limit :=
  Nat.lt_of_le_of_lt (Nat.pow_le_pow_right (by decide) hk) (by decide +kernel)

theorem rounds_powerOfTen {k : ℕ} (hk : k ≤ 308) :
    ∃ m e, Rounds (Numeral.powerOfTen k) (10 ^ k) m e := by
  by_cases hsmall : k < 23
  · obtain ⟨h, heq⟩ := powerOfTen_small hsmall
    have hten : 10 ^ k ≠ 0 := (Nat.pow_pos (by decide)).ne'
    have hpow : 10 ^ k ≤ 10 ^ 22 := Nat.pow_le_pow_right (by decide) (by omega)
    have hlog : (10 ^ k).log2 < 74 := (Nat.log2_lt hten).mpr (by omega)
    obtain ⟨hlow, hhigh, herror⟩ := leading_bounds hten
    refine ⟨_, _, ?_, ?_, herror⟩
    · rw [heq]
      exact Holds.ofModel_pack hlow hhigh (by omega) (by omega) h
    · omega
  · have hfloat : Numeral.powerOfTen k = .ofModel (Float.Model.ofScientific 1 k) := by
      rw [Numeral.powerOfTen, Float.ofScientific, dif_neg (by omega)]
      rfl
    have hlimit := ten_pow_lt_limit hk
    rw [hfloat]
    simpa using rounds_ofScientific (by decide) hk (n := 1) (by omega)

/-- Two roundings do not carry anything from here up to the limit. -/
def reach : ℕ := (2 ^ 54 - 5) * 2 ^ 970

theorem reach_lt_limit : (2 ^ 53 + 1 : ℚ) ^ 2 * reach < 2 ^ 106 * limit := by
  have hnat : (2 ^ 53 + 1) ^ 2 * reach < 2 ^ 106 * limit := by decide +kernel
  exact_mod_cast hnat

theorem mul_powerOfTen_isInf {n k : ℕ} (hn : 0 < n) (hmax : n < 2 ^ 64) (hk : k ≤ 308)
    (hreach : n * 10 ^ k ≤ reach) :
    (Float.ofNat n * Numeral.powerOfTen k).isInf = false := by
  obtain ⟨m, d, hm⟩ := rounds_ofNat hn hmax
  obtain ⟨m', d', hm'⟩ := rounds_powerOfTen hk
  refine mul_isInf hm.holds hm'.holds (by have := hm.least; have := hm'.least; omega) ?_
  have hpos : (0 : ℚ) ≤ 2 ^ 53 * (m' * 2 ^ d') :=
    mul_nonneg (by norm_num) (mul_nonneg (Nat.cast_nonneg m') (zpow_nonneg (by norm_num) d'))
  have hn0 : (0 : ℚ) ≤ (2 ^ 53 + 1) * n := mul_nonneg (by norm_num) (Nat.cast_nonneg n)
  have hprod := mul_le_mul hm.error hm'.error hpos hn0
  have hbelow : (2 ^ 53 + 1 : ℚ) ^ 2 * (n * 10 ^ k : ℕ) < 2 ^ 106 * limit :=
    (mul_le_mul_of_nonneg_left (Nat.cast_le.mpr hreach) (by positivity)).trans_lt reach_lt_limit
  have hsplit : ((m * m' : ℕ) : ℚ) * 2 ^ (d + d') = (m * 2 ^ d) * (m' * 2 ^ d') := by
    rw [zpow_add₀ (by norm_num)]
    push_cast
    ring
  rw [hsplit]
  push_cast at hprod hbelow
  linarith only [hprod, hbelow]

end Binary64

theorem Numeral.scale?_isSome_of_neg (x : Float) {e : ℤ} (he : e < 0) :
    (Numeral.scale? x e).isSome = true := by
  induction hn : (-e).toNat using Nat.strongRecOn generalizing x e with
  | ind n ih =>
    rw [scale?, if_neg (by omega)]
    split
    · rfl
    · split
      · rfl
      · exact ih _ (by omega) _ (by omega) rfl

theorem Numeral.scale?_of_finite {x : Float} {k : ℕ} (hk : k ≤ 308)
    (h : (x * powerOfTen k).isInf = false) : (scale? x k).isSome = true := by
  rw [scale?, if_pos (by omega), if_pos (by omega)]
  simp only [Int.toNat_natCast, h]
  rfl

/-- A significand is scaled to a finite number if the exact product is not too large. -/
theorem Numeral.scale?_ofNat_isSome {n : ℕ} {e : ℤ} (hn : 0 < n) (hmax : n < 2 ^ 64)
    (hreach : 0 ≤ e → (n : ℚ) * 10 ^ e ≤ Binary64.reach) :
    (Numeral.scale? (Float.ofNat n) e).isSome = true := by
  rcases Int.lt_or_le e 0 with he | he
  · exact scale?_isSome_of_neg _ he
  · obtain ⟨k, rfl⟩ := Int.eq_ofNat_of_zero_le he
    have hprod : n * 10 ^ k ≤ Binary64.reach := by
      have := hreach he
      rw [zpow_natCast] at this
      exact_mod_cast this
    have hk : k ≤ 308 := by
      by_contra hgt
      have hlarge : Binary64.reach < 10 ^ 309 := by decide +kernel
      have hpow : 10 ^ 309 ≤ 10 ^ k := pow_le_pow_right₀ (by decide) (by omega)
      have hle : 10 ^ k ≤ n * 10 ^ k := Nat.le_mul_of_pos_left _ hn
      exact absurd (Nat.lt_of_lt_of_le hlarge (hpow.trans (hle.trans hprod))) (Nat.lt_irrefl _)
    exact scale?_of_finite hk (Binary64.mul_powerOfTen_isInf hn hmax hk hprod)

end Gamebook
