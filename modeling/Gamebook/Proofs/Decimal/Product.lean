import Gamebook.Proofs.Decimal.Rounding
import Gamebook.Proofs.Decimal.Worth

namespace Gamebook

namespace Binary64

open Float.Model Float.Model.UnpackedFloat

/-- A positive number with all of its 53 digits. -/
structure Holds (x : Float) (m : ℕ) (e : ℤ) : Prop where
  low : 2 ^ 52 ≤ m
  high : m < 2 ^ 53
  unpacked : ∃ h, x.toModel.unpack = .finite .positive m e h

theorem Holds.ofModel_pack {m : ℕ} {e : ℤ} (hlow : 2 ^ 52 ≤ m) (hhigh : m < 2 ^ 53)
    (he : -1074 ≤ e) (he' : e ≤ 971) (h : 0 < m) :
    Holds (.ofModel (.pack (.finite .positive m e h))) m e :=
  ⟨hlow, hhigh, h, unpack_pack hlow hhigh he he' .positive h⟩

theorem Holds.isInf {x : Float} {m : ℕ} {e : ℤ} (hx : Holds x m e) : x.isInf = false := by
  obtain ⟨_, hu⟩ := hx.unpacked
  rw [Float.isInf, Float.Model.isInf, hu]
  rfl

/-- From half a unit above the greatest number on everything is infinite. -/
def limit : ℕ := (2 ^ 54 - 1) * 2 ^ 970

theorem limit_cast : (limit : ℚ) = (2 ^ 54 - 1) * 2 ^ 970 := by
  have hunits : ((2 ^ 54 - 1 : ℕ) : ℚ) = 2 ^ 54 - 1 := by norm_num
  rw [limit, Nat.cast_mul, hunits, Nat.cast_pow, Nat.cast_ofNat]

theorem two_pow_log2_le {m : ℕ} (hm : 2 ^ 52 ≤ m) : 2 ^ (m.log2 - 52) * 2 ^ 52 ≤ m := by
  have hm0 : m ≠ 0 := by omega
  have hlog : 52 ≤ m.log2 := (Nat.le_log2 hm0).mpr hm
  rw [← Nat.pow_add, show m.log2 - 52 + 52 = m.log2 by omega]
  exact Nat.log2_self_le hm0

theorem exponent_le_of_bounded {m kept shift : ℕ} {e : ℤ} (hm : 2 ^ 52 ≤ m) (hkept : 2 ^ 52 ≤ kept)
    (hbound : 2 * (kept * 2 ^ shift) ≤ 2 * m + 2 ^ (m.log2 - 52))
    (hmax : (m : ℚ) * 2 ^ e < limit) : e + shift ≤ 971 := by
  by_contra hgt
  rw [limit_cast] at hmax
  have hunit : (0 : ℚ) < 2 ^ e := by positivity
  have htwo : (1 : ℚ) < 2 := by norm_num
  have hadd : ∀ n : ℕ, (2 : ℚ) ^ n * 2 ^ e = 2 ^ (e + n) := fun n => by
    rw [zpow_add₀ (by norm_num), zpow_natCast, mul_comm]
  have hunits : (0 : ℚ) < 2 ^ 970 := by positivity
  have h971 : (2 : ℚ) ^ 971 = 2 * 2 ^ 970 := pow_succ' _ _
  have h972 : (2 : ℚ) ^ 972 = 2 * (2 * 2 ^ 970) := by rw [pow_succ', h971]
  -- the powers are too large to be evaluated
  generalize (2 : ℚ) ^ 970 = unit at hmax hunits h971 h972
  have hlarge : (2 : ℚ) ^ 52 * 2 ^ 972 ≤ kept * 2 ^ shift * 2 ^ e := by
    have hpow : (2 : ℚ) ^ (972 : ℤ) ≤ 2 ^ (e + shift) := zpow_le_zpow_right₀ htwo.le (by omega)
    have hkept' : (2 : ℚ) ^ 52 ≤ kept := by exact_mod_cast hkept
    rw [mul_assoc, hadd]
    exact mul_le_mul hkept' (by exact_mod_cast hpow) (by positivity) (by positivity)
  have hhalf : (2 : ℚ) ^ (m.log2 - 52) * 2 ^ e ≤ 2 ^ 971 := by
    have hle : (2 : ℚ) ^ (m.log2 - 52) * 2 ^ 52 ≤ m := by exact_mod_cast two_pow_log2_le hm
    have hscaled := mul_le_mul_of_nonneg_right hle hunit.le
    have hlt : (2 : ℚ) ^ (e + (m.log2 - 52 : ℕ)) < 2 ^ (972 : ℤ) := by
      rw [← hadd, zpow_ofNat, h972]
      linarith only [hscaled, hmax, hunits]
    have hexp : e + (m.log2 - 52 : ℕ) < 972 := (zpow_lt_zpow_iff_right₀ htwo).mp hlt
    rw [hadd]
    exact_mod_cast zpow_le_zpow_right₀ htwo.le (show e + (m.log2 - 52 : ℕ) ≤ 971 by omega)
  have hbound' : 2 * ((kept : ℚ) * 2 ^ shift) ≤ 2 * m + 2 ^ (m.log2 - 52) := by
    exact_mod_cast hbound
  have hscaled := mul_le_mul_of_nonneg_right hbound' hunit.le
  rw [h972] at hlarge
  rw [h971] at hhalf
  linarith only [hlarge, hhalf, hscaled, hmax]

theorem mul_isInf {x y : Float} {m n : ℕ} {d e : ℤ} (hx : Holds x m d) (hy : Holds y n e)
    (hmin : -1074 ≤ d + e)
    (hmax : ((m * n : ℕ) : ℚ) * 2 ^ (d + e) < limit) : (x * y).isInf = false := by
  obtain ⟨hm, hu⟩ := hx.unpacked
  obtain ⟨hn, hv⟩ := hy.unpacked
  have hprod : 2 ^ 52 ≤ m * n := Nat.le_trans hx.low (Nat.le_mul_of_pos_right m hn)
  obtain ⟨kept, shift, hpos, hround, hlow, hhigh, hbound⟩ := round_bounded hprod hmin .positive
  have hle := exponent_le_of_bounded hprod hlow hbound hmax
  have heq : x * y = .ofModel (.pack (.finite .positive kept (d + e + shift) hpos)) := by
    change Float.ofModel (.pack (UnpackedFloat.mul .binary64 x.toModel.unpack y.toModel.unpack)) = _
    rw [hu, hv]
    exact congrArg (fun u => Float.ofModel (.pack u)) hround
  rw [heq]
  exact (Holds.ofModel_pack hlow hhigh (by omega) hle hpos).isInf

/-- One rounding adds less than one part in `2 ^ 53`. -/
theorem relative_le {m kept shift : ℕ} (hm : 2 ^ 52 ≤ m)
    (hbound : 2 * (kept * 2 ^ shift) ≤ 2 * m + 2 ^ (m.log2 - 52)) :
    2 ^ 53 * (kept * 2 ^ shift) ≤ (2 ^ 53 + 1) * m := by
  have := two_pow_log2_le hm
  omega

/-- A whole number that is not exceeded by more than the relative error of one rounding. -/
structure Rounds (x : Float) (n : ℕ) (m : ℕ) (e : ℤ) : Prop where
  holds : Holds x m e
  least : -53 ≤ e
  error : 2 ^ 53 * ((m : ℚ) * 2 ^ e) ≤ (2 ^ 53 + 1) * n

/-- Without the short way that is taken for small numbers. -/
theorem rounds_ofScientific {n k : ℕ} (hn : 0 < n) (hk : k ≤ 308)
    (hmax : n * 10 ^ k < limit) :
    ∃ m e, Rounds (.ofModel (Float.Model.ofScientific n k)) (n * 10 ^ k) m e := by
  have hpos : 0 < n * 10 ^ k := Nat.mul_pos hn (Nat.pow_pos (by decide))
  have hprod : 2 ^ 52 ≤ n * 10 ^ k * 2 ^ 53 := by omega
  obtain ⟨kept, shift, h, hround, hlow, hhigh, hbound⟩ :=
    round_bounded hprod (show -1074 ≤ (-53 : ℤ) by decide) .positive
  have hscale : ((n * 10 ^ k * 2 ^ 53 : ℕ) : ℚ) * 2 ^ (-53 : ℤ) = (n * 10 ^ k : ℕ) := by
    rw [Nat.cast_mul, Nat.cast_pow, Nat.cast_ofNat, mul_assoc, ← zpow_natCast,
      ← zpow_add₀ (by norm_num)]
    norm_num
  have hle : -53 + (shift : ℤ) ≤ 971 := by
    refine exponent_le_of_bounded hprod hlow hbound ?_
    rw [hscale]
    exact_mod_cast hmax
  have heq : UnpackedFloat.ofScientific .binary64 n k = .finite .positive kept (-53 + shift) h := by
    have hbits : (2 : ℤ) ^ Format.binary64.exponentBits = 2048 := by decide
    rw [UnpackedFloat.ofScientific, dif_neg hn.ne', hbits, if_neg (by omega), if_neg (by omega),
      if_pos (by omega)]
    change roundWithAccuracy .binary64 .positive ((n <<< 53) * 10 ^ (k : ℤ).toNat) (-53 + 0)
      .exact = _
    rw [Int.toNat_natCast, Nat.shiftLeft_eq, Int.add_zero, Nat.mul_right_comm]
    exact hround
  refine ⟨kept, -53 + shift, ?_, by omega, ?_⟩
  · rw [Float.Model.ofScientific, heq]
    exact Holds.ofModel_pack hlow hhigh (by omega) hle h
  · have herror : (2 : ℚ) ^ 53 * (kept * 2 ^ shift) ≤ (2 ^ 53 + 1) * (n * 10 ^ k * 2 ^ 53 : ℕ) := by
      exact_mod_cast relative_le hprod hbound
    have hunit : (0 : ℚ) < 2 ^ (-53 : ℤ) := by positivity
    have hscaled := mul_le_mul_of_nonneg_right herror hunit.le
    rw [mul_assoc (2 ^ 53 + 1 : ℚ), hscale] at hscaled
    have hsplit : (kept : ℚ) * 2 ^ (-53 + (shift : ℤ)) = kept * 2 ^ shift * 2 ^ (-53 : ℤ) := by
      rw [zpow_add₀ (by norm_num), zpow_natCast]
      ring
    rwa [hsplit, ← mul_assoc]

end Binary64

end Gamebook
