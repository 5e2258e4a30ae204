import Gamebook.Decimal.Numeral
import Mathlib.Algebra.Ring.Nat

namespace Gamebook

namespace Binary64

open Float.Model Float.Model.UnpackedFloat

/-- What is left of a whole number when its last `n` binary digits are cut off, with what the bits of
the rest say about them. -/
structure Cut (number n : Nat) (em : ExtendedMantissa) : Prop where
  mantissa : em.mantissa = number / 2 ^ n
  half : em.roundBit = true → 2 ^ n ≤ 2 * (number % 2 ^ n)
  rest : em.roundBit = true ∨ em.stickyBit = true → 0 < number % 2 ^ n

theorem Cut.none (number : Nat) : Cut number 0 ⟨number, false, false⟩ :=
  ⟨by simp, by simp, by simp⟩

theorem Cut.shiftRightOne {number n : Nat} {em : ExtendedMantissa} (h : Cut number n em) :
    Cut number (n + 1) em.shiftRightOne := by
  have hmod : number % 2 ^ (n + 1) = number % 2 ^ n + 2 ^ n * (number / 2 ^ n % 2) :=
    Nat.mod_pow_succ
  refine ⟨?_, ?_, ?_⟩
  · simp only [ExtendedMantissa.shiftRightOne, h.mantissa, Nat.pow_succ, Nat.div_div_eq_div_mul]
  · simp only [ExtendedMantissa.shiftRightOne, h.mantissa, bne_iff_ne]
    intro hodd
    rw [hmod, show number / 2 ^ n % 2 = 1 by omega, Nat.pow_succ]
    omega
  · simp only [ExtendedMantissa.shiftRightOne, h.mantissa, bne_iff_ne, Bool.or_eq_true]
    rintro (hodd | hrest)
    · have hpos : 0 < 2 ^ n := Nat.pow_pos (by decide)
      rw [hmod, show number / 2 ^ n % 2 = 1 by omega]
      omega
    · have := h.rest hrest
      omega

theorem cut_shiftRight (number n : Nat) :
    Cut number n ((⟨number, false, false⟩ : ExtendedMantissa) >>> n) := by
  induction n with
  | zero => exact Cut.none number
  | succ n ih => exact ih.shiftRightOne

section Cut

variable {number n : Nat} {em : ExtendedMantissa}

theorem Cut.rounded_eq (h : Cut number n em) : em.roundedMantissa = em.mantissa ∨
    (em.roundBit = true ∧ em.roundedMantissa = em.mantissa + 1) := by
  obtain ⟨mantissa, round, sticky⟩ := em
  cases round <;> cases sticky <;> simp only [ExtendedMantissa.roundedMantissa,
    ExtendedMantissa.accuracy, Accuracy.roundToNearestEven] <;> simp
  omega

theorem Cut.le_rounded (h : Cut number n em) : number / 2 ^ n ≤ em.roundedMantissa := by
  have := h.mantissa
  rcases h.rounded_eq with he | ⟨_, he⟩ <;> omega

/-- Half of the last digit that is kept is the most that is added. -/
theorem Cut.rounded_le (h : Cut number n em) :
    2 * (em.roundedMantissa * 2 ^ n) ≤ 2 * number + 2 ^ n := by
  have hsplit : 2 ^ n * (number / 2 ^ n) + number % 2 ^ n = number := Nat.div_add_mod number (2 ^ n)
  rcases h.rounded_eq with he | ⟨hround, he⟩
  · rw [he, h.mantissa, Nat.mul_comm (number / 2 ^ n)]
    omega
  · have := h.half hround
    rw [he, h.mantissa, Nat.add_mul, Nat.mul_comm (number / 2 ^ n)]
    omega

theorem Cut.rounded_exact (h : Cut number n em) (hz : number % 2 ^ n = 0) :
    em.roundedMantissa = number / 2 ^ n := by
  rw [← h.mantissa]
  rcases h.rounded_eq with he | ⟨hround, he⟩
  · exact he
  · have := h.rest (Or.inl hround)
    omega

end Cut

theorem log2_eq {m k : Nat} (hlow : 2 ^ k ≤ m) (hhigh : m < 2 ^ (k + 1)) : m.log2 = k := by
  have hm : m ≠ 0 := by have := Nat.pow_pos (n := k) (show 0 < 2 by decide); omega
  have hle : k ≤ m.log2 := (Nat.le_log2 hm).mpr hlow
  have hlt : m.log2 < k + 1 := (Nat.log2_lt hm).mpr hhigh
  omega

theorem targetExponent_normal {e : Int} (he : -1074 ≤ e) :
    Format.binary64.targetExponent (e + 53) = e := by
  have hmin : Format.binary64.minExponent = -1074 := by decide
  have hbits : ((Format.binary64.mantissaBits : Nat) : Int) = 53 := by decide
  rw [Format.targetExponent, hmin, hbits]
  omega

/-- How many digits are cut off to leave 53. -/
theorem shiftToTargetExponent_normal {m : Nat} {e : Int} (hm : 2 ^ 52 ≤ m) (he : -1074 ≤ e) :
    shiftToTargetExponent .binary64 m e .exact =
      ((⟨m, false, false⟩ : ExtendedMantissa) >>> (m.log2 - 52), e + (m.log2 - 52 : Nat)) := by
  have hlog : 52 ≤ m.log2 := (Nat.le_log2 (by omega)).mpr hm
  have htotal : totalExponent m e = (e + (m.log2 - 52 : Nat)) + 53 := by
    rw [totalExponent]
    omega
  rw [shiftToTargetExponent, htotal, targetExponent_normal (by omega), shiftToExponent]
  have hshift : (e + (m.log2 - 52 : Nat) - e).toNat = m.log2 - 52 := by omega
  simp only [hshift, ExtendedMantissa.ofMantissaAndAccuracy]

theorem kept_bounds {m : Nat} (hm : 2 ^ 52 ≤ m) :
    2 ^ 52 ≤ m / 2 ^ (m.log2 - 52) ∧ m / 2 ^ (m.log2 - 52) < 2 ^ 53 := by
  have hm0 : m ≠ 0 := by omega
  have hlog : 52 ≤ m.log2 := (Nat.le_log2 hm0).mpr hm
  have hpos : 0 < 2 ^ (m.log2 - 52) := Nat.pow_pos (by decide)
  constructor
  · rw [Nat.le_div_iff_mul_le hpos, ← Nat.pow_add, show 52 + (m.log2 - 52) = m.log2 by omega]
    exact Nat.log2_self_le hm0
  · rw [Nat.div_lt_iff_lt_mul hpos, ← Nat.pow_add, show 53 + (m.log2 - 52) = m.log2 + 1 by omega]
    exact Nat.lt_log2_self

theorem finite_congr {s : Sign} {m n : Nat} {e f : Int} (hm : 0 < m) (hmn : m = n) (hef : e = f) :
    UnpackedFloat.finite s m e hm = .finite s n f (hmn ▸ hm) := by
  subst hmn hef
  rfl

/-- Rounding may carry into a digit more, which is cut off in turn. -/
theorem roundWithAccuracy_eq {m r : Nat} {e : Int} (hm : 2 ^ 52 ≤ m) (he : -1074 ≤ e) (s : Sign)
    (hr : ((⟨m, false, false⟩ : ExtendedMantissa) >>> (m.log2 - 52)).roundedMantissa = r) :
    ∃ (h : 0 < r / 2 ^ (r.log2 - 52)), 2 ^ 52 ≤ r ∧ roundWithAccuracy .binary64 s m e .exact =
      .finite s (r / 2 ^ (r.log2 - 52)) (e + (m.log2 - 52 : Nat) + (r.log2 - 52 : Nat)) h := by
  have hkept := (kept_bounds hm).1
  have hrlow : 2 ^ 52 ≤ r := by
    have := (cut_shiftRight m (m.log2 - 52)).le_rounded
    omega
  have hpos : 0 < r / 2 ^ (r.log2 - 52) := by
    have := (kept_bounds hrlow).1
    omega
  refine ⟨hpos, hrlow, ?_⟩
  have hsecond := shiftToTargetExponent_normal (e := e + (m.log2 - 52 : Nat)) hrlow (by omega)
  have hmantissa := (cut_shiftRight r (r.log2 - 52)).mantissa
  subst hr
  rw [roundWithAccuracy, shiftToTargetExponent_normal hm he]
  change (match shiftToTargetExponent .binary64 _ (e + (m.log2 - 52 : Nat)) .exact with
    | (em, e) => if h : em.mantissa = 0 then UnpackedFloat.zero s
      else .finite s em.mantissa e (Nat.pos_of_ne_zero h)) = _
  rw [hsecond]
  exact (dif_neg (hmantissa ▸ Nat.ne_of_gt hpos)).trans (finite_congr _ hmantissa rfl)

theorem round_bounded {m : Nat} {e : Int} (hm : 2 ^ 52 ≤ m) (he : -1074 ≤ e) (s : Sign) :
    ∃ (kept shift : Nat) (h : 0 < kept),
      roundWithAccuracy .binary64 s m e .exact = .finite s kept (e + shift) h ∧
      2 ^ 52 ≤ kept ∧ kept < 2 ^ 53 ∧ 2 * (kept * 2 ^ shift) ≤ 2 * m + 2 ^ (m.log2 - 52) := by
  obtain ⟨r, hr⟩ : ∃ r, ((⟨m, false, false⟩ : ExtendedMantissa) >>>
      (m.log2 - 52)).roundedMantissa = r := ⟨_, rfl⟩
  obtain ⟨hpos, hrlow, heq⟩ := roundWithAccuracy_eq hm he s hr
  obtain ⟨hlow, hhigh⟩ := kept_bounds hrlow
  refine ⟨_, (m.log2 - 52) + (r.log2 - 52), hpos, ?_, hlow, hhigh, ?_⟩
  · rw [heq]
    exact finite_congr _ rfl (by omega)
  · have hbound := (cut_shiftRight m (m.log2 - 52)).rounded_le
    rw [hr] at hbound
    have hdiv : r / 2 ^ (r.log2 - 52) * 2 ^ (r.log2 - 52) ≤ r := Nat.div_mul_le_self _ _
    have hscaled := Nat.mul_le_mul_right (2 ^ (m.log2 - 52)) hdiv
    have hpow : r / 2 ^ (r.log2 - 52) * 2 ^ (m.log2 - 52 + (r.log2 - 52)) =
        r / 2 ^ (r.log2 - 52) * 2 ^ (r.log2 - 52) * 2 ^ (m.log2 - 52) := by
      rw [Nat.add_comm, Nat.pow_add, Nat.mul_assoc]
    rw [hpow]
    omega

theorem round_exact {m : Nat} {e : Int} (hlow : 2 ^ 52 ≤ m) (hhigh : m < 2 ^ 53) (n : Nat)
    (he : -1074 ≤ e) (s : Sign) : roundWithAccuracy .binary64 s (m * 2 ^ n) e .exact =
      .finite s m (e + n) (by omega) := by
  have hpos : 0 < 2 ^ n := Nat.pow_pos (by decide)
  have hlog : (m * 2 ^ n).log2 - 52 = n := by
    have hl : 2 ^ (52 + n) ≤ m * 2 ^ n := by
      rw [Nat.pow_add]
      exact Nat.mul_le_mul_right _ hlow
    have hh : m * 2 ^ n < 2 ^ (52 + n + 1) := by
      rw [show 52 + n + 1 = 53 + n by omega, Nat.pow_add]
      exact Nat.mul_lt_mul_of_pos_right hhigh hpos
    have := log2_eq hl hh
    omega
  have hm : 2 ^ 52 ≤ m * 2 ^ n := Nat.le_trans hlow (Nat.le_mul_of_pos_right m hpos)
  have hr : ((⟨m * 2 ^ n, false, false⟩ : ExtendedMantissa) >>>
      ((m * 2 ^ n).log2 - 52)).roundedMantissa = m := by
    rw [hlog, (cut_shiftRight (m * 2 ^ n) n).rounded_exact (by simp), Nat.mul_div_cancel m hpos]
  obtain ⟨_, _, heq⟩ := roundWithAccuracy_eq hm he s hr
  have hmlog : m.log2 - 52 = 0 := by
    have := log2_eq hlow hhigh
    omega
  rw [heq]
  exact finite_congr _ (by rw [hmlog, Nat.pow_zero, Nat.div_one]) (by omega)

theorem unpackSign_stored (s : Sign) (e : BitVec 11) (m : BitVec 52) :
    Sign.ofBitVec (unpackSign (packComponents .binary64 s e m)) = s := by
  have hsign : unpackSign (packComponents .binary64 s e m) = s.toBitVec := by
    ext i hi
    change ((s.toBitVec ++ e ++ m).extractLsb 63 63)[i] = s.toBitVec[i]
    rw [BitVec.getElem_extract, BitVec.getLsbD_append, BitVec.getLsbD_append, if_neg (by omega),
      if_neg (by omega), ← BitVec.getLsbD_eq_getElem]
    congr 1
    omega
  rw [hsign]
  cases s <;> rfl

/-- The leading digit is not stored. -/
theorem toNat_leading {m : Nat} (hlow : 2 ^ 52 ≤ m) (hhigh : m < 2 ^ 53) :
    (1#1 ++ BitVec.ofNat 52 m).toNat = m := by
  have hmod : m % 2 ^ 52 < 2 ^ 52 := Nat.mod_lt _ (by decide)
  rw [BitVec.toNat_append, BitVec.toNat_ofNat, BitVec.toNat_ofNat,
    ← Nat.shiftLeft_add_eq_or_of_lt hmod, Nat.shiftLeft_eq]
  omega

/-- The exponent is stored from 1 to 2046 above -1075. -/
theorem pack_stored {m biased : Nat} {e : Int} (hlow : 2 ^ 52 ≤ m) (hhigh : m < 2 ^ 53)
    (hbiased : e + 1075 = biased) (hmax : biased ≤ 2046) (s : Sign) (h : 0 < m) :
    UnpackedFloat.pack .binary64 (.finite s m e h) =
      packComponents .binary64 s (.ofNat 11 biased) (.ofNat 52 m) := by
  have hto : (e + (1023 : Nat) + (52 : Nat)).toNat = biased := by omega
  have hlog : m.log2 + 1 = 53 := by rw [log2_eq hlow hhigh]
  change (if 2 ^ 11 ≤ (e + (1023 : Nat) + (52 : Nat)).toNat + 1 then packedInfinity .binary64 s
    else if m.log2 + 1 = 53 then
      packComponents .binary64 s (.ofNat 11 (e + (1023 : Nat) + (52 : Nat)).toNat) (.ofNat 52 m)
    else packComponents .binary64 s 0#11 (.ofNat 52 m)) = _
  rw [hto, if_neg (by omega), if_pos hlog]

theorem leading_le (m : BitVec 52) : 2 ^ 52 ≤ (1#1 ++ m).toNat := by
  rw [BitVec.toNat_append]
  exact Nat.left_le_or

theorem leading_pos (m : BitVec 52) : 0 < (1#1 ++ m).toNat :=
  Nat.lt_of_lt_of_le (by decide) (leading_le m)

/-- An exponent of ones only is for what is no number, one of zeros only for what lacks the leading
digit. -/
theorem unpack_parts (b : BitVec Format.binary64.numBits) : UnpackedFloat.unpack .binary64 b =
    if unpackExponent b = -1#11 then
      if unpackMantissa b = 0#52 then .infinity (Sign.ofBitVec (unpackSign b)) else .notANumber
    else if unpackExponent b = 0#11 then
      if h : unpackMantissa b = 0#52 then .zero (Sign.ofBitVec (unpackSign b))
      else .finite (Sign.ofBitVec (unpackSign b)) (unpackMantissa b).toNat
        ((unpackExponent b).toNat - ((1023 : Nat) + (52 : Nat)) + 1)
        (BitVec.toNat_pos_of_ne_zero h)
    else .finite (Sign.ofBitVec (unpackSign b)) (1#1 ++ unpackMantissa b).toNat
      ((unpackExponent b).toNat - ((1023 : Nat) + (52 : Nat))) (leading_pos _) := rfl

/-- A number of 53 digits within the range of exponents is stored as it is. -/
theorem unpack_pack {m : Nat} {e : Int} (hlow : 2 ^ 52 ≤ m) (hhigh : m < 2 ^ 53) (he : -1074 ≤ e)
    (he' : e ≤ 971) (s : Sign) (h : 0 < m) :
    (Float.Model.pack (.finite s m e h)).unpack = .finite s m e h := by
  obtain ⟨biased, hbiased⟩ := Int.eq_ofNat_of_zero_le (a := e + 1075) (by omega)
  have hinf : BitVec.ofNat 11 biased ≠ -1#11 := by
    intro heq
    have hto : biased % 2 ^ 11 = 2047 := congrArg BitVec.toNat heq
    omega
  have hzero : BitVec.ofNat 11 biased ≠ 0#11 := by
    intro heq
    have hto : biased % 2 ^ 11 = 0 := congrArg BitVec.toNat heq
    omega
  have hexponent : ((BitVec.ofNat 11 biased).toNat : Int) - ((1023 : Nat) + (52 : Nat)) = e := by
    rw [BitVec.toNat_ofNat]
    omega
  change UnpackedFloat.unpack .binary64 (UnpackedFloat.pack .binary64 (.finite s m e h)) = _
  rw [pack_stored hlow hhigh hbiased (by omega)]
  rw [unpack_parts, unpackExponent_packComponents, if_neg hinf, if_neg hzero]
  rw [finite_congr _ (by rw [unpackMantissa_packComponents, toNat_leading hlow hhigh]) hexponent]
  rw [unpackSign_stored]

/-- Nothing that is stored has more than 53 digits or an exponent out of range, and only at the least
exponent may the leading digit be missing. -/
theorem unpack_ranges {x : Float.Model} {s : Sign} {m : Nat} {e : Int} {h : 0 < m}
    (hu : x.unpack = .finite s m e h) :
    m < 2 ^ 53 ∧ e ≤ 971 ∧ (2 ^ 52 ≤ m ∨ e = -1074) := by
  generalize hb : x.toBits.toBitVec = b
  have hm : (@unpackMantissa .binary64 b).toNat < 2 ^ 52 := BitVec.isLt _
  have hm' : (1#1 ++ @unpackMantissa .binary64 b).toNat < 2 ^ 53 := BitVec.isLt _
  have hlead := leading_le (@unpackMantissa .binary64 b)
  have he : (@unpackExponent .binary64 b).toNat < 2 ^ 11 := BitVec.isLt _
  have hparts : UnpackedFloat.unpack .binary64 b = .finite s m e h := hb ▸ hu
  rw [unpack_parts] at hparts
  by_cases hinf : @unpackExponent .binary64 b = -1#11
  · rw [if_pos hinf] at hparts
    by_cases hzero : @unpackMantissa .binary64 b = 0#52
    · rw [if_pos hzero] at hparts
      cases hparts
    · rw [if_neg hzero] at hparts
      cases hparts
  · have hinf' : (@unpackExponent .binary64 b).toNat ≠ 2047 :=
      fun heq => hinf (BitVec.eq_of_toNat_eq heq)
    rw [if_neg hinf] at hparts
    by_cases hsmall : @unpackExponent .binary64 b = 0#11
    · have hsmall' : (@unpackExponent .binary64 b).toNat = 0 := by
        rw [hsmall]
        rfl
      rw [if_pos hsmall] at hparts
      by_cases hzero : @unpackMantissa .binary64 b = 0#52
      · rw [dif_pos hzero] at hparts
        cases hparts
      · rw [dif_neg hzero] at hparts
        cases hparts
        omega
    · rw [if_neg hsmall] at hparts
      cases hparts
      omega

theorem unpack_bounds {x : Float.Model} {s : Sign} {m : Nat} {e : Int} {h : 0 < m}
    (hu : x.unpack = .finite s m e h) : m < 2 ^ 53 ∧ e ≤ 971 :=
  ⟨(unpack_ranges hu).1, (unpack_ranges hu).2.1⟩

end Binary64

end Gamebook
