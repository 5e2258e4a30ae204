import Gamebook.Proofs.Decimal.Parts

namespace Gamebook

open Float.Model Float.Model.UnpackedFloat

/-- Short of the two greatest numbers. -/
theorem Magnitude.high_worth_le_reach {m : Magnitude} (hm : m.mantissa < 2 ^ 53)
    (he : m.exponent ≤ 971) (h : m.mantissa < 2 ^ 53 - 2 ∨ m.exponent < 971) :
    m.high.worth ≤ Binary64.reach := by
  have hreach : (Binary64.reach : ℚ) = (2 ^ 54 - 5) * 2 ^ (970 : ℤ) := by
    have hunits : ((2 ^ 54 - 5 : ℕ) : ℚ) = 2 ^ 54 - 5 := by norm_num
    rw [Binary64.reach, Nat.cast_mul, hunits, Nat.cast_pow, Nat.cast_ofNat, zpow_ofNat]
  have hpow : ∀ e : ℤ, m.exponent ≤ e + 1 → (2 : ℚ) ^ (m.exponent - 1) ≤ 2 ^ e := fun e he =>
    zpow_le_zpow_right₀ (by norm_num) (by omega)
  have hunit : (0 : ℚ) < 2 ^ (969 : ℤ) := zpow_pos (by norm_num) _
  have hstep : (2 : ℚ) ^ (970 : ℤ) = 2 * 2 ^ (969 : ℤ) := by
    rw [show (970 : ℤ) = 969 + 1 by decide, zpow_add_one₀ (by norm_num)]
    ring
  rw [Magnitude.high_worth, hreach]
  rcases h with hlt | hlt
  · have hm' : (m.mantissa : ℚ) ≤ 2 ^ 53 - 3 := by
      have : ((m.mantissa + 3 : ℕ) : ℚ) ≤ (2 ^ 53 : ℕ) := Nat.cast_le.mpr (by omega)
      push_cast at this
      linarith
    exact mul_le_mul (by linarith) (hpow 970 (by omega)) (zpow_nonneg (by norm_num) _) (by norm_num)
  · have hm' : (m.mantissa : ℚ) ≤ 2 ^ 53 - 1 := by
      have : ((m.mantissa + 1 : ℕ) : ℚ) ≤ (2 ^ 53 : ℕ) := Nat.cast_le.mpr (by omega)
      push_cast at this
      linarith
    have hle := mul_le_mul (show (2 * m.mantissa + 1 : ℚ) ≤ 2 ^ 54 - 1 by linarith)
      (hpow 969 (by omega)) (zpow_nonneg (by norm_num) _) (by norm_num)
    rw [hstep]
    generalize (2 : ℚ) ^ (969 : ℤ) = unit at hunit hle
    linarith only [hle, hunit]

/-- The shortest decimals of the two greatest numbers are read back just below the limit. -/
theorem Magnitude.greatest_scaled? {m : ℕ} (hlow : 2 ^ 53 - 2 ≤ m) (hhigh : m < 2 ^ 53) :
    (Magnitude.shortest ⟨m, 971⟩ .even).savedNumeral.scaled?.isSome = true := by
  have hread : ∀ digits ∈ [17976931348623155, 17976931348623157],
      Numeral.absorb 0 (Decimal.savedNumeral ⟨digits, 292⟩).whole = (1, []) ∧
      Numeral.absorb 1 (Decimal.savedNumeral ⟨digits, 292⟩).fraction = (digits, []) ∧
      (Decimal.savedNumeral ⟨digits, 292⟩).power = some 308 ∧
      (Decimal.savedNumeral ⟨digits, 292⟩).fraction.length = 16 ∧
      (Float.ofNat digits * Numeral.powerOfTen 292).isInf = false := by
    decide +kernel
  have hshortest : ∃ digits ∈ [17976931348623155, 17976931348623157],
      Magnitude.shortest ⟨m, 971⟩ .even = ⟨digits, 292⟩ := by
    have hm : m = 2 ^ 53 - 2 ∨ m = 2 ^ 53 - 1 := by omega
    rcases hm with rfl | rfl <;> decide +kernel
  obtain ⟨digits, hmem, heq⟩ := hshortest
  obtain ⟨hwhole, hfraction, hpower, hlength, hinf⟩ := hread digits hmem
  rw [heq, Numeral.scaled?_isSome_eq hwhole hfraction, hpower, hlength]
  exact Numeral.scale?_of_finite (by decide) hinf

theorem Magnitude.shortest_scaled? {m : Magnitude} (hpos : 0 < m.mantissa)
    (hm : m.mantissa < 2 ^ 53) (he : m.exponent ≤ 971) :
    (m.shortest .even).savedNumeral.scaled?.isSome = true := by
  by_cases hgreatest : 2 ^ 53 - 2 ≤ m.mantissa ∧ m.exponent = 971
  · have := greatest_scaled? hgreatest.1 hm
    rwa [← hgreatest.2] at this
  · obtain ⟨hdigits, _, hhigh⟩ := shortest_between hpos .even
    have hlayout := (m.shortest .even).savedNumeral_layout
    have hreach := hhigh.trans (high_worth_le_reach hm he (by omega))
    refine Numeral.scaled?_isSome ?_ ?_ (by rwa [hlayout.worth])
    · have hlt := Numeral.naturalValue_lt (hlayout.proper hdigits).whole.allDigits
      have hpow := Nat.pow_le_pow_right (show 0 < 10 by decide) hlayout.whole_length
      omega
    · have hworth : 0 < (m.shortest .even).worth :=
        mul_pos (Nat.cast_pos.mpr hdigits) (zpow_pos (by norm_num) _)
      rw [← hlayout.worth] at hworth
      rcases Nat.eq_zero_or_pos (naturalValue ((m.shortest .even).savedNumeral.whole ++
        (m.shortest .even).savedNumeral.fraction)) with hzero | hpos
      · simp [Numeral.worth, hzero] at hworth
      · exact hpos

/-- The numeral that a save holds for a number, if it is finite. -/
def savedNumeral? (x : Float) : Option Numeral :=
  match x.toModel.unpack with
  | .notANumber | .infinity _ => none
  | .zero s => some ⟨s == .negative, ['0'], ['0'], none⟩
  | .finite s m e _ =>
    some { (Magnitude.shortest ⟨m, e⟩ .even).savedNumeral with negative := s == .negative }

theorem savedNumeral?_isSome_iff (x : Float) : (savedNumeral? x).isSome = x.isFinite := by
  unfold savedNumeral? Float.isFinite Float.Model.isFinite UnpackedFloat.isFinite
  cases x.toModel.unpack <;> rfl

theorem savedText?_eq_written (x : Float) :
    savedText? x = (savedNumeral? x).map Numeral.written := by
  unfold savedText? savedNumeral?
  cases x.toModel.unpack with
  | notANumber => rfl
  | infinity => rfl
  | zero s => cases s <;> rfl
  | finite s m e h =>
    have hplain := (Magnitude.shortest ⟨m, e⟩ .even).savedNumeral_layout.negative
    simp only [Decimal.saved_eq_written, Option.map_some, Option.some.injEq]
    generalize (Magnitude.shortest ⟨m, e⟩ .even).savedNumeral = n at hplain
    simp only [Numeral.written, hplain]
    cases s <;> rfl

theorem savedNumeral?_reads {x : Float} {n : Numeral} (h : savedNumeral? x = some n) :
    n.Proper ∧ n.count? = none ∧ n.scaled?.isSome = true := by
  unfold savedNumeral? at h
  split at h
  next => simp at h
  next => simp at h
  next s _ =>
    cases Option.some.inj h
    refine ⟨⟨.zero, by simp [AllDigits]⟩, by simp [Numeral.count?], ?_⟩
    rw [@Numeral.scaled?_isSome_eq _ 0 0 [] [] rfl rfl]
    exact Numeral.scale?_isSome_of_neg _ (by simp)
  next s m e hpos hu =>
    cases Option.some.inj h
    obtain ⟨hm, he⟩ := Binary64.unpack_bounds hu
    have hdigits := (Magnitude.shortest_between (m := ⟨m, e⟩) hpos .even).1
    have hlayout := (Magnitude.shortest ⟨m, e⟩ .even).savedNumeral_layout
    have hproper := hlayout.proper hdigits
    have hscaled := Magnitude.shortest_scaled? (m := ⟨m, e⟩) hpos hm he
    have hcount := hlayout.count? (s == .negative)
    generalize (Magnitude.shortest ⟨m, e⟩ .even).savedNumeral = n at *
    refine ⟨⟨hproper.whole, hproper.fraction⟩, hcount, ?_⟩
    rwa [Numeral.scaled?, Option.isSome_map] at hscaled ⊢

end Gamebook
