import Gamebook.Proofs.Decimal.Reading

namespace Gamebook

namespace Decimal

/-- The numeral that a save holds for a positive decimal. -/
def savedNumeral (d : Decimal) : Numeral :=
  let ds := numerals d.digits
  let point := ds.length + d.exponent
  let after := (-d.exponent).toNat
  if -5 < point ∧ point ≤ 16 then
    if 0 ≤ d.exponent then ⟨false, ds ++ zeros d.exponent.toNat, ['0'], none⟩
    else if after < ds.length then
      ⟨false, ds.take (ds.length - after), ds.drop (ds.length - after), none⟩
    else ⟨false, ['0'], zeros (after - ds.length) ++ ds, none⟩
  else ⟨false, ds.take 1, ds.drop 1, some (d.exponent + (ds.length - 1 : ℕ))⟩

theorem saved_eq_written (d : Decimal) : d.saved = d.savedNumeral.written := by
  obtain ⟨c, cs, hcs⟩ := List.exists_cons_of_ne_nil (numerals_ne_nil d.digits)
  unfold saved savedNumeral
  simp only
  split
  next =>
    split
    next hnonneg =>
      have hafter : (-d.exponent).toNat = 0 := by omega
      simp [positional, hafter, Numeral.written, Numeral.unsignedText, Numeral.fractionText,
        Numeral.powerText]
    next hneg =>
      have hafter : (-d.exponent).toNat ≠ 0 := by omega
      unfold positional
      simp only
      rw [if_neg hafter]
      split
      next hlt =>
        have hdrop : (numerals d.digits).drop ((numerals d.digits).length - (-d.exponent).toNat) ≠
            [] := by
          rw [ne_eq, List.drop_eq_nil_iff]
          omega
        simp [Numeral.written, Numeral.unsignedText, Numeral.fractionText, Numeral.powerText, hdrop]
      next hge =>
        simp [Numeral.written, Numeral.unsignedText, Numeral.fractionText, Numeral.powerText, hcs]
  next =>
    simp [scientific, hcs, Numeral.written, Numeral.unsignedText, Numeral.fractionText,
      Numeral.powerText]

/-- How the digits of a decimal are divided among the parts of the numeral. -/
inductive Layout (d : Decimal) : Numeral → Prop
  | whole (he : 0 ≤ d.exponent) (hlength : (numerals d.digits).length + d.exponent ≤ 16) :
    Layout d ⟨false, numerals d.digits ++ zeros d.exponent.toNat, ['0'], none⟩
  | mixed {front back : List Char} (hds : front ++ back = numerals d.digits) (hfront : front ≠ [])
    (hback : back ≠ []) (he : d.exponent = -back.length) (hlength : front.length ≤ 16) :
    Layout d ⟨false, front, back, none⟩
  | fraction {k : ℕ} (he : d.exponent = -(k + (numerals d.digits).length : ℕ)) :
    Layout d ⟨false, ['0'], zeros k ++ numerals d.digits, none⟩
  | scientific {lead : Char} {others : List Char} (hds : numerals d.digits = lead :: others) :
    Layout d ⟨false, [lead], others, some (d.exponent + others.length)⟩

theorem savedNumeral_layout (d : Decimal) : Layout d d.savedNumeral := by
  obtain ⟨c, cs, hcs⟩ := List.exists_cons_of_ne_nil (numerals_ne_nil d.digits)
  unfold savedNumeral
  simp only
  split
  next hpoint =>
    split
    next hnonneg => exact .whole hnonneg hpoint.2
    next hneg =>
      split
      next hlt =>
        refine .mixed (List.take_append_drop _ _) ?_ ?_ ?_ ?_
        · rw [ne_eq, ← List.length_eq_zero_iff, List.length_take]
          omega
        · rw [ne_eq, List.drop_eq_nil_iff]
          omega
        · rw [List.length_drop]
          omega
        · rw [List.length_take]
          omega
      next hge => exact .fraction (by omega)
  next => simpa [hcs] using Layout.scientific hcs

theorem Layout.negative {d : Decimal} {n : Numeral} (h : Layout d n) : n.negative = false := by
  cases h <;> rfl

theorem Layout.proper {d : Decimal} {n : Numeral} (h : Layout d n) (hd : 0 < d.digits) :
    n.Proper := by
  have hds := numerals_allDigits d.digits
  have hhead := numerals_head hd
  have hzeros : ∀ k, AllDigits (zeros k) := fun k c hc => by
    rw [List.eq_of_mem_replicate hc]
    rfl
  cases h with
  | whole he hlength =>
    obtain ⟨c, cs, hcs⟩ := List.exists_cons_of_ne_nil (numerals_ne_nil d.digits)
    have hall : AllDigits (numerals d.digits ++ zeros d.exponent.toNat) := fun c hc =>
      (List.mem_append.mp hc).elim (hds c) (hzeros _ c)
    rw [hcs] at hhead
    simp only [hcs, List.cons_append] at hall ⊢
    exact ⟨.leading (by simpa using hhead) hall, by simp [AllDigits]⟩
  | @mixed front back hfb hfront hback he hlength =>
    obtain ⟨c, cs, rfl⟩ := List.exists_cons_of_ne_nil hfront
    rw [← hfb] at hhead hds
    exact ⟨.leading (by simpa using hhead) fun c hc => hds c (List.mem_append_left _ hc),
      fun c hc => hds c (List.mem_append_right _ hc)⟩
  | fraction he =>
    exact ⟨.zero, fun c hc => (List.mem_append.mp hc).elim (hzeros _ c) (hds c)⟩
  | @scientific lead others hcs =>
    rw [hcs] at hhead hds
    exact ⟨.leading (by simpa using hhead) fun c hc => hds c (by simp_all),
      fun c hc => hds c (List.mem_cons_of_mem _ hc)⟩

theorem Layout.worth {d : Decimal} {n : Numeral} (h : Layout d n) : n.worth = d.worth := by
  have hvalue : Nat.ofDigitChars 10 (numerals d.digits) 0 = d.digits := naturalValue_numerals _
  cases h with
  | whole he hlength =>
    obtain ⟨k, hk⟩ := Int.eq_ofNat_of_zero_le he
    have hdigits : naturalValue ((numerals d.digits ++ zeros k) ++ ['0']) =
        10 * (10 ^ k * d.digits) := by
      change Nat.ofDigitChars 10 ((numerals d.digits ++ zeros k) ++ ['0']) 0 = _
      rw [Nat.ofDigitChars_append, Nat.ofDigitChars_append, hvalue, zeros,
        Nat.ofDigitChars_replicate_zero]
      rfl
    simp only [Numeral.worth, Decimal.worth, hk, Int.toNat_natCast, hdigits]
    push_cast
    simp
    ring
  | @mixed front back hds _ _ he _ =>
    have hdigits : naturalValue (front ++ back) = d.digits := by rw [hds]; exact hvalue
    simp only [Numeral.worth, Decimal.worth, hdigits, he, Option.getD_none, Int.zero_sub]
  | @fraction k he =>
    have hdigits : naturalValue (['0'] ++ (zeros k ++ numerals d.digits)) = d.digits := by
      change Nat.ofDigitChars 10 (zeros k ++ numerals d.digits) 0 = _
      rw [Nat.ofDigitChars_append, zeros, Nat.ofDigitChars_replicate_zero, Nat.mul_zero, hvalue]
    have hlength : (zeros k ++ numerals d.digits).length = k + (numerals d.digits).length := by
      rw [List.length_append, zeros, List.length_replicate]
    simp only [Numeral.worth, Decimal.worth, hdigits, he, Option.getD_none, Int.zero_sub, hlength]
  | @scientific lead others hds =>
    have hdigits : naturalValue ([lead] ++ others) = d.digits := by
      rw [List.singleton_append, ← hds]
      exact hvalue
    simp only [Numeral.worth, Decimal.worth, hdigits, Option.getD_some, Int.add_sub_cancel]

theorem Layout.whole_length {d : Decimal} {n : Numeral} (h : Layout d n) : n.whole.length ≤ 16 := by
  cases h with
  | whole he hlength =>
    simp only [List.length_append, zeros, List.length_replicate]
    omega
  | mixed _ _ _ _ hlength => exact hlength
  | fraction => simp
  | scientific => simp

/-- Always recognisable as a number with a fraction or an exponent. -/
theorem Layout.count? {d : Decimal} {n : Numeral} (h : Layout d n) (negative : Bool) :
    Numeral.count? { n with negative } = none := by
  cases h with
  | whole => simp [Numeral.count?]
  | mixed _ _ hback => simp [Numeral.count?, hback]
  | fraction => simp [Numeral.count?, numerals_ne_nil]
  | scientific => simp [Numeral.count?]

end Decimal

end Gamebook
