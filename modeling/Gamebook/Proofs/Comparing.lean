import Gamebook.Condition
import Gamebook.Proofs.Decimal.Order

namespace Gamebook

namespace Value

def isText : Value → Bool
  | text _ => true
  | _ => false

/-- Where the number of a value stands. -/
def place? (v : Value) : Option Binary64.Rank := v.number?.bind Binary64.place?

/-- A value without a place has no number, or one that is none. -/
theorem place?_eq_none_iff (v : Value) : v.place? = none ↔ v.number?.all Float.isNaN = true := by
  unfold place?
  cases v.number? with
  | none => simp
  | some x => exact Binary64.place?_eq_none_iff x

theorem order?_of_mixed {a b : Value} (h : ¬(a.isText = true ∧ b.isText = true)) :
    a.order? b = compare? a.place? b.place? := by
  have hnumbers : a.order? b =
      a.number?.bind fun x => b.number?.bind fun y => x.toModel.compare y.toModel := by
    cases a with
    | flag | number => rfl
    | text s =>
      cases b with
      | text t => exact absurd ⟨rfl, rfl⟩ h
      | flag | number => rfl
  rw [hnumbers, place?, place?]
  cases a.number? with
  | none => rfl
  | some x =>
    cases b.number? with
    | none => exact (compare?_eq_none_iff.mpr (.inr rfl)).symm
    | some y => exact Binary64.compare_places x y

/-- Two texts are compared as such, all else by place. -/
theorem texts_or_mixed (a b : Value) :
    (∃ s t, a = text s ∧ b = text t) ∨ ¬(a.isText = true ∧ b.isText = true) := by
  cases a with
  | text s =>
    cases b with
    | text t => exact .inl ⟨s, t, rfl, rfl⟩
    | flag | number => exact .inr fun h => Bool.noConfusion h.2
  | flag | number => exact .inr fun h => Bool.noConfusion h.1

theorem order?_swap (a b : Value) : b.order? a = (a.order? b).map Ordering.swap := by
  rcases texts_or_mixed a b with ⟨s, t, rfl, rfl⟩ | h
  · exact congrArg some Std.OrientedOrd.eq_swap
  · rw [order?_of_mixed h, order?_of_mixed fun h' => h h'.symm]
    exact compare?_swap _ _

theorem order?_eq_none_iff (a b : Value) : a.order? b = none ↔
    ¬(a.isText = true ∧ b.isText = true) ∧
      (a.number?.all Float.isNaN = true ∨ b.number?.all Float.isNaN = true) := by
  rcases texts_or_mixed a b with ⟨s, t, rfl, rfl⟩ | h
  · simp [order?, isText]
  · rw [order?_of_mixed h, compare?_eq_none_iff, place?_eq_none_iff, place?_eq_none_iff]
    exact (and_iff_right h).symm

theorem order?_of_same {a b : Value} (h : a.same b = true) : a.order? b = some .eq := by
  cases a with
  | flag x =>
    cases b with
    | flag y =>
      obtain rfl : x = y := beq_iff_eq.mp h
      cases x <;> decide
    | number | text => cases h
  | number x =>
    cases b with
    | number y => exact (Binary64.compare_places x y).trans ((Binary64.beq_iff x y).mp h)
    | flag | text => cases h
  | text s =>
    cases b with
    | text t =>
      obtain rfl : s = t := beq_iff_eq.mp h
      exact congrArg some Std.ReflOrd.compare_self
    | flag | number => cases h

theorem order?_lt_trans {a b c : Value} (htexts : [a, b, c].countP isText ≤ 1)
    (hab : a.order? b = some .lt) (hbc : b.order? c = some .lt) : a.order? c = some .lt := by
  have hpairs : ¬(a.isText = true ∧ b.isText = true) ∧ ¬(b.isText = true ∧ c.isText = true) ∧
      ¬(a.isText = true ∧ c.isText = true) := by
    cases ha : a.isText <;> cases hb : b.isText <;> cases hc : c.isText <;>
      simp_all
  obtain ⟨hfirst, hsecond, houter⟩ := hpairs
  rw [order?_of_mixed hfirst] at hab
  rw [order?_of_mixed hsecond] at hbc
  rw [order?_of_mixed houter]
  exact compare?_lt_of_lt_of_isLE hab hbc rfl

end Value

theorem orderOf?_of_unset {a b : Option Value} (h : a = none ∨ b = none) : orderOf? a b = none := by
  rcases h with rfl | rfl
  · rfl
  · cases a <;> rfl

theorem orderOf?_swap (a b : Option Value) :
    orderOf? b a = (orderOf? a b).map Ordering.swap := by
  cases a with
  | none => rw [orderOf?_of_unset (.inr rfl), orderOf?_of_unset (.inl rfl)]; rfl
  | some x =>
    cases b with
    | none => rw [orderOf?_of_unset (.inr rfl), orderOf?_of_unset (.inl rfl)]; rfl
    | some y => exact x.order?_swap y

namespace Comparison

variable {a b : Option Value}

theorem below_eq_above (a b : Option Value) : below.holds a b = above.holds b a := by
  simp only [holds]
  rw [orderOf?_swap a b]
  cases orderOf? a b with
  | none => rfl
  | some o => cases o <;> rfl

theorem atMost_eq_atLeast (a b : Option Value) : atMost.holds a b = atLeast.holds b a := by
  simp only [holds]
  rw [orderOf?_swap a b]
  cases orderOf? a b with
  | none => rfl
  | some o => cases o <;> rfl

theorem below_iff : below.holds a b = true ↔ orderOf? a b = some .lt := by
  simp only [holds]
  cases orderOf? a b with
  | none => simp
  | some o => cases o <;> simp

/-- Things that have an order are in one of three cases. -/
theorem trichotomy {o : Ordering} (h : orderOf? a b = some o) :
    let level := atMost.holds a b && atLeast.holds a b
    [below.holds a b, above.holds a b, level].count true = 1 ∧
      atMost.holds a b = (below.holds a b || level) ∧
      atLeast.holds a b = (above.holds a b || level) := by
  simp only [holds, h]
  cases o <;> decide

theorem unordered (h : orderOf? a b = none) :
    below.holds a b = false ∧ above.holds a b = false ∧ atMost.holds a b = false ∧
      atLeast.holds a b = false := by
  simp [holds, h]

theorem level_of_equal {x y : Value} (h : equal.holds (some x) (some y) = true) :
    orderOf? (some x) (some y) = some .eq := Value.order?_of_same h

/-- The comparisons agree with each other. What is different is what is not equal; each order is the other one
with the sides exchanged; where there is an order, one of the three cases holds, and where there is none no
ordering comparison does. Equal values are level, and unless texts meet it is a chain. -/
theorem comparisons_agree :
    (∀ a b : Option Value,
      different.holds a b = !equal.holds a b ∧
      below.holds a b = above.holds b a ∧ atMost.holds a b = atLeast.holds b a ∧
      (∀ o, orderOf? a b = some o →
        let level := atMost.holds a b && atLeast.holds a b
        [below.holds a b, above.holds a b, level].count true = 1 ∧
          atMost.holds a b = (below.holds a b || level) ∧
          atLeast.holds a b = (above.holds a b || level)) ∧
      (a = none ∨ b = none ∨ orderOf? a b = none →
        below.holds a b = false ∧ above.holds a b = false ∧ atMost.holds a b = false ∧
          atLeast.holds a b = false)) ∧
    (∀ a b : Value,
      b.order? a = (a.order? b).map Ordering.swap ∧
      (a.order? b = none ↔ ¬(a.isText = true ∧ b.isText = true) ∧
        (a.number?.all Float.isNaN = true ∨ b.number?.all Float.isNaN = true)) ∧
      (equal.holds (some a) (some b) = true →
        atMost.holds (some a) (some b) = true ∧ atLeast.holds (some a) (some b) = true) ∧
      (below.holds (some a) (some b) = true ∨ above.holds (some a) (some b) = true →
        different.holds (some a) (some b) = true)) ∧
    ∀ a b c : Value, [a, b, c].countP Value.isText ≤ 1 → below.holds (some a) (some b) = true →
      below.holds (some b) (some c) = true → below.holds (some a) (some c) = true := by
  refine ⟨fun a b => ?_, fun a b => ?_, fun a b c htexts hab hbc => ?_⟩
  · refine ⟨rfl, below_eq_above a b, atMost_eq_atLeast a b, fun _ => trichotomy, ?_⟩
    rintro (hleft | hright | hnone)
    · exact unordered (orderOf?_of_unset (.inl hleft))
    · exact unordered (orderOf?_of_unset (.inr hright))
    · exact unordered hnone
  · refine ⟨a.order?_swap b, a.order?_eq_none_iff b, fun h => ?_, fun h => ?_⟩
    · simp [holds, level_of_equal h]
    · cases hequal : equal.holds (some a) (some b) with
      | false => exact congrArg not hequal
      | true =>
        have hlevel := level_of_equal hequal
        simp [holds, hlevel] at h
  · exact below_iff.mpr (Value.order?_lt_trans htexts (below_iff.mp hab) (below_iff.mp hbc))

/-- A true flag is lighter than one and a half, and so than ninety; the zeros are level; text compared with text is
not read as a number; and nothing is above or below what is no number. -/
theorem comparisons_agree_weights :
    (below.holds (some (.flag true)) (some (.text " 1.5")) = true ∧
      below.holds (some (.text " 1.5")) (some (.number 90)) = true ∧
      below.holds (some (.flag true)) (some (.number 90)) = true) ∧
    (equal.holds (some (.number 0)) (some (.number (-0))) = true ∧
      atMost.holds (some (.number 0)) (some (.number (-0))) = true) ∧
    (above.holds (some (.text "9")) (some (.text "10")) = true ∧
      different.holds (some (.text "9")) (some (.text "10")) = true) ∧
    (orderOf? (some (.text "NaN")) (some (.number 1)) = none ∧
      atMost.holds (some (.text "NaN")) (some (.number 1)) = false) := by
  obtain ⟨hpairs, hvalues, hchain⟩ := comparisons_agree
  have hflag : below.holds (some (.flag true)) (some (.text " 1.5")) = true := by decide +kernel
  have htext : below.holds (some (.text " 1.5")) (some (.number 90)) = true := by decide +kernel
  have hzeros : equal.holds (some (.number 0)) (some (.number (-0))) = true := by decide +kernel
  have htexts : above.holds (some (.text "9")) (some (.text "10")) = true := by decide +kernel
  have hnone : orderOf? (some (.text "NaN")) (some (.number 1)) = none := by decide +kernel
  exact ⟨⟨hflag, htext, hchain _ _ _ (by decide) hflag htext⟩,
    ⟨hzeros, ((hvalues _ _).2.2.1 hzeros).1⟩, ⟨htexts, (hvalues _ _).2.2.2 (.inr htexts)⟩,
    hnone, ((hpairs _ _).2.2.2.2 (.inr (.inr hnone))).2.2.1⟩

end Comparison

end Gamebook
