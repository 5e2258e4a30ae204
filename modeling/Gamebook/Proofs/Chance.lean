import Gamebook.Playthrough
import Gamebook.Proofs.Decimal.Order
import Gamebook.Proofs.Decimal.Rounding

namespace Gamebook

open Float.Model (UnpackedFloat)

namespace Binary64

theorem unpack_zero : (0 : Float).toModel.unpack = .zero .positive := rfl

theorem unpack_one :
    (1 : Float).toModel.unpack = .finite .positive (2 ^ 52) (-52) (by decide) := rfl

end Binary64

theorem pointsBelow_of_not_pos {p : Float} (h : ¬0 < p) : pointsBelow p = 0 := by
  rw [Binary64.lt_iff_compare, Binary64.unpack_zero] at h
  unfold pointsBelow
  cases hu : p.toModel.unpack with
  | notANumber => rfl
  | zero s => rfl
  | infinity s =>
    rw [hu] at h
    cases s with
    | negative => rfl
    | positive => exact absurd rfl h
  | finite s m e hm =>
    rw [hu] at h
    cases s with
    | negative => rfl
    | positive => exact absurd rfl h

/-- From one on, a number has 53 digits and the last of them is worth `2 ^ -52` or more. -/
theorem points_le_pointsBelow {p : Float} (hpos : 0 < p) (h : ¬p < 1) :
    Generator.points ≤ pointsBelow p := by
  rw [Binary64.lt_iff_compare, Binary64.unpack_zero] at hpos
  rw [Binary64.lt_iff_compare, Binary64.unpack_one] at h
  unfold pointsBelow
  cases hu : p.toModel.unpack with
  | notANumber => rw [hu] at hpos; cases hpos
  | zero s => rw [hu] at hpos; cases hpos
  | infinity s =>
    rw [hu] at hpos
    cases s with
    | negative => cases hpos
    | positive => exact Nat.le_refl _
  | finite s m e hm =>
    rw [hu] at hpos h
    cases s with
    | negative => cases hpos
    | positive =>
      obtain ⟨-, -, hlead⟩ := Binary64.unpack_ranges hu
      change ¬some ((compare e (-52)).then (compare m (2 ^ 52))) = some .lt at h
      simp only [Option.some.injEq, Ordering.then_eq_lt, Int.compare_eq_lt, Int.compare_eq_eq,
        Nat.compare_eq_lt] at h
      have he : -52 ≤ e := by omega
      have hm : 2 ^ 52 ≤ m := by omega
      have hpow : Nat.pow 2 1 ≤ Nat.pow 2 (e + 53).toNat :=
        Nat.pow_le_pow_right (by decide) (by omega)
      change Generator.points ≤ if 0 ≤ e + 53 then m * Nat.pow 2 (e + 53).toNat else _
      rw [if_pos (by omega)]
      exact Nat.mul_le_mul hm hpow

namespace Generator

theorem succeeds_of_not_pos {p : Float} (h : ¬0 < p) (g : Generator) :
    (g.succeeds p).1 = false := by
  simp [succeeds, pointsBelow_of_not_pos h]

theorem succeeds_of_one_le {p : Float} (hpos : 0 < p) (h : ¬p < 1) (g : Generator) :
    (g.succeeds p).1 = true :=
  decide_eq_true (Nat.lt_of_lt_of_le g.point.1.isLt (points_le_pointsBelow hpos h))

end Generator

/-- A condition that holds with a probability between zero and one. -/
def Condition.IsUncertain : Condition → Prop
  | chance probability =>
    0 < probability.getD evenChance ∧ probability.getD evenChance < 1
  | _ => False

instance : (c : Condition) → Decidable c.IsUncertain
  | .chance _ => inferInstanceAs (Decidable (_ ∧ _))
  | .compares .. | .carries .. | .unlocked .. | .unknown => inferInstanceAs (Decidable False)

def Gates.IsCertain (gates : Gates) : Prop :=
  ∀ c ∈ gates.visible ++ gates.enabled, ¬c.IsUncertain

instance (gates : Gates) : Decidable gates.IsCertain :=
  inferInstanceAs (Decidable (∀ c ∈ _, ¬_))

/-- No gate of the story is left to chance. -/
def Story.IsCertain (s : Story) : Prop :=
  ∀ n ∈ s.nodes.values, ∀ c ∈ n.choices, c.gates.IsCertain

instance (s : Story) : Decidable s.IsCertain :=
  inferInstanceAs (Decidable (∀ n ∈ _, ∀ c ∈ Node.choices n, c.gates.IsCertain))

namespace Condition

theorem evaluate_fst {c : Condition} (h : ¬c.IsUncertain) (p : Progress) (g g' : Generator) :
    (c.evaluate p g).1 = (c.evaluate p g').1 := by
  cases c with
  | chance probability =>
    simp only [evaluate]
    generalize hq : probability.getD evenChance = q
    simp only [IsUncertain, hq, not_and] at h
    by_cases hpos : 0 < q
    · rw [Generator.succeeds_of_one_le hpos (h hpos), Generator.succeeds_of_one_le hpos (h hpos)]
    · rw [Generator.succeeds_of_not_pos hpos, Generator.succeeds_of_not_pos hpos]
  | carries operator item => cases operator <;> rfl
  | _ => rfl

theorem evaluateAll_cons_fst (c : Condition) (cs : List Condition) (p : Progress) (g : Generator) :
    (evaluateAll (c :: cs) p g).1 =
      ((c.evaluate p g).1 && (evaluateAll cs p (c.evaluate p g).2).1) := by
  rw [evaluateAll]
  split
  next h => simp [h]
  next h => simp [h]

theorem evaluateAll_fst {cs : List Condition} (h : ∀ c ∈ cs, ¬c.IsUncertain) (p : Progress)
    (g g' : Generator) : (evaluateAll cs p g).1 = (evaluateAll cs p g').1 := by
  induction cs generalizing g g' with
  | nil => rfl
  | cons c cs ih =>
    have htail := fun d hd => h d (List.mem_cons_of_mem c hd)
    rw [evaluateAll_cons_fst, evaluateAll_cons_fst, evaluate_fst (h c (by simp)) p g g',
      ih htail (c.evaluate p g).2 (c.evaluate p g').2]

end Condition

namespace Playthrough

theorem gatesPass_fst_eq (gates : Gates) (p : Progress) (g : Generator) :
    (gatesPass gates p g).1 = ((Condition.evaluateAll gates.visible p g).1 &&
      (Condition.evaluateAll gates.enabled p (Condition.evaluateAll gates.visible p g).2).1) := by
  unfold gatesPass
  split
  next h => simp [h]
  next h => simp [h]

theorem gatesPass_fst {gates : Gates} (h : gates.IsCertain) (p : Progress) (g g' : Generator) :
    (gatesPass gates p g).1 = (gatesPass gates p g').1 := by
  have hvisible := Condition.evaluateAll_fst
    (fun c hc => h c (List.mem_append_left gates.enabled hc)) p
  have henabled := Condition.evaluateAll_fst
    (fun c hc => h c (List.mem_append_right gates.visible hc)) p
  rw [gatesPass_fst_eq, gatesPass_fst_eq, hvisible g g', henabled]

end Playthrough

end Gamebook
