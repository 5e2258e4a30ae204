import Mathlib.Data.Prod.Lex
import Mathlib.Algebra.Order.Ring.Int

namespace Gamebook

/-- Two things in an order, if they both are there. -/
def compare? {α : Type} [Ord α] (a b : Option α) : Option Ordering := do return compare (← a) (← b)

section Compare

variable {α : Type} [Ord α] {a b c : Option α}

theorem compare?_eq_none_iff : compare? a b = none ↔ a = none ∨ b = none := by
  cases a <;> cases b <;> simp [compare?]

theorem compare?_eq_some_iff {o : Ordering} :
    compare? a b = some o ↔ ∃ x ∈ a, ∃ y ∈ b, compare x y = o := by
  cases a <;> cases b <;> simp [compare?]

theorem compare?_swap [Std.OrientedOrd α] (a b : Option α) :
    compare? b a = (compare? a b).map Ordering.swap := by
  cases a with
  | none => cases b <;> rfl
  | some x =>
    cases b with
    | none => rfl
    | some y => exact congrArg some Std.OrientedOrd.eq_swap

theorem compare?_lt_of_lt_of_isLE [Std.TransOrd α] {o : Ordering} (hab : compare? a b = some .lt)
    (hbc : compare? b c = some o) (ho : o.isLE = true) : compare? a c = some .lt := by
  obtain ⟨x, hx, y, hy, hxy⟩ := compare?_eq_some_iff.mp hab
  obtain ⟨y', hy', z, hz, rfl⟩ := compare?_eq_some_iff.mp hbc
  obtain rfl := Option.mem_unique hy hy'
  exact compare?_eq_some_iff.mpr ⟨x, hx, z, hz, Std.TransCmp.lt_of_lt_of_isLE hxy ho⟩

end Compare

namespace Binary64

open Float.Model (UnpackedFloat)

/-- The side of zero on which a number lies, then its exponent and its digits. -/
abbrev Rank := ℤ ×ₗ ℤ ×ₗ ℤ

def rankOf (side exponent digits : ℤ) : Rank := toLex (side, toLex (exponent, digits))

/-- Below zero larger exponents and digits come first. The infinities lie outside of all numbers. -/
def rank? : UnpackedFloat → Option Rank
  | .notANumber => none
  | .infinity .negative => some (rankOf (-2) 0 0)
  | .finite .negative m e _ => some (rankOf (-1) (-e) (-m))
  | .zero _ => some (rankOf 0 0 0)
  | .finite .positive m e _ => some (rankOf 1 e m)
  | .infinity .positive => some (rankOf 2 0 0)

theorem compare_rankOf (side side' exponent exponent' digits digits' : ℤ) :
    compare (rankOf side exponent digits) (rankOf side' exponent' digits') =
      (compare side side').then ((compare exponent exponent').then (compare digits digits')) := by
  simp [rankOf, Prod.Lex.compare_def, compareLex, compareOn]

theorem compare_natCast (m n : ℕ) : compare (m : ℤ) (n : ℤ) = compare m n := by
  rw [← cmp_eq_compare, ← cmp_eq_compare]
  exact Nat.strictMono_cast.cmp_map_eq m n

theorem compare_neg (i j : ℤ) : compare (-i) (-j) = (compare i j).swap := by
  have hneg : StrictAnti fun i : ℤ => -i := fun _ _ => Int.neg_lt_neg
  rw [← cmp_eq_compare, ← cmp_eq_compare, cmp_swap]
  exact hneg.cmp_map_eq i j

/-- Only of numbers on one side of zero the exponents and digits matter. -/
theorem compare_eq (u v : UnpackedFloat) : u.compare v = compare? (rank? u) (rank? v) := by
  cases u with
  | notANumber => cases v <;> rfl
  | infinity s => rcases s with _ | _ <;> rcases v with ⟨_ | _⟩ | _ | _ | ⟨_ | _, _⟩ <;> rfl
  | zero s => rcases v with ⟨_ | _⟩ | _ | _ | ⟨_ | _, _⟩ <;> rfl
  | finite s m e hm =>
    cases v with
    | notANumber => cases s <;> rfl
    | infinity s' => cases s <;> cases s' <;> rfl
    | zero => cases s <;> rfl
    | finite s' n f hn =>
      cases s with
      | positive =>
        cases s' with
        | negative => rfl
        | positive =>
          refine congrArg some ?_
          rw [compare_rankOf, compare_natCast]
          rfl
      | negative =>
        cases s' with
        | positive => rfl
        | negative =>
          refine congrArg some ?_
          rw [compare_rankOf, compare_neg e f, compare_neg m n, compare_natCast,
            ← Ordering.swap_then]
          rfl

/-- Where a number stands among the others. -/
def place? (x : Float) : Option Rank := rank? x.toModel.unpack

theorem place?_eq_none_iff (x : Float) : place? x = none ↔ x.isNaN = true := by
  change rank? x.toModel.unpack = none ↔ x.toModel.unpack.isNaN = true
  cases x.toModel.unpack with
  | notANumber => exact iff_of_true rfl rfl
  | infinity s => cases s <;> exact iff_of_false nofun nofun
  | zero s => exact iff_of_false nofun nofun
  | finite s m e hm => cases s <;> exact iff_of_false nofun nofun

theorem compare_places (x y : Float) :
    x.toModel.compare y.toModel = compare? (place? x) (place? y) := compare_eq _ _

theorem beq_iff (x y : Float) : (x == y) = true ↔ compare? (place? x) (place? y) = some .eq := by
  rw [← compare_places]
  change (x.toModel.compare y.toModel == some .eq) = true ↔ _
  exact beq_iff_eq

theorem lt_iff_compare (x y : Float) :
    x < y ↔ x.toModel.unpack.compare y.toModel.unpack = some .lt := by
  change Float.lt x y = true ↔ _
  rw [Float.lt, decide_eq_true_iff]
  change (_ == _) = true ↔ _
  exact beq_iff_eq

theorem lt_iff (x y : Float) : x < y ↔ compare? (place? x) (place? y) = some .lt := by
  rw [lt_iff_compare, compare_eq, place?, place?]

theorem le_iff (x y : Float) :
    x ≤ y ↔ (compare? (place? x) (place? y)).any (·.isLE) = true := by
  change Float.le x y = true ↔ _
  rw [Float.le, decide_eq_true_iff, ← compare_places]
  exact Iff.rfl

theorem not_lt_of_le {x y : Float} (h : x ≤ y) : ¬y < x := by
  rw [le_iff] at h
  rw [lt_iff, compare?_swap (place? x)]
  intro hlt
  obtain ⟨o, ho, hswap⟩ := Option.map_eq_some_iff.mp hlt
  rw [ho] at h
  cases o <;> cases hswap
  cases h

theorem lt_of_lt_of_le {x y z : Float} (h : x < y) (h' : y ≤ z) : x < z := by
  obtain ⟨o, ho, hle⟩ := (Option.any_eq_true _ _).mp ((le_iff y z).mp h')
  exact (lt_iff x z).mpr (compare?_lt_of_lt_of_isLE ((lt_iff x y).mp h) ho hle)

end Binary64

end Gamebook
