namespace Gamebook

/-- What is drawn: one of `2 ^ 53` points of the unit interval, or one of a number of options. -/
inductive Draw
  | point
  | choice (options : Nat)
deriving DecidableEq

def Generator.points : Nat := Nat.pow 2 53

/-- A source of chance and what was drawn from it so far, the latest first. Any source will do: what a draw
gives may depend on all that was drawn before. -/
structure Generator where
  pointAfter : List Draw → Fin Generator.points
  choiceAfter : List Draw → (options : Nat) → 0 < options → Fin options
  drawn : List Draw

namespace Generator

def point (g : Generator) : Fin points × Generator :=
  (g.pointAfter g.drawn, { g with drawn := .point :: g.drawn })

def choose (g : Generator) (n : Nat) (h : 0 < n) : Fin n × Generator :=
  (g.choiceAfter g.drawn n h, { g with drawn := .choice n :: g.drawn })

/-- The words that a seed leads to. -/
def wordOf (seed : UInt64) (place : Nat) : UInt64 :=
  let s := seed + UInt64.ofNat (place + 1) * 0x9E3779B97F4A7C15
  let a := (s ^^^ (s >>> 30)) * 0xBF58476D1CE4E5B9
  let b := (a ^^^ (a >>> 27)) * 0x94D049BB133111EB
  b ^^^ (b >>> 31)

theorem leading_lt (w : UInt64) : w.toNat / 2048 < points := by
  have hw : w.toNat < UInt64.size := w.toNat_lt_size
  have hp : points * 2048 = UInt64.size := by decide
  omega

theorem scaled_lt (w : UInt64) (n : Nat) (h : 0 < n) : w.toNat * n / UInt64.size < n := by
  have hw : w.toNat < UInt64.size := w.toNat_lt_size
  rw [Nat.div_lt_iff_lt_mul (by decide), Nat.mul_comm n]
  exact Nat.mul_lt_mul_of_pos_right hw h

/-- The program's own source takes one word of its seed for each draw. -/
def ofSeed (seed : UInt64) : Generator where
  pointAfter drawn :=
    let w := wordOf seed drawn.length
    ⟨w.toNat / 2048, leading_lt w⟩
  choiceAfter drawn n h :=
    let w := wordOf seed drawn.length
    ⟨w.toNat * n / UInt64.size, scaled_lt w n h⟩
  drawn := []

end Generator

open Float.Model (UnpackedFloat)

/-- How many points of the unit interval lie below a probability: point `u` is the number
`u / 2 ^ 53`, and it lies below `m · 2 ^ e` when `u < m · 2 ^ (e + 53)`. -/
def pointsBelow (p : Float) : Nat :=
  match p.toModel.unpack with
  | .infinity .positive => Generator.points
  | .finite .positive m e _ =>
    let scale := e + 53
    if 0 ≤ scale then m * Nat.pow 2 scale.toNat
    else (m + Nat.pow 2 (-scale).toNat - 1) / Nat.pow 2 (-scale).toNat
  | _ => 0

/-- One draw against a probability. -/
def Generator.succeeds (g : Generator) (p : Float) : Bool × Generator :=
  let (u, next) := g.point
  (decide (u.val < pointsBelow p), next)

end Gamebook
