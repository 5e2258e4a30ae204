namespace Gamebook

/-- The number `digits · 10 ^ exponent`. -/
structure Decimal where
  digits : Nat
  exponent : Int
deriving DecidableEq

/-- The number `mantissa · 2 ^ exponent`. -/
structure Magnitude where
  mantissa : Nat
  exponent : Int
deriving DecidableEq

/-- A power of two, and 1 for a negative exponent. -/
def twos (e : Int) : Nat := Nat.pow 2 e.toNat

/-- A power of ten, and 1 for a negative exponent. -/
def tens (e : Int) : Nat := Nat.pow 10 e.toNat

def Decimal.compare (d : Decimal) (m : Magnitude) : Ordering :=
  Ord.compare (d.digits * tens d.exponent * twos (-m.exponent))
    (m.mantissa * twos m.exponent * tens (-d.exponent))

namespace Magnitude

/-- Below a power of two the neighbour is half as far away as above it, save at the least exponent. -/
def narrowBelow (m : Magnitude) : Bool :=
  m.mantissa == twos 52 && decide (-1074 < m.exponent)

def low (m : Magnitude) : Magnitude :=
  ⟨4 * m.mantissa - if m.narrowBelow then 1 else 2, m.exponent - 2⟩

def high (m : Magnitude) : Magnitude := ⟨4 * m.mantissa + 2, m.exponent - 2⟩

/-- The ends of the interval round to the magnitude when its mantissa is even. -/
def admits (m : Magnitude) (d : Decimal) : Bool :=
  let even := m.mantissa % 2 == 0
  let above := d.compare m.low
  let below := d.compare m.high
  (above == .gt || (even && above == .eq)) && (below == .lt || (even && below == .eq))

/-- The whole number of steps `10 ^ grid` in the magnitude. -/
def steps (m : Magnitude) (grid : Int) : Nat :=
  (m.mantissa * twos m.exponent * tens (-grid)) / (twos (-m.exponent) * tens grid)

/-- The exponent of the leading decimal digit, estimated from the binary one and set right by one. -/
def leading (m : Magnitude) : Int :=
  let estimate := Int.fdiv ((m.mantissa.log2 + m.exponent) * 30103) 100000
  if Decimal.compare ⟨1, estimate + 1⟩ m == .gt then estimate else estimate + 1

inductive Tie
  | even
  | up
deriving DecidableEq

def nearer (m : Magnitude) (tie : Tie) (d : Nat) (grid : Int) : Decimal :=
  match Decimal.compare ⟨2 * d + 1, grid⟩ ⟨2 * m.mantissa, m.exponent⟩ with
  | .gt => ⟨d, grid⟩
  | .lt => ⟨d + 1, grid⟩
  | .eq => if tie = .even && d % 2 == 0 then ⟨d, grid⟩ else ⟨d + 1, grid⟩

/-- The neighbour of the magnitude on one decimal grid that names it, if one does. -/
def onGrid? (m : Magnitude) (tie : Tie) (grid : Int) : Option Decimal :=
  let d := m.steps grid
  match m.admits ⟨d, grid⟩, m.admits ⟨d + 1, grid⟩ with
  | true, true => some (m.nearer tie d grid)
  | true, false => some ⟨d, grid⟩
  | false, true => some ⟨d + 1, grid⟩
  | false, false => none

/-- Every decimal digit of the magnitude. -/
def exact (m : Magnitude) : Decimal :=
  if 0 ≤ m.exponent then ⟨m.mantissa * twos m.exponent, 0⟩
  else ⟨m.mantissa * Nat.pow 5 (-m.exponent).toNat, m.exponent⟩

end Magnitude

def Decimal.trimZeros : Nat → Decimal → Decimal
  | 0, d => d
  | fuel + 1, d =>
    if d.digits % 10 = 0 ∧ d.digits ≠ 0 then trimZeros fuel ⟨d.digits / 10, d.exponent + 1⟩ else d

/-- A number has fewer trailing zeros than binary digits. -/
def Decimal.trim (d : Decimal) : Decimal := trimZeros d.digits.log2 d

def Magnitude.shortest (m : Magnitude) (tie : Magnitude.Tie) : Decimal :=
  let top := m.leading
  let found := (List.range 17).findSome? fun (i : Nat) => m.onGrid? tie (top - i)
  (found.getD m.exact).trim

end Gamebook
