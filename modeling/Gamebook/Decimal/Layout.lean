import Gamebook.Decimal.Shortest

namespace Gamebook

namespace Decimal

def zeros (n : Nat) : List Char := List.replicate n '0'

def numerals (n : Nat) : List Char := Nat.toDigits 10 n

/-- Digits with the point at its place and no exponent. -/
def positional (d : Decimal) : List Char :=
  let ds := numerals d.digits
  let after := (-d.exponent).toNat
  if after = 0 then ds ++ zeros d.exponent.toNat
  else if after < ds.length then
    ds.take (ds.length - after) ++ '.' :: ds.drop (ds.length - after)
  else '0' :: '.' :: (zeros (after - ds.length) ++ ds)

def signed (n : Int) : List Char :=
  if n < 0 then '-' :: numerals n.natAbs else numerals n.natAbs

/-- One digit, the others behind a point, and an exponent of ten. -/
def scientific (d : Decimal) : List Char :=
  match numerals d.digits with
  | [] => []
  | lead :: others =>
    let fraction := if others.isEmpty then [] else '.' :: others
    lead :: fraction ++ 'e' :: signed (d.exponent + others.length)

/-- Positional from `0.00001` up to sixteen digits before the point, and scientific beyond. -/
def saved (d : Decimal) : List Char :=
  let point := (numerals d.digits).length + d.exponent
  if -5 < point ∧ point ≤ 16 then
    if 0 ≤ d.exponent then d.positional ++ ['.', '0'] else d.positional
  else d.scientific

end Decimal

open Float.Model (UnpackedFloat)

def sign (s : UnpackedFloat.Sign) (text : List Char) : List Char :=
  match s with
  | .positive => text
  | .negative => '-' :: text

/-- What a reader sees. Both zeros are `0`, and a tie between two shortest decimals goes up. -/
def plainText (x : Float) : List Char :=
  match x.toModel.unpack with
  | .notANumber => ['N', 'a', 'N']
  | .infinity s => sign s ['i', 'n', 'f']
  | .zero _ => ['0']
  | .finite s m e _ => sign s (Magnitude.shortest ⟨m, e⟩ .up).positional

/-- What a save file holds; an infinity or a NaN has no such text. -/
def savedText? (x : Float) : Option (List Char) :=
  match x.toModel.unpack with
  | .notANumber | .infinity _ => none
  | .zero s => some (sign s ['0', '.', '0'])
  | .finite s m e _ => some (sign s (Magnitude.shortest ⟨m, e⟩ .even).saved)

end Gamebook
