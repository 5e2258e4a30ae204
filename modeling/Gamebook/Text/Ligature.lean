import Gamebook.Text.Mark

namespace Gamebook

/-- The latter half of a pair that may join. -/
inductive Ligature
  | lamed
  | ya
  /-- Buginese ya with a joiner and the vowel sign i before it. -/
  | vowelYa
  | tifinagh
  /-- A Tifinagh consonant with the consonant joiner before it. -/
  | joinedTifinagh
  | toneMark
  | orkhon
  | khmer
  deriving DecidableEq, Repr

namespace Ligature

def isTifinaghConsonant (c : Char) : Bool := (0x2D31 ≤ c.toNat && c.toNat ≤ 0x2D65) || c.toNat == 0x2D6F

/-- The Khmer letters that may stand below another. -/
def subscriptRanges : Ranges :=
  [(0x1780, 0x1782), (0x1784, 0x1787), (0x1789, 0x178C), (0x178E, 0x1793), (0x1795, 0x1798),
    (0x179B, 0x179D), (0x17A0, 0x17A0), (0x17A2, 0x17A2), (0x17A7, 0x17A7), (0x17AB, 0x17AC),
    (0x17AF, 0x17AF)]

def of? (c : Char) : Option Ligature :=
  if c.toNat = 0x5DC then some lamed
  else if c.toNat = 0x1A10 then some ya
  else if isTifinaghConsonant c then some tifinagh
  else if c.toNat = 0xA4FC ∨ c.toNat = 0xA4FD then some toneMark
  else if c.toNat = 0x10C03 then some orkhon
  else if subscriptRanges.contains c then some khmer
  else none

def transparentRanges : Ranges :=
  [(0x34F, 0x34F), (0x17B4, 0x17B5), (0x180B, 0x180D), (0x180F, 0x180F), (0x200D, 0x200D),
    (0xFE00, 0xFE0F), (0xE0100, 0xE01EF)]

/-- The two halves of a ligature still join where such a character stands between them. -/
def isTransparent (c : Char) : Bool := transparentRanges.contains c

/-- The columns that `c` adds where it joins with the half that follows it, and the half that the two make
together, if they make one. The sign of a Khmer letter below another takes back the column of the letter. -/
def join? (l : Ligature) (linked : Bool) (c : Char) : Option (Int × Option Ligature) :=
  match l with
  | lamed => if linked && c.toNat == 0x5D0 then some (0, none) else none
  | ya => if linked && c.toNat == 0x1A17 then some (0, some vowelYa) else none
  | vowelYa => if c.toNat = 0x1A15 then some (0, none) else none
  | tifinagh =>
    if c.toNat = 0x2D7F then some (1, some joinedTifinagh)
    else if linked && isTifinaghConsonant c then some (0, none)
    else none
  | joinedTifinagh => if isTifinaghConsonant c then some (-1, none) else none
  | toneMark => if 0xA4F8 ≤ c.toNat ∧ c.toNat ≤ 0xA4FB then some (0, none) else none
  | orkhon => if linked && c.toNat == 0x10C32 then some (0, none) else none
  | khmer => if c.toNat = 0x17D2 then some (-1, none) else none

end Ligature

end Gamebook
