namespace Gamebook

/-- Digits before and behind the point, and the power of ten if one is written. -/
structure Numeral where
  negative : Bool
  whole : List Char
  fraction : List Char
  power : Option Int
deriving DecidableEq

def digitValue (c : Char) : Nat := c.toNat - '0'.toNat

def naturalValue (digits : List Char) : Nat :=
  digits.foldl (fun n c => 10 * n + digitValue c) 0

/-- A sign that may be missing and at least one digit. -/
def power? (cs : List Char) : Option (Int × List Char) :=
  let (negative, body) := match cs with
    | '-' :: r => (true, r)
    | '+' :: r => (false, r)
    | r => (false, r)
  let digits := body.takeWhile Char.isDigit
  if digits.isEmpty then none
  else
    let n : Int := naturalValue digits
    some (if negative then -n else n, body.dropWhile Char.isDigit)

/-- The power of ten at the head of the rest of a numeral, and none where no `e` or `E` stands. -/
def tailPower? (cs : List Char) : Option (Option Int × List Char) :=
  match cs with
  | c :: r => if c = 'e' ∨ c = 'E' then (power? r).map fun p => (some p.1, p.2) else some (none, cs)
  | [] => some (none, [])

namespace Numeral

/-- A whole text read as a numeral: a sign may stand before it, and the point before or behind all digits. -/
def ofText? (cs : List Char) : Option Numeral :=
  let (negative, body) := match cs with
    | '-' :: r => (true, r)
    | '+' :: r => (false, r)
    | r => (false, r)
  let whole := body.takeWhile Char.isDigit
  let (fraction, rest) := match body.dropWhile Char.isDigit with
    | '.' :: r => (r.takeWhile Char.isDigit, r.dropWhile Char.isDigit)
    | r => ([], r)
  if whole.isEmpty && fraction.isEmpty then none
  else match tailPower? rest with
    | some (power, []) => some ⟨negative, whole, fraction, power⟩
    | _ => none

def scanWhole? (cs : List Char) : Option (List Char × List Char) :=
  match cs with
  | '0' :: r => some (['0'], r)
  | r =>
    let digits := r.takeWhile Char.isDigit
    if digits.isEmpty then none else some (digits, r.dropWhile Char.isDigit)

def scanFraction? (cs : List Char) : Option (List Char × List Char) :=
  match cs with
  | '.' :: r =>
    let digits := r.takeWhile Char.isDigit
    if digits.isEmpty then none else some (digits, r.dropWhile Char.isDigit)
  | r => some ([], r)

/-- The numeral at the head of a text: no `+`, no needless zero in front, digits on both sides of a point. -/
def scan? (cs : List Char) : Option (Numeral × List Char) := do
  let (negative, body) := match cs with
    | '-' :: r => (true, r)
    | r => (false, r)
  let (whole, rest) ← scanWhole? body
  let (fraction, rest) ← scanFraction? rest
  let (power, rest) ← tailPower? rest
  return (⟨negative, whole, fraction, power⟩, rest)

def signed (n : Numeral) (x : Float) : Float := if n.negative then -x else x

/-- The binary64 number nearest to the numeral, infinite beyond the greatest one. -/
def nearest (n : Numeral) : Float :=
  let e : Int := n.power.getD 0 - n.fraction.length
  n.signed (Float.ofScientific (naturalValue (n.whole ++ n.fraction)) (decide (e < 0)) e.natAbs)

/-- Digits join the significand while it stays below `2 ^ 64`. -/
def absorb (significand : Nat) : List Char → Nat × List Char
  | [] => (significand, [])
  | c :: cs =>
    let next := 10 * significand + digitValue c
    if next < UInt64.size then absorb next cs else (significand, c :: cs)

def powerOfTen (e : Nat) : Float := Float.ofScientific 1 false e

/-- One multiplication or division by a power of ten; beyond `10 ^ -308` a step at a time. -/
def scale? (x : Float) (e : Int) : Option Float :=
  if 0 ≤ e then
    if e ≤ 308 then
      let y := x * powerOfTen e.toNat
      if y.isInf then none else some y
    else if x == 0 then some x else none
  else if -308 ≤ e then some (x / powerOfTen (-e).toNat)
  else if x == 0 then some x
  else scale? (x / powerOfTen 308) (e + 308)
termination_by (-e).toNat
decreasing_by omega

/-- Digits before the point that the significand cannot hold count as zeros, those behind it as nothing. -/
def scaled? (n : Numeral) : Option Float :=
  let (significand, dropped) := absorb 0 n.whole
  let (significand, unread) := absorb significand n.fraction
  let e : Int := n.power.getD 0 + dropped.length - (n.fraction.length - unread.length : Nat)
  (scale? (Float.ofNat significand) e).map n.signed

/-- A numeral of digits alone, without sign, that is below `2 ^ 64`. -/
def count? (n : Numeral) : Option UInt64 :=
  let value := naturalValue n.whole
  if n.negative || !n.fraction.isEmpty || n.power.isSome || decide (UInt64.size ≤ value) then none
  else some value.toUInt64

end Numeral

theorem dropWhile_length (p : Char → Bool) (cs : List Char) :
    (cs.dropWhile p).length ≤ cs.length := (List.dropWhile_sublist p).length_le

theorem Numeral.scanWhole?_length {cs : List Char} {p : List Char × List Char}
    (h : Numeral.scanWhole? cs = some p) : p.2.length < cs.length := by
  unfold Numeral.scanWhole? at h
  split at h
  · cases Option.some.inj h; simp
  · simp only at h
    split at h
    · simp at h
    next hne =>
      cases Option.some.inj h
      have hl := congrArg List.length (List.takeWhile_append_dropWhile (p := Char.isDigit) (l := cs))
      have hp : 0 < (cs.takeWhile Char.isDigit).length := by
        apply List.length_pos_iff.mpr
        intro he
        simp [he] at hne
      simp only [List.length_append] at hl
      simp only
      omega

theorem Numeral.scanFraction?_length {cs : List Char} {p : List Char × List Char}
    (h : Numeral.scanFraction? cs = some p) : p.2.length ≤ cs.length := by
  unfold Numeral.scanFraction? at h
  split at h
  next r =>
    simp only at h
    split at h
    · simp at h
    · cases Option.some.inj h
      have := dropWhile_length Char.isDigit r
      simp; omega
  · cases Option.some.inj h; simp

theorem power?_length {cs : List Char} {p : Int × List Char} (h : power? cs = some p) :
    p.2.length ≤ cs.length := by
  unfold power? at h
  split at h
  next negative body hb =>
    have hbody : body.length ≤ cs.length := by
      split at hb <;> cases hb <;> simp
    simp only at h
    split at h
    · simp at h
    · cases Option.some.inj h
      have := dropWhile_length Char.isDigit body
      simp only
      omega

theorem tailPower?_length {cs : List Char} {p : Option Int × List Char}
    (h : tailPower? cs = some p) : p.2.length ≤ cs.length := by
  unfold tailPower? at h
  split at h
  · split at h
    · obtain ⟨q, hq, rfl⟩ := Option.map_eq_some_iff.mp h
      have := power?_length hq
      simp; omega
    · cases Option.some.inj h; simp
  · cases Option.some.inj h; simp

theorem Numeral.scan?_length {cs : List Char} {p : Numeral × List Char}
    (h : Numeral.scan? cs = some p) : p.2.length < cs.length := by
  unfold Numeral.scan? at h
  split at h
  next negative body hb =>
    have hbody : body.length ≤ cs.length := by
      split at hb <;> cases hb <;> simp
    obtain ⟨⟨whole, r⟩, hw, h⟩ := Option.bind_eq_some_iff.mp h
    obtain ⟨⟨fraction, r'⟩, hf, h⟩ := Option.bind_eq_some_iff.mp h
    obtain ⟨⟨power, r''⟩, hp, h⟩ := Option.bind_eq_some_iff.mp h
    cases Option.some.inj h
    have hw := Numeral.scanWhole?_length hw
    have hf := Numeral.scanFraction?_length hf
    have hp := tailPower?_length hp
    simp only at hw hf hp ⊢
    omega

end Gamebook
