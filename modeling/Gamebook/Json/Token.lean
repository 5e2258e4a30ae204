import Gamebook.Json.Basic
import Gamebook.Decimal.Numeral

namespace Gamebook

namespace Json

inductive Token
  | openArray
  | closeArray
  | openObject
  | closeObject
  | comma
  | colon
  /-- A quoted text, and none for one with half a surrogate pair. -/
  | quoted (s : Option String)
  /-- `null`, `true`, `false` or a number. -/
  | plain (j : Json)

namespace Token

def isSpace (c : Char) : Bool := c == ' ' || c == '\n' || c == '\t' || c == '\r'

def hexValue? (c : Char) : Option Nat :=
  let n := c.toNat
  if 48 ≤ n ∧ n ≤ 57 then some (n - 48)
  else if 65 ≤ n ∧ n ≤ 70 then some (n - 55)
  else if 97 ≤ n ∧ n ≤ 102 then some (n - 87)
  else none

def unit? (a b c d : Char) : Option Nat := do
  return (((← hexValue? a) * 16 + (← hexValue? b)) * 16 + (← hexValue? c)) * 16 + (← hexValue? d)

/-- What one letter behind a backslash stands for. -/
def escaped? : Char → Option Nat
  | '"' => some 34
  | '\\' => some 92
  | '/' => some 47
  | 'b' => some 8
  | 'f' => some 12
  | 'n' => some 10
  | 'r' => some 13
  | 't' => some 9
  | _ => none

/-- The units of a text up to its closing quote, latest first. -/
def units? (acc : List Nat) : List Char → Option (List Nat × List Char)
  | [] => none
  | '"' :: rest => some (acc, rest)
  | '\\' :: 'u' :: a :: b :: c :: d :: rest =>
    match unit? a b c d with
    | some u => units? (u :: acc) rest
    | none => none
  | '\\' :: e :: rest =>
    match escaped? e with
    | some u => units? (u :: acc) rest
    | none => none
  | c :: rest => if c.toNat < 32 then none else units? (c.toNat :: acc) rest

def isHigh (u : Nat) : Bool := 0xD800 ≤ u && u ≤ 0xDBFF

def isLow (u : Nat) : Bool := 0xDC00 ≤ u && u ≤ 0xDFFF

def joined (high low : Nat) : Char := Char.ofNat (0x10000 + (high - 0xD800) * 0x400 + (low - 0xDC00))

/-- The characters of units given latest first; a surrogate counts only in a pair. -/
def spell? (acc : List Char) : List Nat → Option (List Char)
  | [] => some acc
  | u :: rest =>
    if isLow u then
      match rest with
      | v :: rest => if isHigh v then spell? (joined v u :: acc) rest else none
      | [] => none
    else if isHigh u then none
    else spell? (Char.ofNat u :: acc) rest

/-- A whole number below `2 ^ 64` stays exact, and a number out of range has no value. -/
def ofNumeral (n : Numeral) : Json :=
  match n.count?, n.scaled? with
  | some k, _ => count k
  | none, some x => number x
  | none, none => unreadable

def next? : List Char → Option (Token × List Char)
  | '[' :: rest => some (openArray, rest)
  | ']' :: rest => some (closeArray, rest)
  | '{' :: rest => some (openObject, rest)
  | '}' :: rest => some (closeObject, rest)
  | ',' :: rest => some (comma, rest)
  | ':' :: rest => some (colon, rest)
  | '"' :: rest =>
    (units? [] rest).map fun p => (quoted ((spell? [] p.1).map String.ofList), p.2)
  | 'n' :: 'u' :: 'l' :: 'l' :: rest => some (plain null, rest)
  | 't' :: 'r' :: 'u' :: 'e' :: rest => some (plain (flag true), rest)
  | 'f' :: 'a' :: 'l' :: 's' :: 'e' :: rest => some (plain (flag false), rest)
  | cs => (Numeral.scan? cs).map fun p => (plain (ofNumeral p.1), p.2)

theorem units?_length {acc : List Nat} {cs : List Char} {p : List Nat × List Char}
    (h : units? acc cs = some p) : p.2.length < cs.length := by
  fun_induction units? acc cs with
  | case1 => simp at h
  | case2 => cases Option.some.inj h; simp
  | case3 _ _ _ _ _ _ _ _ ih => have := ih h; simp; omega
  | case4 => simp at h
  | case5 _ _ _ _ _ _ ih => have := ih h; simp; omega
  | case6 => simp at h
  | case7 => simp at h
  | case8 _ _ _ _ _ _ _ ih => have := ih h; simp; omega

end Token

end Json

theorem Json.Token.next?_length {cs : List Char} {p : Json.Token × List Char}
    (h : Json.Token.next? cs = some p) : p.2.length < cs.length := by
  unfold Json.Token.next? at h
  split at h
  case h_7 =>
    obtain ⟨q, hq, rfl⟩ := Option.map_eq_some_iff.mp h
    have := Json.Token.units?_length hq
    simp; omega
  case h_11 =>
    obtain ⟨q, hq, rfl⟩ := Option.map_eq_some_iff.mp h
    exact Numeral.scan?_length hq
  all_goals
    cases Option.some.inj h
    simp only [List.length_cons]
    omega

end Gamebook
