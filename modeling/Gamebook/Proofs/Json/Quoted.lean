import Gamebook.Json.Printer
import Gamebook.Json.Token

namespace Gamebook

namespace Json

open Token

theorem hexValue?_hexDigit {n : Nat} (h : n < 16) : hexValue? (hexDigit n) = some n := by
  revert n
  decide

/-- A control character's number comes back from its four digits. -/
theorem unit?_control {n : Nat} (h : n < 32) :
    unit? '0' '0' (hexDigit (n / 16)) (hexDigit (n % 16)) = some n := by
  have hzero : hexValue? '0' = some 0 := rfl
  have hfirst := hexValue?_hexDigit (n := n / 16) (by omega)
  have hsecond := hexValue?_hexDigit (n := n % 16) (by omega)
  simp [unit?, hzero, hfirst, hsecond]
  omega

theorem units?_plain {c : Char} (hquote : c ≠ '"') (hslash : c ≠ '\\') (hc : 32 ≤ c.toNat)
    (acc : List Nat) (rest : List Char) :
    units? acc (c :: rest) = units? (c.toNat :: acc) rest := by
  rw [units?.eq_def]
  split
  next h => simp at h
  next h => exact absurd (List.cons.inj h).1 hquote
  next h => exact absurd (List.cons.inj h).1 hslash
  next h => exact absurd (List.cons.inj h).1 hslash
  next h =>
    cases h
    rw [if_neg (by omega)]

/-- A character is written so that it is read back as one unit. -/
theorem units?_escape (c : Char) (acc : List Nat) (rest : List Char) :
    units? acc (escape c ++ rest) = units? (c.toNat :: acc) rest := by
  unfold escape
  split
  · rfl
  · rfl
  · rfl
  · rfl
  · rfl
  next hquote hslash _ _ _ =>
    split
    next h8 => rw [h8]; rfl
    next =>
      split
      next h12 => rw [h12]; rfl
      next =>
        split
        next hlt =>
          have hunit := unit?_control hlt
          simp only [List.cons_append, List.nil_append, units?, hunit]
        next hge => exact units?_plain hquote hslash (by omega) acc rest

theorem units?_flatMap_escape (cs : List Char) (acc : List Nat) (rest : List Char) :
    units? acc (cs.flatMap escape ++ '"' :: rest) =
      some (cs.reverse.map Char.toNat ++ acc, rest) := by
  induction cs generalizing acc with
  | nil => rfl
  | cons c cs ih =>
    rw [List.flatMap_cons, List.append_assoc, units?_escape, ih]
    simp

/-- No character is half of a surrogate pair. -/
theorem not_surrogate (c : Char) : isLow c.toNat = false ∧ isHigh c.toNat = false := by
  have hvalid : c.toNat < 0xD800 ∨ (0xDFFF < c.toNat ∧ c.toNat < 0x110000) := c.valid
  simp only [isLow, isHigh, Bool.and_eq_false_iff, decide_eq_false_iff_not]
  omega

theorem spell?_map_toNat (cs : List Char) (acc : List Char) :
    spell? acc (cs.map Char.toNat) = some (cs.reverse ++ acc) := by
  induction cs generalizing acc with
  | nil => rfl
  | cons c cs ih =>
    obtain ⟨hlow, hhigh⟩ := not_surrogate c
    rw [List.map_cons, spell?.eq_def]
    simp [hlow, hhigh, ih]

theorem next?_quote (s : String) (rest : List Char) :
    Token.next? (quote s ++ rest) = some (.quoted (some s), rest) := by
  have hunits := units?_flatMap_escape s.toList [] rest
  have hspell := spell?_map_toNat s.toList.reverse []
  simp only [List.append_nil, List.reverse_reverse] at hunits hspell
  rw [quote, List.cons_append, List.append_assoc, List.singleton_append, Token.next?]
  rw [hunits]
  simp only [Option.map_some, hspell, String.ofList_toList]

end Json

end Gamebook
