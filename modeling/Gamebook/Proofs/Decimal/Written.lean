import Gamebook.Decimal.Layout
import Gamebook.Decimal.Numeral

namespace Gamebook

abbrev AllDigits (cs : List Char) : Prop := ∀ c ∈ cs, c.isDigit = true

/-- Not at the head of a text, where it would go on with the digits before it. -/
abbrev NoDigitNext (rest : List Char) : Prop := ∀ c ∈ rest.head?, c.isDigit = false

theorem takeWhile_digits {ds rest : List Char} (hds : AllDigits ds) (hrest : NoDigitNext rest) :
    (ds ++ rest).takeWhile Char.isDigit = ds := by
  rw [List.takeWhile_append_of_pos hds]
  cases rest with
  | nil => simp
  | cons c rest => simp [hrest c rfl]

theorem dropWhile_digits {ds rest : List Char} (hds : AllDigits ds) (hrest : NoDigitNext rest) :
    (ds ++ rest).dropWhile Char.isDigit = rest := by
  rw [List.dropWhile_append_of_pos hds]
  cases rest with
  | nil => rfl
  | cons c rest => simp [hrest c rfl]

theorem isDigit_ne {c d : Char} (hc : c.isDigit = true) (hd : d.isDigit = false) : c ≠ d := by
  rintro rfl
  simp [hc] at hd

theorem Decimal.numerals_allDigits (n : Nat) : AllDigits (numerals n) := fun _ hc =>
  Nat.isDigit_of_mem_toDigits (by decide) (by decide) hc

theorem Decimal.numerals_ne_nil (n : Nat) : numerals n ≠ [] := Nat.toDigits_ne_nil

theorem naturalValue_numerals (n : Nat) : naturalValue (Decimal.numerals n) = n :=
  Nat.ofDigitChars_ten_toDigits

/-- Only zero begins with a zero. -/
theorem Decimal.numerals_head {n : Nat} (hn : 0 < n) : (numerals n).head? ≠ some '0' := by
  induction n using Nat.strongRecOn with
  | ind n ih =>
    rw [numerals, Nat.toDigits_eq_if (by decide)]
    split
    next hlt =>
      simp only [List.head?_cons, ne_eq, Option.some.injEq, Nat.digitChar_eq_zero]
      omega
    next hge =>
      have hrec := ih (n / 10) (by omega) (by omega)
      obtain ⟨c, cs, hcs⟩ := List.exists_cons_of_ne_nil (numerals_ne_nil (n / 10))
      rw [hcs] at hrec
      rw [numerals] at hcs
      rwa [hcs]

/-- The digits of a whole number as they are scanned: no needless zero in front. -/
inductive WholeDigits : List Char → Prop
  | zero : WholeDigits ['0']
  | leading {c : Char} {cs : List Char} (hc : c ≠ '0') (hds : AllDigits (c :: cs)) :
    WholeDigits (c :: cs)

theorem WholeDigits.allDigits {ds : List Char} (h : WholeDigits ds) : AllDigits ds := by
  cases h with
  | zero => simp [AllDigits]
  | leading _ hds => exact hds

theorem WholeDigits.ne_nil {ds : List Char} (h : WholeDigits ds) : ds ≠ [] := by
  cases h <;> simp

theorem Decimal.numerals_wholeDigits (n : Nat) : WholeDigits (numerals n) := by
  rcases Nat.eq_zero_or_pos n with rfl | hn
  · exact WholeDigits.zero
  · obtain ⟨c, cs, hcs⟩ := List.exists_cons_of_ne_nil (numerals_ne_nil n)
    have hhead := numerals_head hn
    have hds := numerals_allDigits n
    rw [hcs] at hhead hds ⊢
    exact WholeDigits.leading (by simpa using hhead) hds

theorem scanWhole?_append {ds rest : List Char} (hds : WholeDigits ds) (hrest : NoDigitNext rest) :
    Numeral.scanWhole? (ds ++ rest) = some (ds, rest) := by
  cases hds with
  | zero => rfl
  | @leading c cs hc hds =>
    have htake := takeWhile_digits hds hrest
    have hdrop := dropWhile_digits hds hrest
    rw [List.cons_append] at htake hdrop ⊢
    unfold Numeral.scanWhole?
    split
    next heq => exact absurd (List.cons.inj heq).1 hc
    next => simp only [htake, hdrop]; rfl

theorem power?_signed (p : Int) {rest : List Char} (hrest : NoDigitNext rest) :
    power? (Decimal.signed p ++ rest) = some (p, rest) := by
  have hds := Decimal.numerals_allDigits p.natAbs
  have htake := takeWhile_digits hds hrest
  have hdrop := dropWhile_digits hds hrest
  have hne : (Decimal.numerals p.natAbs).isEmpty = false := by
    simp [Decimal.numerals_ne_nil]
  by_cases hneg : p < 0
  · have hsigned : Decimal.signed p ++ rest = '-' :: (Decimal.numerals p.natAbs ++ rest) := by
      rw [Decimal.signed, if_pos hneg]
      rfl
    have hvalue : -(p.natAbs : Int) = p := by omega
    simp only [power?, hsigned, htake, hdrop, hne, naturalValue_numerals, hvalue, if_true,
      Bool.false_eq_true, if_false]
  · have hsigned : Decimal.signed p = Decimal.numerals p.natAbs := if_neg hneg
    have hvalue : (p.natAbs : Int) = p := by omega
    obtain ⟨c, cs, hcs⟩ := List.exists_cons_of_ne_nil (Decimal.numerals_ne_nil p.natAbs)
    have hc : c.isDigit = true := hds c (by simp [hcs])
    unfold power?
    split
    next negative body hbody =>
      split at hbody
      next heq =>
        rw [hsigned, hcs] at heq
        exact absurd (List.cons.inj heq).1 (isDigit_ne hc (by decide))
      next heq =>
        rw [hsigned, hcs] at heq
        exact absurd (List.cons.inj heq).1 (isDigit_ne hc (by decide))
      next =>
        cases hbody
        simp only [hsigned, htake, hdrop, hne, naturalValue_numerals, hvalue, Bool.false_eq_true,
          if_false]

namespace Numeral

def fractionText (fraction : List Char) : List Char :=
  if fraction.isEmpty then [] else '.' :: fraction

def powerText : Option Int → List Char
  | none => []
  | some p => 'e' :: Decimal.signed p

def unsignedText (n : Numeral) : List Char :=
  n.whole ++ (fractionText n.fraction ++ powerText n.power)

def written (n : Numeral) : List Char :=
  if n.negative then '-' :: n.unsignedText else n.unsignedText

/-- What is written as numerals are. -/
structure Proper (n : Numeral) : Prop where
  whole : WholeDigits n.whole
  fraction : AllDigits n.fraction

/-- A numeral does not go on with this text. -/
structure Ends (rest : List Char) : Prop where
  digit : NoDigitNext rest
  point : rest.head? ≠ some '.'
  power : rest.head? ≠ some 'e' ∧ rest.head? ≠ some 'E'

theorem Ends.nil : Ends [] := ⟨by simp [NoDigitNext], by simp, by simp⟩

theorem Ends.cons {c : Char} {rest : List Char} (hdigit : c.isDigit = false) (hpoint : c ≠ '.')
    (he : c ≠ 'e') (hE : c ≠ 'E') : Ends (c :: rest) := by
  refine ⟨by simp [NoDigitNext, hdigit], by simp [hpoint], by simp [he, hE]⟩

theorem scanFraction?_append {fraction rest : List Char} (hds : AllDigits fraction)
    (hrest : NoDigitNext rest) (hpoint : rest.head? ≠ some '.') :
    scanFraction? (fractionText fraction ++ rest) = some (fraction, rest) := by
  unfold fractionText scanFraction?
  cases fraction with
  | nil =>
    simp only [List.isEmpty_nil, if_true, List.nil_append]
    split
    next => simp at hpoint
    next => rfl
  | cons c cs =>
    have htake := takeWhile_digits hds hrest
    have hdrop := dropWhile_digits hds hrest
    rw [List.cons_append] at htake hdrop
    simp [htake, hdrop]

theorem tailPower?_append (power : Option Int) {rest : List Char} (hrest : Ends rest) :
    tailPower? (powerText power ++ rest) = some (power, rest) := by
  cases power with
  | none =>
    cases rest with
    | nil => rfl
    | cons c rest =>
      have hc := hrest.power
      simp only [List.head?_cons, ne_eq, Option.some.injEq] at hc
      simp [powerText, tailPower?, hc.1, hc.2]
  | some p =>
    have hpower := power?_signed p hrest.digit
    simp [powerText, tailPower?, hpower]

/-- Behind the whole digits stand a point, a power or what follows the numeral. -/
theorem noDigitNext_rest (n : Numeral) {rest : List Char} (hrest : Ends rest) :
    NoDigitNext (powerText n.power ++ rest) ∧ (powerText n.power ++ rest).head? ≠ some '.' ∧
      NoDigitNext (fractionText n.fraction ++ (powerText n.power ++ rest)) := by
  have hpower : NoDigitNext (powerText n.power ++ rest) := by
    cases hp : n.power with
    | none => exact hrest.digit
    | some p => simp [powerText, NoDigitNext]
  refine ⟨hpower, ?_, ?_⟩
  · cases hp : n.power with
    | none => exact hrest.point
    | some p => simp [powerText]
  · cases hf : n.fraction with
    | nil => exact hpower
    | cons c cs => simp [fractionText, NoDigitNext]

theorem scan?_written {n : Numeral} (h : n.Proper) {rest : List Char} (hrest : Ends rest) :
    scan? (n.written ++ rest) = some (n, rest) := by
  obtain ⟨hpower, hpoint, hfraction⟩ := noDigitNext_rest n hrest
  have hwhole := scanWhole?_append h.whole hfraction
  have hscan := scanFraction?_append h.fraction hpower hpoint
  have htail := tailPower?_append n.power hrest
  cases hneg : n.negative with
  | true =>
    have hn : (⟨true, n.whole, n.fraction, n.power⟩ : Numeral) = n := by rw [← hneg]
    simp [written, unsignedText, hneg, scan?, hwhole, hscan, htail, hn]
  | false =>
    have hn : (⟨false, n.whole, n.fraction, n.power⟩ : Numeral) = n := by rw [← hneg]
    obtain ⟨c, cs, hcs⟩ := List.exists_cons_of_ne_nil h.whole.ne_nil
    have hc : c.isDigit = true := h.whole.allDigits c (by simp [hcs])
    simp only [written, unsignedText, hneg, Bool.false_eq_true, if_false, List.append_assoc]
    unfold scan?
    split
    next negative body hbody =>
      split at hbody
      next heq =>
        rw [hcs] at heq
        exact absurd (List.cons.inj heq).1 (isDigit_ne hc (by decide))
      next =>
        cases hbody
        simp [hwhole, hscan, htail, hn]

end Numeral

end Gamebook
