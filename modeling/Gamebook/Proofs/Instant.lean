import Gamebook.Instant
import Gamebook.Proofs.Decimal.Reading

namespace Gamebook

namespace Instant

theorem isBlank_of_isDigit {c : Char} (h : c.isDigit = true) : isBlank c = false := by
  simp only [Char.isDigit, Bool.and_eq_true, decide_eq_true_eq] at h
  have hlow : 48 ≤ c.toNat := h.1
  have hhigh : c.toNat ≤ 57 := h.2
  simp only [isBlank, blankRanges, Ranges.contains, List.any_cons, List.any_nil, Bool.or_false,
    Bool.or_eq_false_iff, Bool.and_eq_false_iff, decide_eq_false_iff_not]
  omega

theorem trimStart_cons {c : Char} (hc : isBlank c = false) (cs : List Char) :
    trimStart (c :: cs) = c :: cs := by
  simp [trimStart, hc]

theorem padded_allDigits (width n : ℕ) : AllDigits (padded width n) := by
  intro c hc
  rcases List.mem_append.mp hc with h | h
  · rw [List.eq_of_mem_replicate h]
    rfl
  · exact Decimal.numerals_allDigits n c h

theorem padded_ne_nil (width n : ℕ) : padded width n ≠ [] := by
  simp [padded, Decimal.numerals_ne_nil]

theorem naturalValue_padded (width n : ℕ) : naturalValue (padded width n) = n := by
  change Nat.ofDigitChars 10 (Decimal.zeros _ ++ Decimal.numerals n) 0 = n
  rw [Nat.ofDigitChars_append, Decimal.zeros, Nat.ofDigitChars_replicate_zero, Nat.mul_zero]
  exact naturalValue_numerals n

theorem padded_length {width n : ℕ} (hwidth : 0 < width) (hn : n < 10 ^ width) :
    (padded width n).length = width := by
  have hle : (Decimal.numerals n).length ≤ width :=
    (Nat.length_toDigits_le_iff (by decide) hwidth).mpr hn
  simp only [padded, List.length_append, Decimal.zeros, List.length_replicate]
  omega

theorem trimStart_padded (width n : ℕ) (rest : List Char) :
    trimStart (padded width n ++ rest) = padded width n ++ rest := by
  obtain ⟨c, cs, hcs⟩ := List.exists_cons_of_ne_nil (padded_ne_nil width n)
  have hc := padded_allDigits width n c (by simp [hcs])
  rw [hcs, List.cons_append, trimStart_cons (isBlank_of_isDigit hc)]

theorem number?_padded {width n : ℕ} (hwidth : 0 < width) (hn : n < 10 ^ width)
    (rest : List Char) : number? width (padded width n ++ rest) = some (n, rest) := by
  have hlength := padded_length hwidth hn
  have htake : (padded width n ++ rest).take width = padded width n := List.take_left' hlength
  have hdigits : (padded width n).takeWhile Char.isDigit = padded width n := by
    have hnone : NoDigitNext [] := by simp [NoDigitNext]
    simpa using takeWhile_digits (padded_allDigits width n) hnone
  simp only [number?, trimStart_padded, htake, hdigits, List.isEmpty_iff, padded_ne_nil, if_false,
    naturalValue_padded, List.drop_left]

theorem mark?_cons {c : Char} (hc : isBlank c = false) (rest : List Char) :
    mark? c (c :: rest) = some rest := by
  simp [mark?, trimStart_cons hc]

theorem signedYear_padded (sign : ℤ) (width n : ℕ) {rest : List Char} (hrest : NoDigitNext rest) :
    year?.signedYear sign (padded width n ++ rest) = some (sign * n, rest) := by
  have hds := padded_allDigits width n
  simp only [year?.signedYear, takeWhile_digits hds hrest, dropWhile_digits hds hrest,
    List.isEmpty_iff, padded_ne_nil, if_false, naturalValue_padded]

theorem year?_writeYear (year : ℤ) {rest : List Char} (hrest : NoDigitNext rest) :
    year? (writeYear year ++ rest) = some (year, rest) := by
  unfold writeYear
  split
  next h =>
    obtain ⟨c, cs, hcs⟩ := List.exists_cons_of_ne_nil (padded_ne_nil 4 year.toNat)
    have hc := padded_allDigits 4 year.toNat c (by simp [hcs])
    have hnumber := number?_padded (n := year.toNat) (show 0 < 4 by decide) (by omega) rest
    have hyear : (year.toNat : ℤ) = year := by omega
    unfold year?
    rw [trimStart_padded]
    split
    next heq =>
      rw [hcs] at heq
      exact absurd (List.cons.inj heq).1 (isDigit_ne hc (by decide))
    next heq =>
      rw [hcs] at heq
      exact absurd (List.cons.inj heq).1 (isDigit_ne hc (by decide))
    next => rw [hnumber, Option.map_some, hyear]
  next h =>
    split
    next hneg =>
      rw [List.cons_append, year?, trimStart_cons (by decide)]
      simp only [signedYear_padded _ _ _ hrest]
      congr 2
      omega
    next hpos =>
      rw [List.cons_append, year?, trimStart_cons (by decide)]
      simp only [signedYear_padded _ _ _ hrest]
      congr 2
      omega

/-- Trailing zeros are left out by threes and filled in again. -/
theorem fraction?_padded {width n : ℕ} (hwidth : 0 < width) (hmax : width ≤ 9)
    (hn : n < 10 ^ width) {rest : List Char} (hrest : NoDigitNext rest) :
    fraction? ('.' :: padded width n ++ rest) = some (n * 10 ^ (9 - width), rest) := by
  have hds := padded_allDigits width n
  have hlength := padded_length hwidth hn
  have htake : (padded width n).take 9 = padded width n := List.take_of_length_le (by omega)
  simp only [fraction?, List.cons_append, takeWhile_digits hds hrest, dropWhile_digits hds hrest,
    htake, List.isEmpty_iff, padded_ne_nil, if_false, naturalValue_padded, hlength, Nat.pow_eq]

theorem fraction?_writeFraction {n : ℕ} (hn : n < 1000000000) {rest : List Char}
    (hrest : NoDigitNext rest) (hpoint : rest.head? ≠ some '.') :
    fraction? (writeFraction n ++ rest) = some (n, rest) := by
  unfold writeFraction
  split
  next h =>
    subst h
    rw [List.nil_append]
    unfold fraction?
    split
    next => simp at hpoint
    next => rfl
  next =>
    split
    next h =>
      rw [fraction?_padded (by decide) (by decide) (by omega) hrest]
      congr 2
      omega
    next =>
      split
      next h =>
        rw [fraction?_padded (by decide) (by decide) (by omega) hrest]
        congr 2
        omega
      next =>
        rw [fraction?_padded (by decide) (by decide) (by omega) hrest]
        congr 2
        omega

theorem offset?_universal : offset? ['Z'] = some (0, []) := rfl

/-- The seconds of a day from its hours, minutes and seconds. -/
theorem second_split (second : ℕ) :
    second / 3600 * 3600 + second / 60 % 60 * 60 + second % 60 = second := by
  omega

theorem inCalendar_bounds {d : Calendar.Date} (h : d.inCalendar = true) :
    d.month < 10 ^ 2 ∧ d.day < 10 ^ 2 := by
  simp only [Calendar.Date.inCalendar, Bool.and_eq_true, decide_eq_true_eq] at h
  have hdays : Calendar.daysInMonth d.year d.month ≤ 31 := by
    unfold Calendar.daysInMonth
    split
    · split <;> decide
    all_goals decide
  omega

/-- The parts of a text in their order, for a moment that is given in universal time. -/
theorem ofChars?_of_parts {cs r₁ r₂ r₃ r₄ r₅ r₆ r₇ r₈ r₉ r₁₀ r₁₁ : List Char} {d : Calendar.Date}
    {hour minute second fraction : ℕ} {t : Instant} (hyear : year? cs = some (d.year, r₁))
    (hmark : mark? '-' r₁ = some r₂) (hmonth : number? 2 r₂ = some (d.month, r₃))
    (hmark' : mark? '-' r₃ = some r₄) (hday : number? 2 r₄ = some (d.day, 'T' :: r₅))
    (hhour : number? 2 r₅ = some (hour, r₆)) (hmark₁ : mark? ':' r₆ = some r₇)
    (hminute : number? 2 r₇ = some (minute, r₈)) (hmark₂ : mark? ':' r₈ = some r₉)
    (hsecond : number? 2 r₉ = some (second, r₁₀)) (hfraction : fraction? r₁₀ = some (fraction, r₁₁))
    (hoffset : offset? r₁₁ = some (0, [])) (hd : d.inCalendar = true)
    (htime : hour ≤ 23 ∧ minute ≤ 59 ∧ second ≤ 60)
    (hrange : firstDay ≤ Calendar.dayOfDate d ∧ Calendar.dayOfDate d ≤ lastDay)
    (hmake : ∀ here : ℤ, here = Calendar.dayOfDate d * 86400 + (hour * 3600 + minute * 60 +
      (second - if second = 60 then 1 else 0) : ℕ) - 0 →
      make? (here / 86400) (here - here / 86400 * 86400).toNat
        ((if second = 60 then 1 else 0) * 1000000000 + fraction) = some t) :
    ofChars? cs = some t := by
  have hguard : ∀ {p : Prop} [Decidable p], p → (guard p : Option Unit) = some () := fun hp =>
    if_pos hp
  unfold ofChars?
  refine Option.bind_eq_some_iff.mpr ⟨_, hyear, ?_⟩
  refine Option.bind_eq_some_iff.mpr ⟨_, hmark, ?_⟩
  refine Option.bind_eq_some_iff.mpr ⟨_, hmonth, ?_⟩
  refine Option.bind_eq_some_iff.mpr ⟨_, hmark', ?_⟩
  refine Option.bind_eq_some_iff.mpr ⟨_, hday, ?_⟩
  refine Option.bind_eq_some_iff.mpr ⟨r₅, rfl, ?_⟩
  refine Option.bind_eq_some_iff.mpr ⟨_, hhour, ?_⟩
  refine Option.bind_eq_some_iff.mpr ⟨_, hmark₁, ?_⟩
  refine Option.bind_eq_some_iff.mpr ⟨_, hminute, ?_⟩
  refine Option.bind_eq_some_iff.mpr ⟨_, hmark₂, ?_⟩
  refine Option.bind_eq_some_iff.mpr ⟨_, hsecond, ?_⟩
  refine Option.bind_eq_some_iff.mpr ⟨_, hfraction, ?_⟩
  refine Option.bind_eq_some_iff.mpr ⟨_, hoffset, ?_⟩
  refine Option.bind_eq_some_iff.mpr ⟨_, hguard rfl, ?_⟩
  refine Option.bind_eq_some_iff.mpr ⟨_, hguard hd, ?_⟩
  refine Option.bind_eq_some_iff.mpr ⟨_, hguard htime, ?_⟩
  refine Option.bind_eq_some_iff.mpr ⟨_, hguard hrange, ?_⟩
  exact hmake _ rfl

theorem make?_eq (t : Instant) : make? t.day t.second t.nanosecond = some t := by
  rw [make?, dif_pos t.valid]

/-- A leap second takes its second back from the nanoseconds. -/
theorem leap_split {second nanosecond : ℕ}
    (h : nanosecond < if second % 60 = 59 then 2000000000 else 1000000000) :
    second % 60 + nanosecond / 1000000000 ≤ 60 ∧
    ((second % 60 + nanosecond / 1000000000) -
      if second % 60 + nanosecond / 1000000000 = 60 then 1 else 0) = second % 60 ∧
    (if second % 60 + nanosecond / 1000000000 = 60 then 1 else 0) * 1000000000 +
      nanosecond % 1000000000 = nanosecond := by
  split at h
  · split <;> omega
  · split <;> omega

theorem ofChars?_write (t : Instant) : ofChars? (write t) = some t := by
  have hvalid := t.valid
  simp only [isValid, Bool.and_eq_true, decide_eq_true_eq] at hvalid
  obtain ⟨⟨⟨hfirst, hlast⟩, hsecond⟩, hnano⟩ := hvalid
  obtain ⟨hle, hseconds, hnanos⟩ := leap_split hnano
  have hcalendar := Calendar.dateOfDay_inCalendar t.day
  have hdays := Calendar.dayOfDate_dateOfDay t.day
  obtain ⟨hmonth, hday⟩ := inCalendar_bounds hcalendar
  have hwrite : write t = writeYear (Calendar.dateOfDay t.day).year ++ ('-' ::
      (padded 2 (Calendar.dateOfDay t.day).month ++ ('-' ::
      (padded 2 (Calendar.dateOfDay t.day).day ++ ('T' ::
      (padded 2 (t.second / 3600) ++ (':' :: (padded 2 (t.second / 60 % 60) ++ (':' ::
      (padded 2 (t.second % 60 + t.nanosecond / 1000000000) ++
      (writeFraction (t.nanosecond % 1000000000) ++ ['Z']))))))))))) := by
    simp [write, writeDate, writeTime]
  have hnumber : ∀ {n : ℕ} (rest : List Char), n < 10 ^ 2 →
    number? 2 (padded 2 n ++ rest) = some (n, rest) := fun rest hn =>
      number?_padded (by decide) hn rest
  rw [hwrite]
  refine ofChars?_of_parts (year?_writeYear _ (by simp [NoDigitNext])) (mark?_cons (by decide) _)
    (hnumber _ hmonth) (mark?_cons (by decide) _) (hnumber _ hday) (hnumber _ (by omega))
    (mark?_cons (by decide) _) (hnumber _ (by omega)) (mark?_cons (by decide) _)
    (hnumber _ (by omega)) (fraction?_writeFraction (by omega) (by simp [NoDigitNext]) (by simp))
    offset?_universal hcalendar ⟨by omega, by omega, hle⟩ (by rw [hdays]; exact ⟨hfirst, hlast⟩) ?_
  intro here hhere
  rw [hseconds, hdays, second_split] at hhere
  have htoday : here / 86400 = t.day := by omega
  have hrest : (here - t.day * 86400).toNat = t.second := by omega
  rw [htoday, hrest, hnanos, make?_eq]

theorem ofText?_toText (t : Instant) : ofText? t.toText = some t := by
  rw [ofText?, toText, String.toList_ofList, ofChars?_write]

end Instant

end Gamebook
