import Gamebook.Proofs.Markup.Cut

namespace Gamebook

theorem separator_notMem_split {separator : Char} {cs : List Char} :
    ∀ part ∈ (split separator cs).1 :: (split separator cs).2, separator ∉ part := by
  induction cs with
  | nil => simp [split]
  | cons c cs ih =>
    obtain ⟨hfirst, hothers⟩ := List.forall_mem_cons.mp ih
    by_cases h : c = separator
    · simpa [split, h] using ⟨hfirst, hothers⟩
    · simpa [split, h, Ne.symm h] using ⟨hfirst, hothers⟩

theorem split_of_notMem {separator : Char} {first : List Char} (h : separator ∉ first) :
    split separator first = (first, []) := by
  induction first with
  | nil => rfl
  | cons c cs ih =>
    obtain ⟨hc, hcs⟩ := not_or.mp (mt List.mem_cons.mpr h)
    simp [split, ih hcs, Ne.symm hc]

theorem split_append_separator {separator : Char} {first : List Char} (h : separator ∉ first)
    (rest : List Char) : split separator (first ++ separator :: rest) =
      (first, (split separator rest).1 :: (split separator rest).2) := by
  induction first with
  | nil => simp [split]
  | cons c cs ih =>
    obtain ⟨hc, hcs⟩ := not_or.mp (mt List.mem_cons.mpr h)
    simp [split, ih hcs, Ne.symm hc]

theorem split_join {separator : Char} {first : List Char} {others : List (List Char)}
    (h : ∀ part ∈ first :: others, separator ∉ part) :
    split separator (join separator first others) = (first, others) := by
  induction others generalizing first with
  | nil => simpa [join] using split_of_notMem (h first (by simp))
  | cons next others ih =>
    obtain ⟨hfirst, hothers⟩ := List.forall_mem_cons.mp h
    have hnext := ih hothers
    simp only [join, List.flatMap_cons] at hnext ⊢
    simp [split_append_separator hfirst, hnext]

theorem notMem_join {c separator : Char} (hc : c ≠ separator) {first : List Char}
    {others : List (List Char)} :
    c ∉ join separator first others ↔ ∀ part ∈ first :: others, c ∉ part := by
  simp [join, hc]

namespace Markup

section Reads

variable {α : Type u} (source : α → List Char) (literal : Char → α) (Directive : α → Prop)

/-- A text read from left to right. -/
inductive Reads : List Char → List α → Prop
  | nil : Reads [] []
  | directive {a : α} {rest : List Char} {as : List α} (ha : Directive a) (h : Reads rest as) :
    Reads (source a ++ rest) (a :: as)
  | literal {c : Char} {rest : List Char} {as : List α}
    (hc : ∀ a, Directive a → ¬source a <+: c :: rest) (h : Reads rest as) :
    Reads (c :: rest) (literal c :: as)

variable {source literal Directive}

theorem Reads.flatMap_source (hlit : ∀ c, source (literal c) = [c]) {cs : List Char} {as : List α}
    (h : Reads source literal Directive cs as) : as.flatMap source = cs := by
  induction h with
  | nil => rfl
  | directive _ _ ih => simp [ih]
  | literal _ _ ih => simp [ih, hlit]

/-- Wherever a directive stands it can be taken, so a text can be read to its end. -/
theorem exists_reads (hsource : ∀ a, Directive a → source a ≠ []) (cs : List Char) :
    ∃ as, Reads source literal Directive cs as := by
  induction hn : cs.length using Nat.strongRecOn generalizing cs with
  | ind n ih =>
    cases cs with
    | nil => exact ⟨[], .nil⟩
    | cons c cs =>
      subst hn
      by_cases hfound : ∃ a, Directive a ∧ source a <+: c :: cs
      · obtain ⟨a, ha, rest, heq⟩ := hfound
        have hpos := List.length_pos_iff.mpr (hsource a ha)
        have hlen := congrArg List.length heq
        rw [List.length_append] at hlen
        obtain ⟨as, has⟩ := ih rest.length (by omega) rest rfl
        exact ⟨a :: as, heq ▸ .directive ha has⟩
      · obtain ⟨as, has⟩ := ih cs.length (Nat.lt_succ_self _) cs rfl
        exact ⟨literal c :: as, .literal (fun a ha hp => hfound ⟨a, ha, hp⟩) has⟩

variable {parse : List Char → List α} {at? : List Char → Option (α × List Char)}

/-- A parser that takes the directive behind a brace if there is one reads every text, and no other
reading is possible. -/
theorem reads_iff_of_parse (hnil : parse [] = [])
    (hcons : ∀ c cs, parse (c :: cs) = if c = '{' then
      match at? cs with
      | some (a, rest) => a :: parse rest
      | none => literal c :: parse cs
      else literal c :: parse cs)
    (hat : ∀ cs a rest, at? cs = some (a, rest) ↔ Directive a ∧ '{' :: cs = source a ++ rest)
    (hbrace : ∀ a, Directive a → ∃ inner, source a = '{' :: inner) (cs : List Char) (as : List α) :
    Reads source literal Directive cs as ↔ as = parse cs := by
  constructor
  · intro h
    induction h with
    | nil => exact hnil.symm
    | @directive a rest as ha _ ih =>
      obtain ⟨inner, hinner⟩ := hbrace a ha
      have htake := (hat (inner ++ rest) a rest).mpr ⟨ha, by simp [hinner]⟩
      rw [hinner, List.cons_append, hcons, if_pos rfl, htake, ih]
    | @literal c rest as hc _ ih =>
      rw [hcons, ih]
      split
      next hbr =>
        cases htake : at? rest with
        | none => rfl
        | some found =>
          obtain ⟨a, rest'⟩ := found
          obtain ⟨ha, heq⟩ := (hat rest a rest').mp htake
          exact absurd ⟨rest', by rw [hbr, heq]⟩ (hc a ha)
      next => rfl
  · rintro rfl
    induction hn : cs.length using Nat.strongRecOn generalizing cs with
    | ind n ih =>
      cases cs with
      | nil => exact hnil ▸ Reads.nil
      | cons c cs =>
        subst hn
        have hrest := ih cs.length (by simp) cs rfl
        rw [hcons]
        split
        next hbr =>
          subst hbr
          cases htake : at? cs with
          | none =>
            refine Reads.literal ?_ hrest
            rintro a ha ⟨rest, heq⟩
            simp [(hat cs a rest).mpr ⟨ha, heq.symm⟩] at htake
          | some found =>
            obtain ⟨a, rest⟩ := found
            obtain ⟨ha, heq⟩ := (hat cs a rest).mp htake
            obtain ⟨inner, hinner⟩ := hbrace a ha
            rw [heq]
            refine Reads.directive ha (ih rest.length ?_ rest rfl)
            have hlen := congrArg List.length heq
            simp [hinner] at hlen
            simp only [List.length_cons]
            omega
        next hbr =>
          refine Reads.literal ?_ hrest
          rintro a ha ⟨rest, heq⟩
          obtain ⟨inner, hinner⟩ := hbrace a ha
          rw [hinner] at heq
          exact hbr (List.cons_eq_cons.mp heq).1.symm

end Reads

end Markup

end Gamebook
