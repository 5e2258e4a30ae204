import Gamebook.Markup
import Mathlib.Data.List.Infix

namespace Gamebook

namespace Markup

theorem cut?_append_eq {mark cs before rest : List Char}
    (h : cut? mark cs = some (before, rest)) : cs = before ++ mark ++ rest := by
  induction cs generalizing before with
  | nil =>
    rw [cut?] at h
    split at h
    next he =>
      cases h
      simpa using he
    next => simp at h
  | cons c cs ih =>
    rw [cut?] at h
    split at h
    next hm =>
      cases h
      exact (List.prefix_iff_eq_append.mp (List.isPrefixOf_iff_prefix.mp hm)).symm
    next =>
      obtain ⟨q, hq, hp⟩ := Option.map_eq_some_iff.mp h
      cases hp
      simp [ih hq]

theorem not_infix_of_cut? {mark cs before rest : List Char} (hne : mark ≠ [])
    (h : cut? mark cs = some (before, rest)) : ¬mark <:+: before := by
  induction cs generalizing before with
  | nil => simp [cut?, hne] at h
  | cons c cs ih =>
    have heq := cut?_append_eq h
    rw [cut?] at h
    split at h
    next =>
      cases h
      simpa using hne
    next hm =>
      obtain ⟨q, hq, hp⟩ := Option.map_eq_some_iff.mp h
      cases hp
      rw [List.infix_cons_iff]
      rintro (hpre | hin)
      · refine hm (List.isPrefixOf_iff_prefix.mpr ?_)
        rw [heq, List.append_assoc]
        exact hpre.trans (List.prefix_append _ _)
      · exact ih hq hin

/-- A mark cannot begin inside of a text without it and end behind that text. -/
theorem not_prefix_append_mark {m : Char} {ms before rest : List Char} (hm : m ∉ ms)
    (hb : before ≠ []) (h : ¬(m :: ms) <:+: before) :
    ¬(m :: ms) <+: before ++ (m :: ms) ++ rest := by
  rintro ⟨t, ht⟩
  rw [List.append_assoc] at ht
  rcases List.append_eq_append_iff.mp ht with ⟨as, hin, _⟩ | ⟨bs, hsplit, hrest⟩
  · exact h (hin ▸ (List.prefix_append (m :: ms) as).isInfix)
  · cases bs with
    | nil => exact h (by simp [hsplit])
    | cons b bs =>
      obtain ⟨c, cs, rfl⟩ := List.exists_cons_of_ne_nil hb
      obtain ⟨_, rfl⟩ := List.cons_eq_cons.mp hsplit
      obtain ⟨rfl, _⟩ := List.cons_eq_cons.mp hrest
      exact hm (by simp)

theorem cut?_eq_some_iff {m : Char} {ms cs before rest : List Char} (hm : m ∉ ms) :
    cut? (m :: ms) cs = some (before, rest) ↔
      cs = before ++ (m :: ms) ++ rest ∧ ¬(m :: ms) <:+: before := by
  constructor
  · exact fun h => ⟨cut?_append_eq h, not_infix_of_cut? (by simp) h⟩
  · rintro ⟨rfl, h⟩
    induction before with
    | nil => simp [cut?]
    | cons c before ih =>
      have hp : ¬(m :: ms) <+: c :: before ++ (m :: ms) ++ rest :=
        not_prefix_append_mark hm (List.cons_ne_nil c before) h
      have hin : ¬(m :: ms) <:+: before := fun hh => h (List.infix_cons hh)
      simp only [List.cons_append] at hp ⊢
      rw [cut?, if_neg (mt List.isPrefixOf_iff_prefix.mp hp), ih hin]
      rfl

theorem cut?_singleton_iff {m : Char} {cs before rest : List Char} :
    cut? [m] cs = some (before, rest) ↔ cs = before ++ m :: rest ∧ m ∉ before := by
  rw [cut?_eq_some_iff (by simp)]
  simp [List.singleton_infix_iff]

theorem cut?_singleton_eq_none_iff {m : Char} {cs : List Char} : cut? [m] cs = none ↔ m ∉ cs := by
  constructor
  · intro h hmem
    obtain ⟨before, rest, hcs⟩ := List.eq_append_cons_of_mem hmem
    rw [cut?_singleton_iff.mpr hcs] at h
    cases h
  · intro h
    refine Option.eq_none_iff_forall_ne_some.mpr fun found hfound => ?_
    obtain ⟨rfl, -⟩ := cut?_singleton_iff.mp hfound
    exact h (by simp)

end Markup

end Gamebook
