import Gamebook.Proofs.Chance

namespace Gamebook

namespace Condition

variable {c : Condition} {cs xs ys : List Condition} {p : Progress}

theorem evaluateAll_append (xs ys : List Condition) (p : Progress) (g : Generator) :
    evaluateAll (xs ++ ys) p g =
      match evaluateAll xs p g with
      | (true, next) => evaluateAll ys p next
      | (false, next) => (false, next) := by
  induction xs generalizing g with
  | nil => rfl
  | cons c xs ih =>
    rw [List.cons_append, evaluateAll, evaluateAll]
    split
    next next _ => exact ih next
    next => rfl

/-- What always fails keeps the list from passing, wherever it stands. -/
theorem evaluateAll_of_closed (hc : c ∈ cs) (h : ∀ g, (c.evaluate p g).1 = false)
    (g : Generator) : (evaluateAll cs p g).1 = false := by
  induction cs generalizing g with
  | nil => cases hc
  | cons first cs ih =>
    rw [evaluateAll_cons_fst]
    rcases List.mem_cons.mp hc with rfl | hrest
    · rw [h, Bool.false_and]
    · rw [ih hrest, Bool.and_false]

theorem evaluateAll_of_open (h : ∀ c ∈ cs, ∀ g, (c.evaluate p g).1 = true) (g : Generator) :
    (evaluateAll cs p g).1 = true := by
  induction cs generalizing g with
  | nil => rfl
  | cons first cs ih =>
    obtain ⟨hfirst, hcs⟩ := List.forall_mem_cons.mp h
    rw [evaluateAll_cons_fst, hfirst, ih hcs, Bool.true_and]

/-- A condition that no draw has a part in fails, or a draw that cannot succeed. -/
inductive Refuted (p : Progress) : Condition → Prop
  | settled {c : Condition} {g : Generator} (hc : ∀ probability, c ≠ .chance probability)
    (h : (c.evaluate p g).1 = false) : Refuted p c
  | hopeless {probability : Option Float} (h : probability.getD evenChance ≤ 0) :
    Refuted p (.chance probability)

/-- A condition that no draw has a part in passes, or a draw that cannot fail. -/
inductive Assured (p : Progress) : Condition → Prop
  | settled {c : Condition} {g : Generator} (hc : ∀ probability, c ≠ .chance probability)
    (h : (c.evaluate p g).1 = true) : Assured p c
  | safe {probability : Option Float} (h : 1 ≤ probability.getD evenChance) :
    Assured p (.chance probability)

theorem not_isUncertain_of_settled (hc : ∀ probability, c ≠ .chance probability) :
    ¬c.IsUncertain := by
  cases c with
  | chance probability => exact absurd rfl (hc probability)
  | _ => exact id

theorem Refuted.evaluate_eq (h : Refuted p c) (g : Generator) : (c.evaluate p g).1 = false := by
  cases h with
  | @settled _ g' hc h => rw [evaluate_fst (not_isUncertain_of_settled hc) p g g', h]
  | hopeless h => exact Generator.succeeds_of_not_pos (Binary64.not_lt_of_le h) g

theorem Assured.evaluate_eq (h : Assured p c) (g : Generator) : (c.evaluate p g).1 = true := by
  cases h with
  | @settled _ g' hc h => rw [evaluate_fst (not_isUncertain_of_settled hc) p g g', h]
  | safe h =>
    have hpos : (0 : Float) < 1 := by decide +kernel
    exact Generator.succeeds_of_one_le (Binary64.lt_of_lt_of_le hpos h) (Binary64.not_lt_of_le h) g

/-- A condition without chance in a list that passes has passed, and would have with any draws. -/
theorem evaluate_of_evaluateAll (h : ¬c.IsUncertain) (hc : c ∈ cs) {g : Generator}
    (hpass : (evaluateAll cs p g).1 = true) (g' : Generator) : (c.evaluate p g').1 = true := by
  cases hclosed : (c.evaluate p g').1 with
  | true => rfl
  | false =>
    have hfail : ∀ g, (c.evaluate p g).1 = false := fun g => by rw [evaluate_fst h p g g', hclosed]
    rw [evaluateAll_of_closed hc hfail] at hpass
    cases hpass

/-- Without chance a list passes when all of its conditions do. -/
theorem evaluateAll_iff (h : ∀ c ∈ cs, ¬c.IsUncertain) (g g' : Generator) :
    (evaluateAll cs p g).1 = true ↔ ∀ c ∈ cs, (c.evaluate p g').1 = true := by
  constructor
  · exact fun hpass c hc => evaluate_of_evaluateAll (h c hc) hc hpass g'
  · intro hopen
    have hfree : ∀ c ∈ cs, ∀ g, (c.evaluate p g).1 = true := by
      intro c hc g
      rw [evaluate_fst (h c hc) p g g', hopen c hc]
    exact evaluateAll_of_open hfree g

theorem evaluateAll_of_subset (h : ∀ c ∈ xs, ¬c.IsUncertain) (hsub : xs ⊆ ys) {g : Generator}
    (hpass : (evaluateAll ys p g).1 = true) (g' : Generator) : (evaluateAll xs p g').1 = true :=
  (evaluateAll_iff h g' g').mpr fun c hc => evaluate_of_evaluateAll (h c hc) (hsub hc) hpass g'

/-- Gates are conjunctions. Two lists in a row pass when the first does and then, with the generator that it
leaves, the second; one condition that cannot pass closes a gate, and one of which none can fail is open. Where
nothing is left to chance it is all the same what is drawn, in which order the conditions stand and how often, and
more conditions never open a gate. -/
theorem gates_conjoin (p : Progress) :
    (∀ xs ys g, (evaluateAll (xs ++ ys) p g).1 = true ↔
      (evaluateAll xs p g).1 = true ∧ (evaluateAll ys p (evaluateAll xs p g).2).1 = true) ∧
    (∀ cs, (∃ c ∈ cs, Refuted p c) → ∀ g, (evaluateAll cs p g).1 = false) ∧
    (∀ cs, (∀ c ∈ cs, Assured p c) → ∀ g, (evaluateAll cs p g).1 = true) ∧
    ∀ xs, (∀ c ∈ xs, ¬c.IsUncertain) →
      (∀ g g', (evaluateAll xs p g).1 = (evaluateAll xs p g').1) ∧
      (∀ ys, (∀ c, c ∈ ys ↔ c ∈ xs) → ∀ g, (evaluateAll ys p g).1 = (evaluateAll xs p g).1) ∧
      ∀ ys, xs ⊆ ys → ∀ g g', (evaluateAll ys p g).1 = true → (evaluateAll xs p g').1 = true := by
  refine ⟨fun xs ys g => ?_, ?_, ?_, fun xs hxs => ⟨evaluateAll_fst hxs p, ?_, ?_⟩⟩
  · rw [evaluateAll_append]
    split
    next next h => simp [h]
    next next h => simp [h]
  · rintro cs ⟨c, hc, hrefuted⟩
    exact evaluateAll_of_closed hc hrefuted.evaluate_eq
  · exact fun cs h => evaluateAll_of_open fun c hc => (h c hc).evaluate_eq
  · intro ys hsame g
    have hys : ∀ c ∈ ys, ¬c.IsUncertain := fun c hc => hxs c ((hsame c).mp hc)
    rw [Bool.eq_iff_iff]
    constructor
    · exact fun hpass => evaluateAll_of_subset hxs (fun c hc => (hsame c).mpr hc) hpass g
    · exact fun hpass => evaluateAll_of_subset hys (fun c hc => (hsame c).mp hc) hpass g
  · exact fun ys hsub g g' hpass => evaluateAll_of_subset hxs hsub hpass g'

/-- A causeway for whoever carries a lamp while the tide is low. The draw cannot fail. -/
def causeway : List Condition :=
  [.carries .has "lamp", .chance (some 1), .compares "tide" .below (some (.number 3)), .unknown]

def lampBearer : Progress where
  node := "shore"
  values := Dictionary.empty.insert "tide" (.text "2")
  inventory := ["lamp"]
  history := ["shore"]
  achievements := []

theorem gates_conjoin_causeway : (∀ c ∈ causeway, ¬c.IsUncertain) ∧
    (∀ g, (evaluateAll causeway lampBearer g).1 = true) ∧
    (∀ g, (evaluateAll (causeway ++ [.chance none, .unlocked "wader"]) lampBearer g).1 = false) ∧
    (∀ g, (evaluateAll (.chance (some 0) :: causeway) lampBearer g).1 = false) ∧
    (∀ g, (evaluateAll (causeway.reverse ++ causeway) lampBearer g).1 = true) ∧
    ∀ g g', (evaluateAll (.chance none :: causeway) lampBearer g).1 = true →
      (evaluateAll causeway lampBearer g').1 = true := by
  obtain ⟨-, hclosed, hopen, hcertain⟩ := gates_conjoin lampBearer
  have hfree : ∀ c ∈ causeway, ¬c.IsUncertain := by decide +kernel
  obtain ⟨-, hsame, hmore⟩ := hcertain causeway hfree
  have hpass : ∀ g, (evaluateAll causeway lampBearer g).1 = true := by
    refine hopen causeway ?_
    simp only [causeway, List.forall_mem_cons]
    exact ⟨.settled (g := .ofSeed 7) (fun _ => nofun) (by decide +kernel), .safe (by decide +kernel),
      .settled (g := .ofSeed 7) (fun _ => nofun) (by decide +kernel),
      .settled (g := .ofSeed 7) (fun _ => nofun) rfl, nofun⟩
  refine ⟨hfree, hpass, hclosed _ ⟨.unlocked "wader", by simp, ?_⟩,
    hclosed _ ⟨.chance (some 0), by simp, .hopeless (by decide +kernel)⟩, fun g => ?_,
    hmore _ (List.subset_cons_self _ _)⟩
  · exact .settled (g := .ofSeed 7) (fun _ => nofun) (by decide +kernel)
  · rw [hsame _ (by simp) g, hpass]

end Condition

end Gamebook
