import Mathlib.Logic.Function.Iterate
import Gamebook.Proofs.Applying

namespace Gamebook

/-- What the second step leaves alone is settled by the first. -/
theorem iterate_settled {α γ : Type} {step : α → α} (view : α → γ)
    (h : ∀ a, view (step (step a)) = view (step a)) (n : Nat) (a : α) :
    view (step^[n + 1] a) = view (step a) := by
  induction n generalizing a with
  | zero => rfl
  | succ n ih =>
    calc view (step^[n + 2] a)
        = view (step^[n + 1] (step a)) := rfl
      _ = view (step (step a)) := ih (step a)
      _ = view (step a) := h a

namespace Effects

variable {e : Effects}

theorem keep_append (e : Effects) (items more : List String) :
    e.keep (items ++ more) = e.keep items ++ e.keep more := List.filter_append items more

theorem keep_keep (e : Effects) (items : List String) : e.keep (e.keep items) = e.keep items := by
  simp [keep]

theorem keep_replicate (e : Effects) (n : Nat) (items : List String) :
    e.keep (List.replicate n (e.keep items)).flatten = (List.replicate n (e.keep items)).flatten := by
  induction n with
  | zero => rfl
  | succ n ih => rw [List.replicate_succ, List.flatten_cons, keep_append, keep_keep, ih]

/-- The items gained before are looked through again, and those that are kept stay. -/
theorem iterate_inventory (e : Effects) (p : Progress) (n : Nat) :
    (e.apply^[n + 1] p).inventory =
      e.keep p.inventory ++ (List.replicate (n + 1) (e.keep e.gains)).flatten := by
  induction n with
  | zero =>
    rw [Function.iterate_one, apply_inventory, keep_append, List.replicate_one, List.flatten_singleton]
  | succ n ih =>
    rw [Function.iterate_succ_apply', apply_inventory, ih, keep_append, keep_append, keep_keep,
      keep_replicate, List.append_assoc, List.replicate_succ' (n := n + 1), List.flatten_concat]

theorem mem_apply_achievements_of_unlocks (p : Progress) {id : String} (h : id ∈ e.unlocks) :
    id ∈ (e.apply p).achievements := by
  rw [apply_achievements, fresh_eq]
  by_cases hheld : id ∈ p.achievements
  · exact List.mem_append_left _ hheld
  · refine List.mem_append_right _ (List.mem_eraseDups.mpr (List.mem_filter.mpr ⟨h, ?_⟩))
    simpa using hheld

theorem apply_apply_achievements (e : Effects) (p : Progress) :
    (e.apply (e.apply p)).achievements = (e.apply p).achievements := by
  have hheld : e.unlocks.filter (fun id => id ∉ (e.apply p).achievements) = [] := by
    refine List.filter_eq_nil_iff.mpr fun id hid => ?_
    simpa using mem_apply_achievements_of_unlocks p hid
  rw [apply_achievements e (e.apply p), fresh_eq, hheld, List.eraseDups_nil, List.append_nil]

/-- A variable that is assigned, that is set by its modification, or that is not written at all. -/
def Steady (e : Effects) (name : String) : Prop :=
  e.assignments.contains name = true ∨
    (∃ m, e.modifications.get? name = some m ∧ m.operation = .set) ∨
    e.assignments.get? name = none ∧ e.modifications.get? name = none

theorem Steady.after_after {name : String} (h : e.Steady name) (v : Option Value) :
    e.after name (e.after name v) = e.after name v := by
  rcases h with hassigned | ⟨m, hm, hset⟩ | ⟨hnone, hunmodified⟩
  · obtain ⟨a, ha⟩ := Option.isSome_iff_exists.mp hassigned
    simp [after, ha]
  · simp [after, hm, Modification.apply_of_set hset]
  · simp [after, hnone, hunmodified]

theorem Steady.apply_apply {name : String} (h : e.Steady name) (p : Progress) :
    (e.apply (e.apply p)).valueOf? name = (e.apply p).valueOf? name := by
  rw [apply_valueOf?, apply_valueOf?, h.after_after]

theorem steady_of_assigned
    (h : ∀ name m, e.modifications.get? name = some m → m.operation ≠ .set →
      e.assignments.contains name = true) (name : String) : e.Steady name := by
  by_cases hassigned : e.assignments.contains name = true
  · exact Or.inl hassigned
  · have hnone : e.assignments.get? name = none := by
      simpa [Dictionary.contains] using hassigned
    cases hm : e.modifications.get? name with
    | none => exact Or.inr (Or.inr ⟨hnone, hm⟩)
    | some m =>
      have hset : m.operation = .set := by
        by_contra hoperation
        exact hassigned (h name m hm hoperation)
      exact Or.inr (Or.inl ⟨m, hm, hset⟩)

/-- Effects that settle every variable and lose all that they gain change nothing a second time. -/
theorem apply_apply_of_steady (h : ∀ name, e.Steady name) (hgains : e.keep e.gains = [])
    (p : Progress) : e.apply (e.apply p) = e.apply p := by
  refine Progress.ext_valueOf? (apply_node e _) (fun name => (h name).apply_apply p) ?_
    (apply_history e _) (apply_apply_achievements e p)
  have hinventory : (e.apply p).inventory = e.keep p.inventory := by
    rw [apply_inventory, keep_append, hgains, List.append_nil]
  rw [apply_inventory e (e.apply p), keep_append, hgains, List.append_nil, hinventory, keep_keep]

/-- However often effects apply, of what was held before and what is gained each time all stays that is
not lost, and achievements and settled variables are as after the first time. -/
theorem apply_repeated (e : Effects) (p : Progress) :
    (∀ n, 1 ≤ n →
      (e.apply^[n] p).inventory =
        e.keep p.inventory ++ (List.replicate n (e.keep e.gains)).flatten ∧
      (e.apply^[n] p).achievements = (e.apply p).achievements ∧
      ∀ name, e.Steady name → (e.apply^[n] p).valueOf? name = (e.apply p).valueOf? name) ∧
    ((∀ name m, e.modifications.get? name = some m → m.operation ≠ .set →
        e.assignments.contains name = true) →
      (∀ item ∈ e.gains, item ∈ e.losses) → e.apply (e.apply p) = e.apply p) := by
  constructor
  · intro n hn
    obtain ⟨k, rfl⟩ : ∃ k, n = k + 1 := ⟨n - 1, by omega⟩
    refine ⟨iterate_inventory e p k, iterate_settled Progress.achievements (apply_apply_achievements e) k p, ?_⟩
    intro name hname
    exact iterate_settled (fun q => q.valueOf? name) hname.apply_apply k p
  · intro hassigned hlost
    have hgains : e.keep e.gains = [] :=
      List.filter_eq_nil_iff.mpr fun item hitem => by simpa using hlost item hitem
    exact apply_apply_of_steady (steady_of_assigned hassigned) hgains p

/-- A night's rest. It is told afresh how tired the player is, and the dew is gone when they wake. -/
def rest : Effects where
  assignments := Dictionary.empty.insert "strength" (.number 10)
  modifications := (Dictionary.empty.insert "strength" ⟨.subtract, .number 4⟩).insert "sky"
    ⟨.set, .text "clear"⟩
  gains := ["dew"]
  losses := ["mud", "dew"]
  unlocks := ["rested"]

theorem apply_repeated_fishing :
    (fishing.apply^[3] angler).inventory =
      ["knife", "cod", "cod", "cod", "cod", "cod", "cod"] ∧
    (fishing.apply^[3] angler).achievements = (fishing.apply angler).achievements ∧
    (fishing.apply^[3] angler).valueOf? "line" = (fishing.apply angler).valueOf? "line" ∧
    rest.apply (rest.apply angler) = rest.apply angler := by
  obtain ⟨hinventory, hachievements, hvalues⟩ := (apply_repeated fishing angler).1 3 (by decide)
  refine ⟨hinventory, hachievements, hvalues "line" (Or.inl rfl), ?_⟩
  refine (apply_repeated rest angler).2 (fun name m hm hoperation => ?_) (by decide)
  have hentry := Dictionary.get?_eq_some_iff.mp hm
  have hmodified : (name, m) ∈ [("sky", ⟨.set, .text "clear"⟩), ("strength", ⟨.subtract, .number 4⟩)] :=
    hentry
  rcases List.mem_cons.mp hmodified with hsky | hstrength
  · obtain ⟨-, rfl⟩ := Prod.mk.inj hsky
    exact absurd rfl hoperation
  · obtain ⟨rfl, -⟩ := Prod.mk.inj (List.mem_singleton.mp hstrength)
    rfl

end Effects

end Gamebook
