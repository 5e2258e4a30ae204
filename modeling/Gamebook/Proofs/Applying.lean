import Gamebook.Proofs.Events
import Gamebook.Proofs.Variables

namespace Gamebook

theorem fresh_eq (held ids : List String) :
    fresh held ids = (ids.filter fun id => id ∉ held).eraseDups := by
  induction ids generalizing held with
  | nil => rfl
  | cons id ids ih =>
    rw [fresh]
    by_cases hid : id ∈ held
    · rw [if_pos hid, ih, List.filter_cons_of_neg (by simpa using hid)]
    · have hrest : (ids.filter fun x => x ∉ held).filter (fun x => !x == id) =
          ids.filter fun x => x ∉ held ++ [id] := by
        rw [List.filter_filter]
        refine List.filter_congr fun x _ => ?_
        rw [Bool.eq_iff_iff]
        simp [and_comm]
      rw [if_neg hid, ih, List.filter_cons_of_pos (by simpa using hid), List.eraseDups_cons, hrest]

namespace Modification

/-- Where a value is computed, what is not set and what is no number count as zero. -/
theorem apply_of_no_number {m : Modification} (hm : m.operation ≠ .set) {v : Option Value}
    (hv : v.bind Value.number? = none) : m.apply v = m.apply (some (.number 0)) := by
  have hamount : Value.amount v = Value.amount (some (.number 0)) := by
    rw [Value.amount, hv]
    rfl
  cases hoperation : m.operation with
  | set => exact absurd hoperation hm
  | add | subtract | multiply => simp only [apply, hoperation, hamount]

theorem apply_of_set {m : Modification} (hm : m.operation = .set) (v : Option Value) :
    m.apply v = m.value := by
  rw [apply, hm]

end Modification

namespace Effects

/-- The items that are not lost. -/
def keep (e : Effects) (items : List String) : List String := items.filter fun item => item ∉ e.losses

/-- What becomes of a value under a name. -/
def after (e : Effects) (name : String) (v : Option Value) : Option Value :=
  let assigned := (e.assignments.get? name).or v
  ((e.modifications.get? name).map fun m => m.apply assigned).or assigned

/-- Effects written down as lists, applied in the order in which the entries stand in them. -/
def applyListed (assignments : List (String × Value)) (modifications : List (String × Modification))
    (gains losses unlocks : List String) (p : Progress) : Progress :=
  let p := Progress.rewrite Modification.apply modifications
    (Progress.rewrite (fun v _ => v) assignments p)
  let inventory := (p.inventory ++ gains).filter fun item => !losses.contains item
  applyUnlocks unlocks { p with inventory }

theorem apply_eq_applyListed (e : Effects) (p : Progress) : e.apply p =
    applyListed e.assignments.entries e.modifications.entries e.gains e.losses e.unlocks p := rfl

theorem applyUnlocks_keeps {γ : Type u} (view : Progress → γ)
    (hview : ∀ p ids, view { p with achievements := ids } = view p) (ids : List String)
    (p : Progress) : view (applyUnlocks ids p) = view p :=
  foldl_keeps view (fun p id => (p.unlock id).2) (Progress.unlock_keeps view hview) ids p

theorem apply_valueOf? (e : Effects) (p : Progress) (name : String) :
    (e.apply p).valueOf? name = e.after name (p.valueOf? name) := by
  let assigned := Progress.rewrite (fun v _ => v) e.assignments.entries p
  have hassigned : assigned.valueOf? name = (e.assignments.get? name).or (p.valueOf? name) := by
    rw [Progress.valueOf?_rewrite _ e.assignments.entries_nodup, Option.map_id']
    rfl
  calc (e.apply p).valueOf? name
      = (Progress.rewrite Modification.apply e.modifications.entries assigned).valueOf? name :=
        applyUnlocks_keeps (fun q => q.valueOf? name) (fun _ _ => rfl) e.unlocks _
    _ = ((e.modifications.get? name).map fun m => m.apply (assigned.valueOf? name)).or
          (assigned.valueOf? name) := Progress.valueOf?_rewrite _ e.modifications.entries_nodup _ _
    _ = e.after name (p.valueOf? name) := by rw [hassigned, after]

theorem apply_inventory (e : Effects) (p : Progress) :
    (e.apply p).inventory = e.keep (p.inventory ++ e.gains) := by
  have hvalues := values_keep Progress.inventory (fun _ _ => rfl) e p
  have hunlocks := applyUnlocks_keeps Progress.inventory (fun _ _ => rfl) e.unlocks
  rw [apply, hunlocks, hvalues, keep]
  simp

/-- How the entries are ordered, and how often and where a lost item is listed, does not show. -/
theorem applyListed_eq_apply {e : Effects} {assignments : List (String × Value)}
    {modifications : List (String × Modification)} {losses : List String}
    (hassignments : assignments.Perm e.assignments.entries)
    (hmodifications : modifications.Perm e.modifications.entries)
    (hlosses : ∀ item, item ∈ losses ↔ item ∈ e.losses) (p : Progress) :
    applyListed assignments modifications e.gains losses e.unlocks p = e.apply p := by
  have hlost : (fun item => !losses.contains item) = fun item => !e.losses.contains item := by
    funext item
    simp [hlosses]
  rw [apply_eq_applyListed, applyListed, applyListed, hlost,
    Progress.rewrite_perm _ hassignments e.assignments.entries_nodup,
    Progress.rewrite_perm _ hmodifications e.modifications.entries_nodup]

/-- Effects in full. A modification starts from the value that is assigned with it, or else from the one
that stood there before; other variables, the node and the history stay as they are. -/
theorem apply_settled (e : Effects) (p : Progress) :
    let next := e.apply p
    (∀ name m, e.modifications.get? name = some m → next.valueOf? name =
      some (m.apply ((e.assignments.get? name).or (p.valueOf? name)))) ∧
    (∀ m : Modification, m.operation ≠ .set → ∀ v : Option Value, v.bind Value.number? = none →
      m.apply v = m.apply (some (.number 0))) ∧
    (∀ name v, e.modifications.get? name = none → e.assignments.get? name = some v →
      next.valueOf? name = some v) ∧
    (∀ name, e.modifications.get? name = none → e.assignments.get? name = none →
      next.valueOf? name = p.valueOf? name) ∧
    next.inventory = (p.inventory ++ e.gains).filter (fun item => item ∉ e.losses) ∧
    next.achievements =
      p.achievements ++ (e.unlocks.filter fun id => id ∉ p.achievements).eraseDups ∧
    next.node = p.node ∧ next.history = p.history ∧
    ∀ assignments modifications losses, assignments.Perm e.assignments.entries →
      modifications.Perm e.modifications.entries → (∀ item, item ∈ losses ↔ item ∈ e.losses) →
      applyListed assignments modifications e.gains losses e.unlocks p = next := by
  intro next
  have hvalues : ∀ name, next.valueOf? name = e.after name (p.valueOf? name) := apply_valueOf? e p
  refine ⟨fun name m hm => ?_, fun m hm v hv => Modification.apply_of_no_number hm hv,
    fun name v hm ha => ?_, fun name hm ha => ?_, apply_inventory e p, ?_, apply_node e p,
    apply_history e p, fun _ _ _ ha hm hl => applyListed_eq_apply ha hm hl p⟩
  · simp [hvalues, after, hm]
  · simp [hvalues, after, hm, ha]
  · simp [hvalues, after, hm, ha]
  · rw [← fresh_eq]
    exact apply_achievements e p

/-- A day at sea. The boots are lost, those that are caught with them. -/
def fishing : Effects where
  assignments := (Dictionary.empty.insert "line" (.number 10)).insert "mood" (.text "calm")
  modifications := (Dictionary.empty.insert "line" ⟨.subtract, .number 4⟩).insert "fish"
    ⟨.add, .flag true⟩
  gains := ["cod", "boot", "cod"]
  losses := ["boot"]
  unlocks := ["angler", "sailor", "angler"]

def angler : Progress where
  node := "boat"
  values := (Dictionary.empty.insert "fish" (.text "none")).insert "mood" (.text "wild")
  inventory := ["boot", "knife"]
  history := ["quay", "boat"]
  achievements := ["sailor"]

theorem apply_settled_fishing :
    (fishing.apply angler).valueOf? "line" = some (.number 6) ∧
    (fishing.apply angler).valueOf? "fish" = some (.number 1) ∧
    (fishing.apply angler).valueOf? "mood" = some (.text "calm") ∧
    (fishing.apply angler).valueOf? "wind" = none ∧
    (fishing.apply angler).inventory = ["knife", "cod", "cod"] ∧
    (fishing.apply angler).achievements = ["sailor", "angler"] ∧
    applyListed fishing.assignments.entries.reverse fishing.modifications.entries.reverse
      fishing.gains ["boot", "boot"] fishing.unlocks angler = fishing.apply angler := by
  obtain ⟨hmodified, hzero, hassigned, hkept, hinventory, hachievements, -, -, hlisted⟩ :=
    apply_settled fishing angler
  refine ⟨hmodified "line" ⟨.subtract, .number 4⟩ rfl, ?_, hassigned "mood" _ rfl rfl,
    hkept "wind" rfl rfl, hinventory, ?_, ?_⟩
  · rw [hmodified "fish" ⟨.add, .flag true⟩ rfl]
    exact congrArg some (hzero _ (by decide) _ rfl)
  · rw [hachievements]
    decide +kernel
  · refine hlisted _ _ _ (List.reverse_perm _) (List.reverse_perm _) fun item => ?_
    simp [fishing]

end Effects

end Gamebook
