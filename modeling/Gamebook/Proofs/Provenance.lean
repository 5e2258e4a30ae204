import Gamebook.Proofs.Applying
import Gamebook.Proofs.Conjunction
import Gamebook.Proofs.Json.Settling
import Gamebook.Proofs.Paying

namespace Gamebook

namespace Progress

def Binds (p : Progress) (name : String) : Prop := (p.valueOf? name).isSome = true

theorem binds_reread {p : Progress} {values : Dictionary Value} {name : String}
    (h : p.values.reread? = some values) :
    ({ p with values } : Progress).Binds name ↔ p.Binds name := by
  obtain ⟨es, hes, rfl⟩ := Option.map_eq_some_iff.mp h
  have hnames : es.map Prod.fst = p.values.entries.map Prod.fst := by
    refine List.forall₂_eq_eq_eq ▸ ?_
    rw [List.forall₂_map_left_iff, List.forall₂_map_right_iff]
    refine (mapM_eq_some_iff.mp hes).flip.imp fun e e' he => ?_
    obtain ⟨v, _, rfl⟩ := Option.map_eq_some_iff.mp he
    rfl
  change ((Dictionary.ofList es).get? name).isSome = true ↔ (p.values.get? name).isSome = true
  rw [← Dictionary.mem_names_iff, Dictionary.mem_names_ofList, hnames, ← Dictionary.mem_names_iff]
  rfl

end Progress

namespace Effects

/-- The variables that effects write. -/
def written (e : Effects) : List String := e.assignments.names ++ e.modifications.names

variable {p : Progress}

theorem binds_apply (e : Effects) {name : String} :
    (e.apply p).Binds name ↔ p.Binds name ∨ name ∈ e.written := by
  rw [Progress.Binds, apply_valueOf?, after, Option.isSome_or, Option.isSome_or, Option.isSome_map,
    written, List.mem_append, Dictionary.mem_names_iff, Dictionary.mem_names_iff, Progress.Binds]
  simp only [Bool.or_eq_true]
  tauto

theorem mem_apply_inventory {e : Effects} {item : String} (h : item ∈ (e.apply p).inventory) :
    item ∈ p.inventory ∨ item ∈ e.gains := by
  rw [apply_inventory] at h
  exact List.mem_append.mp (List.mem_of_mem_filter h)

theorem mem_apply_achievements {e : Effects} {id : String} (h : id ∈ (e.apply p).achievements) :
    id ∈ p.achievements ∨ id ∈ e.unlocks := by
  rw [apply_achievements] at h
  exact (List.mem_append.mp h).imp_right mem_of_mem_fresh

end Effects

namespace Cost

variable {p : Progress}

theorem binds_apply (c : Cost) {name : String} :
    (c.apply p).Binds name ↔ p.Binds name ∨ name ∈ c.amounts.names := by
  rw [Progress.Binds, apply_valueOf?, Option.isSome_or, Option.isSome_map,
    Dictionary.mem_names_iff, Progress.Binds]
  simp only [Bool.or_eq_true]
  exact or_comm

theorem mem_apply_inventory {c : Cost} {item : String} (h : item ∈ (c.apply p).inventory) :
    item ∈ p.inventory := by
  rw [apply_inventory] at h
  exact List.diff_subset _ _ h

end Cost

/-- All that applies where a node is entered or left by a choice. -/
def Node.effectSets (n : Node) : List Effects := n.effects.toList ++ n.choices.filterMap (·.effects)

def Node.costs (n : Node) : List Cost := n.choices.filterMap (·.cost)

/-- The nodes that were visited. -/
def Story.visited (s : Story) (p : Progress) : List Node := p.history.filterMap s.nodes.get?

namespace Playthrough

/-- Something that a player has, with the names that effects and costs may bring to it. -/
structure Traced (has : Progress → String → Prop) (given : Effects → List String)
    (charged : Cost → List String) : Prop where
  effects : ∀ p e x, has (Effects.apply e p) x → has p x ∨ x ∈ given e
  cost : ∀ p c x, has (Cost.apply c p) x → has p x ∨ x ∈ charged c
  visit : ∀ p id x, has (p.visit id) x → has p x
  reread : ∀ p values x, p.values.reread? = some values → has { p with values } x → has p x

/-- All that a player has was there when the story opened, or was brought by a node visited. -/
def Explained (story : Story) (has : Progress → String → Prop) (given : Effects → List String)
    (charged : Cost → List String) (p : Progress) : Prop :=
  ∀ x, has p x → has story.opening x ∨ ∃ n ∈ story.visited p,
    x ∈ n.effectSets.flatMap given ++ n.costs.flatMap charged

theorem traced_inventory : Traced (fun p item => item ∈ p.inventory) Effects.gains fun _ => [] where
  effects _ _ _ := Effects.mem_apply_inventory
  cost _ _ _ h := .inl (Cost.mem_apply_inventory h)
  visit _ _ _ h := h
  reread _ _ _ _ h := h

theorem traced_achievements :
    Traced (fun p id => id ∈ p.achievements) Effects.unlocks fun _ => [] where
  effects _ _ _ := Effects.mem_apply_achievements
  cost p c _ h := .inl (Cost.paid_achievements (some c) p ▸ h)
  visit _ _ _ h := h
  reread _ _ _ _ h := h

theorem traced_binds : Traced Progress.Binds Effects.written (·.amounts.names) where
  effects _ e _ := (Effects.binds_apply e).mp
  cost _ c _ := (Cost.binds_apply c).mp
  visit _ _ _ h := h
  reread _ _ _ hv := (Progress.binds_reread hv).mp

variable {story : Story} {has : Progress → String → Prop} {given : Effects → List String}
  {charged : Cost → List String}

theorem Traced.applied (h : Traced has given charged) {effects : Option Effects} {p : Progress}
    {x : String} (hx : has (Effects.applied effects p) x) :
    has p x ∨ ∃ e ∈ effects, x ∈ given e := by
  cases effects with
  | none => exact .inl hx
  | some e => exact (h.effects p e x hx).imp_right fun he => ⟨e, rfl, he⟩

theorem Traced.paid (h : Traced has given charged) {cost : Option Cost} {p : Progress} {x : String}
    (hx : has (Cost.paid cost p) x) : has p x ∨ ∃ c ∈ cost, x ∈ charged c := by
  cases cost with
  | none => exact .inl hx
  | some c => exact (h.cost p c x hx).imp_right fun hc => ⟨c, rfl, hc⟩

/-- More visits explain more. -/
theorem Explained.more {p next : Progress} {x : String} (h : Explained story has given charged p)
    (hvisited : story.visited p ⊆ story.visited next) (hx : has p x) :
    has story.opening x ∨ ∃ n ∈ story.visited next,
      x ∈ n.effectSets.flatMap given ++ n.costs.flatMap charged :=
  (h x hx).imp_right fun ⟨n, hn, hbrought⟩ => ⟨n, hvisited hn, hbrought⟩

/-- A choice brings what its effects give and its cost names. -/
theorem Explained.leave (ht : Traced has given charged) {p : Progress} {node : Node} {c : Choice}
    (h : Explained story has given charged p) (hnode : node ∈ story.visited p)
    (hc : c ∈ node.choices) :
    Explained story has given charged (Effects.applied c.effects (Cost.paid c.cost p)) := by
  have hvisited : story.visited (Effects.applied c.effects (Cost.paid c.cost p)) =
      story.visited p := by simp [Story.visited]
  intro x hx
  rcases ht.applied hx with hx | ⟨e, he, hgiven⟩
  · rcases ht.paid hx with hx | ⟨cost, hcost, hcharged⟩
    · exact h.more (hvisited ▸ List.Subset.refl _) hx
    · have hmem : cost ∈ node.costs := List.mem_filterMap.mpr ⟨c, hc, hcost⟩
      exact .inr ⟨node, hvisited ▸ hnode,
        List.mem_append_right _ (List.mem_flatMap.mpr ⟨cost, hmem, hcharged⟩)⟩
  · have hmem : e ∈ node.effectSets :=
      List.mem_append_right _ (List.mem_filterMap.mpr ⟨c, hc, he⟩)
    exact .inr ⟨node, hvisited ▸ hnode,
      List.mem_append_left _ (List.mem_flatMap.mpr ⟨e, hmem, hgiven⟩)⟩

/-- A node that is entered brings what its effects give. -/
theorem Explained.enter (ht : Traced has given charged) {p : Progress} {id : String} {n : Node}
    (h : Explained story has given charged p) (hn : story.nodes.get? id = some n) :
    Explained story has given charged (Effects.applied n.effects (p.visit id)) := by
  have hvisited : story.visited (Effects.applied n.effects (p.visit id)) =
      story.visited p ++ [n] := by simp [Story.visited, Progress.visit, hn]
  intro x hx
  rcases ht.applied hx with hx | ⟨e, he, hgiven⟩
  · exact h.more (hvisited ▸ List.subset_append_left _ _) (ht.visit p id x hx)
  · have hmem : e ∈ n.effectSets := List.mem_append_left _ (Option.mem_toList.mpr he)
    exact .inr ⟨n, hvisited ▸ List.mem_append_right _ List.mem_cons_self,
      List.mem_append_left _ (List.mem_flatMap.mpr ⟨e, hmem, hgiven⟩)⟩

/-- The player stands on the last node visited and has nothing that is not explained. -/
structure Accounted (story : Story) (has : Progress → String → Prop) (given : Effects → List String)
    (charged : Cost → List String) (t : Playthrough) : Prop where
  story_eq : t.story = story
  standing : t.progress.node ∈ t.progress.history
  explained : Explained story has given charged t.progress

theorem standing_applied (effects : Option Effects) (p : Progress) (id : String) :
    (Effects.applied effects (p.visit id)).node ∈ (Effects.applied effects (p.visit id)).history := by
  simp [Progress.visit]

theorem Step.accounted (ht : Traced has given charged) {t next : Playthrough} {c : Call} {a : Answer}
    (h : Step t c a next) (hs : Accounted story has given charged t) :
    Accounted story has given charged next := by
  obtain ⟨rfl, hstanding, hexplained⟩ := hs
  have hopening : Explained t.story has given charged t.story.opening := fun _ hx => .inl hx
  cases h with
  | failed => exact ⟨rfl, hstanding, hexplained⟩
  | seen => exact ⟨rfl, hstanding, hexplained⟩
  | @chosen _ node target c _ _ hn _ hc htarget =>
    have hvisited : node ∈ t.story.visited t.progress :=
      List.mem_filterMap.mpr ⟨_, hstanding, currentNode_eq_ok_iff.mp hn⟩
    exact ⟨rfl, standing_applied .., (hexplained.leave ht hvisited hc.mem).enter ht htarget⟩
  | @reset n _ hn => exact ⟨rfl, standing_applied .., hopening.enter ht hn⟩
  | @resumed _ _ _ values n hv hn =>
    have hreread : Explained t.story has given charged { t.progress with values } :=
      fun x hx => hexplained x (ht.reread _ _ x hv hx)
    exact ⟨rfl, standing_applied .., hreread.enter ht hn⟩

variable {settings : Settings} {g : Generator} {t₀ : Playthrough}

theorem Traced.run (ht : Traced has given charged) (h : start story none settings g = .ok t₀)
    (calls : List Call) : Explained story has given charged (t₀.run calls).2.progress := by
  obtain ⟨n, hn, rfl⟩ := start_eq_ok_iff.mp h
  have hopening : Explained story has given charged story.opening := fun _ hx => .inl hx
  have hbegun : Accounted story has given charged (begun story settings story.opening _ n g) :=
    ⟨rfl, standing_applied .., hopening.enter ht hn⟩
  exact (run_keeps (Step.accounted ht) hbegun calls).explained

/-- A variable that is bound stays bound until a reset. -/
theorem binds_perform {t : Playthrough} {c : Call} {name : String}
    (hreset : .reset ∉ (deedsDone [c] [(t.perform c).1]).map Prod.fst) (h : t.progress.Binds name) :
    (t.perform c).2.progress.Binds name := by
  have happlied : ∀ (effects : Option Effects) {p : Progress}, p.Binds name →
      (Effects.applied effects p).Binds name := by
    intro effects p hp
    cases effects with
    | none => exact hp
    | some e => exact (Effects.binds_apply e).mpr (.inl hp)
  have hstep := step_perform t c
  generalize (t.perform c).1 = a at hreset hstep
  generalize (t.perform c).2 = next at hstep ⊢
  cases hstep with
  | failed => exact h
  | seen => exact h
  | @chosen _ _ target c =>
    have hpaid : (Cost.paid c.cost t.progress).Binds name := by
      cases c.cost with
      | none => exact h
      | some cost => exact (Cost.binds_apply cost).mpr (.inl h)
    exact happlied target.effects (happlied c.effects hpaid)
  | reset => exact absurd (by simp [deedsDone, Call.deed?, Answer.move?]) hreset
  | @resumed _ _ _ _ n hv => exact happlied n.effects ((Progress.binds_reread hv).mpr h)

theorem binds_run {t : Playthrough} {calls : List Call} {name : String}
    (hreset : .reset ∉ (deedsDone calls (t.run calls).1).map Prod.fst) (h : t.progress.Binds name) :
    (t.run calls).2.progress.Binds name := by
  induction calls generalizing t with
  | nil => exact h
  | cons c cs ih =>
    rw [run, deedsDone_split, List.map_append, List.mem_append, not_or] at hreset
    exact ih hreset.2 (binds_perform hreset.1 h)

end Playthrough

namespace Condition

/-- A gate that asks for an item is closed to whoever does not hold it. -/
theorem evaluateAll_of_lacking {gate : List Condition} {item : String} {p : Progress}
    (hgate : .carries .has item ∈ gate) (h : item ∉ p.inventory) (g : Generator) :
    (evaluateAll gate p g).1 = false :=
  evaluateAll_of_closed hgate (fun _ => by simpa [evaluate, Progress.holdsItem] using h) g

theorem evaluateAll_of_locked {gate : List Condition} {id : String} {p : Progress}
    (hgate : .unlocked id ∈ gate) (h : id ∉ p.achievements) (g : Generator) :
    (evaluateAll gate p g).1 = false :=
  evaluateAll_of_closed hgate (fun _ => by simpa [evaluate, Progress.hasAchievement] using h) g

end Condition

namespace Story

variable {s : Story}

theorem mem_visited_iff {p : Progress} {n : Node} :
    n ∈ s.visited p ↔ ∃ id ∈ p.history, s.nodes.get? id = some n := List.mem_filterMap

theorem mem_values_of_visited {p : Progress} {n : Node} (h : n ∈ s.visited p) :
    n ∈ s.nodes.values := by
  obtain ⟨id, _, hn⟩ := mem_visited_iff.mp h
  exact Dictionary.mem_values_iff.mpr ⟨id, hn⟩

/-- A new game binds the variables with an initial value. -/
theorem binds_opening {name : String} (h : s.opening.Binds name) :
    ∃ v, s.initialValues.get? name = some (some v) := by
  obtain ⟨v, hv⟩ := Option.isSome_iff_exists.mp h
  obtain ⟨e, he, hpicked⟩ := List.mem_filterMap.mp (Dictionary.get?_eq_some_iff.mp hv)
  obtain ⟨_, hvalue, heq⟩ := Option.map_eq_some_iff.mp hpicked
  cases heq
  exact ⟨v, Dictionary.get?_eq_some_iff.mpr (hvalue ▸ he)⟩

end Story

namespace Playthrough

variable {story : Story} {settings : Settings} {g : Generator}

theorem items_explained {t₀ : Playthrough} (h : start story none settings g = .ok t₀)
    (calls : List Call) {item : String} (hitem : item ∈ (t₀.run calls).2.progress.inventory) :
    ∃ n ∈ story.visited (t₀.run calls).2.progress, ∃ e ∈ n.effectSets, item ∈ e.gains := by
  rcases traced_inventory.run h calls item hitem with hopening | ⟨n, hn, hbrought⟩
  · cases hopening
  · exact ⟨n, hn, by simpa using hbrought⟩

theorem achievements_explained {t₀ : Playthrough} (h : start story none settings g = .ok t₀)
    (calls : List Call) {id : String} (hid : id ∈ (t₀.run calls).2.progress.achievements) :
    ∃ n ∈ story.visited (t₀.run calls).2.progress, ∃ e ∈ n.effectSets, id ∈ e.unlocks := by
  rcases traced_achievements.run h calls id hid with hopening | ⟨n, hn, hbrought⟩
  · cases hopening
  · exact ⟨n, hn, by simpa using hbrought⟩

/-- In a new game nothing comes from nowhere. Items, achievements and variables are brought by effects or
costs of the nodes visited and of their choices, unless a variable has an initial value; a variable that is
bound stays bound until a reset. So a gate stays closed that asks for an item that no effects give or for an
achievement that none unlock. -/
theorem nothing_from_nowhere {t₀ : Playthrough} (h : start story none settings g = .ok t₀)
    (calls : List Call) :
    let t := (t₀.run calls).2
    (∀ item ∈ t.progress.inventory,
      ∃ n ∈ story.visited t.progress, ∃ e ∈ n.effectSets, item ∈ e.gains) ∧
    (∀ id ∈ t.progress.achievements,
      ∃ n ∈ story.visited t.progress, ∃ e ∈ n.effectSets, id ∈ e.unlocks) ∧
    (∀ name, (t.progress.valueOf? name).isSome = true →
      (∃ v, story.initialValues.get? name = some (some v)) ∨ ∃ n ∈ story.visited t.progress,
        (∃ e ∈ n.effectSets, name ∈ e.assignments.names ∨ name ∈ e.modifications.names) ∨
          ∃ cost ∈ n.costs, name ∈ cost.amounts.names) ∧
    (∀ more name, .reset ∉ (deedsDone more (t.run more).1).map Prod.fst →
      (t.progress.valueOf? name).isSome = true →
      ((t.run more).2.progress.valueOf? name).isSome = true) ∧
    (∀ item, (∀ n ∈ story.nodes.values, ∀ e ∈ n.effectSets, item ∉ e.gains) →
      ∀ gate : List Condition, .carries .has item ∈ gate →
      ∀ g', (Condition.evaluateAll gate t.progress g').1 = false) ∧
    (∀ id, (∀ n ∈ story.nodes.values, ∀ e ∈ n.effectSets, id ∉ e.unlocks) →
      ∀ gate : List Condition, .unlocked id ∈ gate →
      ∀ g', (Condition.evaluateAll gate t.progress g').1 = false) := by
  intro t
  refine ⟨fun item => items_explained h calls, fun id => achievements_explained h calls, ?_,
    fun more name hreset hbound => binds_run hreset hbound, ?_, ?_⟩
  · intro name hbound
    refine (traced_binds.run h calls name hbound).imp Story.binds_opening ?_
    rintro ⟨n, hn, hbrought⟩
    refine ⟨n, hn, (List.mem_append.mp hbrought).imp (fun hwritten => ?_) List.mem_flatMap.mp⟩
    obtain ⟨e, he, hname⟩ := List.mem_flatMap.mp hwritten
    exact ⟨e, he, List.mem_append.mp hname⟩
  · intro item hnone gate hgate
    refine Condition.evaluateAll_of_lacking hgate fun hitem => ?_
    obtain ⟨n, hn, e, he, hgiven⟩ := items_explained h calls hitem
    exact hnone n (Story.mem_values_of_visited hn) e he hgiven
  · intro id hnone gate hgate
    refine Condition.evaluateAll_of_locked hgate fun hid => ?_
    obtain ⟨n, hn, e, he, hgiven⟩ := achievements_explained h calls hid
    exact hnone n (Story.mem_values_of_visited hn) e he hgiven

/-- Reaping is tiring work, and only whoever pays in gold gets the flour. -/
def field : Node :=
  ⟨"field", none, ⟨"", none, none⟩,
    [⟨"reap", "Reap", "mill", ⟨[], []⟩,
      some ⟨Dictionary.empty.insert "tired" (.flag true), .empty, ["wheat", "straw"], ["straw"], []⟩,
      none⟩], none, false⟩

def mill : Node :=
  ⟨"mill", none, ⟨"", none, none⟩,
    [⟨"pay", "Pay", "field", ⟨[], [.carries .has "gold"]⟩, none, some ⟨.empty, ["gold"]⟩⟩],
    some ⟨.empty, .empty, [], [], ["miller"]⟩, false⟩

def harvest : Story :=
  ⟨"field", (Dictionary.empty.insert "field" field).insert "mill" mill, .empty, .empty, .empty, .empty⟩

theorem nothing_from_nowhere_harvest : ∃ t₀, start harvest none {} (.ofSeed 7) = .ok t₀ ∧
    let t := (t₀.run [.choose "reap", .choose "pay", .view]).2
    t.progress.inventory = ["wheat"] ∧
    (∃ n ∈ harvest.visited t.progress, ∃ e ∈ n.effectSets, "wheat" ∈ e.gains) ∧
    (t.run [.choose "pay", .view]).2.progress.Binds "tired" ∧
    ∀ g, (Condition.evaluateAll [.unknown, .carries .has "gold"] t.progress g).1 = false := by
  have h : start harvest none {} (.ofSeed 7) =
      .ok (begun harvest {} harvest.opening "field" field (.ofSeed 7)) :=
    start_of_some rfl
  obtain ⟨hitems, -, -, hbound, hgates, -⟩ :=
    nothing_from_nowhere h [.choose "reap", .choose "pay", .view]
  exact ⟨_, h, rfl, hitems "wheat" (by decide +kernel),
    hbound [.choose "pay", .view] "tired" (by decide +kernel) rfl,
    hgates "gold" (by decide +kernel) _ (by decide)⟩

end Playthrough

end Gamebook
