import Gamebook.Proofs.Loading
import Gamebook.Proofs.Provenance

namespace Gamebook

/-- What is taken away does not show among the other items. -/
theorem filter_diff_of_subset {spent items : List String} (h : spent ⊆ items) (held : List String) :
    (held.diff spent).filter (fun item => item ∉ items) = held.filter fun item => item ∉ items := by
  induction spent generalizing held with
  | nil => rw [List.diff_nil]
  | cons item spent ih =>
    obtain ⟨hitem, hspent⟩ := List.cons_subset.mp h
    have hother : item ∉ held.filter fun item => item ∉ items := by simp [hitem]
    rw [List.diff_cons, ih hspent, ← List.erase_filter, List.erase_of_not_mem hother]

/-- Between two states of progress nothing has changed but what stands under the names, the copies of the items
and which of the achievements are unlocked; none of these is locked again. -/
structure Frame (names items ids : List String) (p q : Progress) : Prop where
  values : ∀ name, name ∉ names → q.valueOf? name = p.valueOf? name
  inventory : (q.inventory.filter fun item => item ∉ items) =
    p.inventory.filter fun item => item ∉ items
  achievements : ∃ news, q.achievements = p.achievements ++ news ∧ ∀ id ∈ news, id ∈ ids

namespace Frame

variable {names items ids names' items' ids' : List String} {p q r : Progress}

theorem refl (p : Progress) : Frame [] [] [] p p :=
  ⟨fun _ _ => rfl, rfl, [], (List.append_nil _).symm, fun _ h => absurd h List.not_mem_nil⟩

theorem trans (h : Frame names items ids p q) (h' : Frame names' items' ids' q r) :
    Frame (names ++ names') (items ++ items') (ids ++ ids') p r where
  values name hname := by
    obtain ⟨hfirst, hsecond⟩ := not_or.mp (mt List.mem_append.mpr hname)
    exact (h'.values name hsecond).trans (h.values name hfirst)
  inventory := by
    have hfirst : ∀ held : List String, (held.filter fun item => item ∉ items ++ items') =
        (held.filter fun item => item ∉ items).filter fun item => item ∉ items' := by
      intro held
      simp [List.filter_filter, Bool.and_comm]
    have hsecond : ∀ held : List String, (held.filter fun item => item ∉ items ++ items') =
        (held.filter fun item => item ∉ items').filter fun item => item ∉ items := by
      intro held
      simp [List.filter_filter]
    rw [hsecond, h'.inventory, ← hsecond, hfirst, h.inventory, ← hfirst]
  achievements := by
    obtain ⟨news, hnews, hids⟩ := h.achievements
    obtain ⟨more, hmore, hids'⟩ := h'.achievements
    refine ⟨news ++ more, by rw [hmore, hnews, List.append_assoc], fun id hid => ?_⟩
    exact List.mem_append.mpr ((List.mem_append.mp hid).imp (hids id) (hids' id))

theorem visit (h : Frame names items ids p q) (node : String) :
    Frame names items ids p (q.visit node) := ⟨h.values, h.inventory, h.achievements⟩

end Frame

namespace Effects

/-- The items that effects give or take. -/
def handled (e : Effects) : List String := e.gains ++ e.losses

theorem frame_apply (e : Effects) (p : Progress) :
    Frame e.written e.handled e.unlocks p (e.apply p) where
  values name hname := by
    obtain ⟨hassigned, hmodified⟩ := not_or.mp (mt List.mem_append.mpr hname)
    have ha : e.assignments.get? name = none := by
      simpa [Dictionary.mem_names_iff] using hassigned
    have hm : e.modifications.get? name = none := by
      simpa [Dictionary.mem_names_iff] using hmodified
    simp [apply_valueOf?, after, ha, hm]
  inventory := by
    rw [apply_inventory, keep, List.filter_append, List.filter_append]
    have hgains : (e.gains.filter fun item => item ∉ e.losses).filter
        (fun item => item ∉ e.handled) = [] := by
      rw [List.filter_filter, List.filter_eq_nil_iff]
      intro item hitem
      simp [handled, hitem]
    have hold : (p.inventory.filter fun item => item ∉ e.losses).filter
        (fun item => item ∉ e.handled) = p.inventory.filter fun item => item ∉ e.handled := by
      rw [List.filter_filter]
      refine List.filter_congr fun item _ => ?_
      rw [Bool.eq_iff_iff]
      simp +contextual [handled]
    rw [hgains, hold, List.append_nil]
  achievements := ⟨fresh p.achievements e.unlocks, apply_achievements e p, fun _ => mem_of_mem_fresh⟩

theorem frame_applied (effects : Option Effects) (p : Progress) :
    Frame (effects.toList.flatMap written) (effects.toList.flatMap handled)
      (effects.toList.flatMap unlocks) p (applied effects p) := by
  cases effects with
  | none => exact .refl p
  | some e => simpa [applied] using frame_apply e p

end Effects

namespace Cost

theorem frame_apply (c : Cost) (p : Progress) :
    Frame c.amounts.names c.items [] p (c.apply p) where
  values name hname := by
    have hnone : c.amounts.get? name = none := by simpa [Dictionary.mem_names_iff] using hname
    simp [apply_valueOf?, hnone]
  inventory := by rw [apply_inventory, filter_diff_of_subset (List.Subset.refl _)]
  achievements := ⟨[], by simp, fun _ h => absurd h List.not_mem_nil⟩

theorem frame_paid (cost : Option Cost) (p : Progress) :
    Frame (cost.toList.flatMap (·.amounts.names)) (cost.toList.flatMap (·.items)) [] p
      (paid cost p) := by
  cases cost with
  | none => exact .refl p
  | some c => simpa [paid] using frame_apply c p

end Cost

namespace Choice

/-- The effects of a choice that leads to a node. -/
def effectsTo (c : Choice) (target : Node) : List Effects := c.effects.toList ++ target.effects.toList

/-- The variables that taking the choice may write. -/
def writtenTo (c : Choice) (target : Node) : List String :=
  c.cost.toList.flatMap (·.amounts.names) ++ (c.effectsTo target).flatMap Effects.written

/-- The items that taking the choice may give or take. -/
def handledTo (c : Choice) (target : Node) : List String :=
  c.cost.toList.flatMap (·.items) ++ (c.effectsTo target).flatMap Effects.handled

/-- The cost, the choice's effects, the visit and the node's effects, each in its frame. -/
theorem frame_consequence (c : Choice) (target : Node) (p : Progress) :
    Frame (c.writtenTo target) (c.handledTo target) ((c.effectsTo target).flatMap Effects.unlocks) p
      (c.consequence target p) := by
  have hpaid := Cost.frame_paid c.cost p
  have hleft := hpaid.trans (Effects.frame_applied c.effects (Cost.paid c.cost p))
  have hentered := (hleft.visit c.target).trans (Effects.frame_applied target.effects _)
  simpa [writtenTo, handledTo, effectsTo, consequence] using hentered

end Choice

namespace Playthrough

variable {t : Playthrough} {id : String} {m : Move}

/-- A move that succeeds is a choice of the current node that was taken. -/
theorem choose_moved (h : (t.choose id).1 = .ok m) : ∃ node c target,
    t.currentNode = .ok node ∧ node.FirstChoice id c ∧
      t.story.nodes.get? c.target = some target ∧ ∃ g, (t.choose id).2 =
        { t with progress := c.consequence target t.progress, generator := g, last := m } := by
  have hstep := step_choose t id
  rw [h] at hstep
  generalize (t.choose id).2 = next at hstep ⊢
  cases hstep with
  | @chosen _ node target c _ g hn _ hc ht => exact ⟨node, c, target, hn, hc, ht, g, rfl⟩

/-- A move changes what its cost and its effects mention and nothing else. Other variables keep their values or
stay unset, other items keep their copies and their order, what is unlocked is added behind what was, and
the node that is entered is the one visit more. -/
theorem choose_frame (h : (t.choose id).1 = .ok m) :
    let next := (t.choose id).2
    ∃ node c target, t.currentNode = .ok node ∧ node.FirstChoice id c ∧
      t.story.nodes.get? c.target = some target ∧
      (∀ name, name ∉ c.writtenTo target → next.progress.valueOf? name = t.progress.valueOf? name) ∧
      (next.progress.inventory.filter fun item => item ∉ c.handledTo target) =
        (t.progress.inventory.filter fun item => item ∉ c.handledTo target) ∧
      (∃ news, next.progress.achievements = t.progress.achievements ++ news ∧
        ∀ achievement ∈ news, ∃ e ∈ c.effectsTo target, achievement ∈ e.unlocks) ∧
      next.progress.history = t.progress.history ++ [c.target] ∧
      (t.story.Loaded → target.id = c.target) ∧
      next.story = t.story ∧ next.settings = t.settings := by
  obtain ⟨node, c, target, hn, hc, ht, g, hnext⟩ := choose_moved h
  have hframe := c.frame_consequence target t.progress
  obtain ⟨news, hnews, hids⟩ := hframe.achievements
  rw [hnext]
  refine ⟨node, c, target, hn, hc, ht, hframe.values, hframe.inventory, ⟨news, hnews, ?_⟩,
    c.consequence_history target t.progress, fun hloaded => hloaded.id_eq ht, rfl, rfl⟩
  exact fun achievement hmem => List.mem_flatMap.mp (hids achievement hmem)

/-- To sail costs a rope and three coins, and at sea the map gets lost. -/
def sail : Choice :=
  ⟨"sail", "Set sail", "sea", ⟨[], []⟩,
    some ⟨Dictionary.empty.insert "wind" (.text "fair"), .empty, ["map"], ["rope"], ["sailor"]⟩,
    some ⟨Dictionary.empty.insert "purse" 3, ["rope"]⟩⟩

def dock : Node := ⟨"dock", none, ⟨"", none, none⟩, [sail], none, false⟩

def openSea : Node :=
  ⟨"sea", none, ⟨"", none, none⟩, [],
    some ⟨.empty, Dictionary.empty.insert "days" ⟨.add, .number 1⟩, ["fish"], ["map"],
      ["sailor", "farer"]⟩, false⟩

def atDock : Playthrough :=
  ⟨⟨"dock", (Dictionary.empty.insert "dock" dock).insert "sea" openSea, .empty, .empty, .empty, .empty⟩,
    {}, ⟨"dock", (Dictionary.empty.insert "purse" (.number 5)).insert "mood" (.text "merry"),
      ["hat", "rope", "map", "knife", "rope", "hat"], ["dock"], ["cook"]⟩, .ofSeed 7, ⟨none, "dock", []⟩⟩

theorem choose_frame_sail : ∃ m, (atDock.choose "sail").1 = .ok m ∧
    let next := (atDock.choose "sail").2
    next.progress.valueOf? "mood" = some (.text "merry") ∧ next.progress.valueOf? "fog" = none ∧
    (next.progress.inventory.filter fun item => item ∉ sail.handledTo openSea) =
      ["hat", "knife", "hat"] ∧
    (∃ news, next.progress.achievements = "cook" :: news ∧
      ∀ id ∈ news, ∃ e ∈ sail.effectsTo openSea, id ∈ e.unlocks) ∧
    next.progress.history = ["dock", "sea"] ∧ next.story = atDock.story := by
  have hmoved : ∃ m, (atDock.choose "sail").1 = .ok m := ⟨_, rfl⟩
  obtain ⟨m, hm⟩ := hmoved
  obtain ⟨node, c, target, hn, hc, ht, hvalues, hinventory, hachievements, hhistory, -, hstory, -⟩ :=
    choose_frame hm
  obtain rfl : dock = node := Except.ok.inj hn
  have hfirst : dock.FirstChoice "sail" sail := ⟨rfl, [], [], rfl, by simp⟩
  obtain rfl := hfirst.unique hc
  obtain rfl : openSea = target := Option.some.inj ht
  exact ⟨m, hm, hvalues "mood" (by decide +kernel), hvalues "fog" (by decide +kernel),
    hinventory.trans (by decide +kernel), hachievements, hhistory, hstory⟩

end Playthrough

end Gamebook
