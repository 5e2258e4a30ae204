import Gamebook.Playthrough
import Gamebook.Proofs.Effects

namespace Gamebook

/-- Effects that are absent change nothing. -/
def Effects.applied (effects : Option Effects) (p : Progress) : Progress :=
  effects.elim p fun e => e.apply p

def Cost.paid (cost : Option Cost) (p : Progress) : Progress := cost.elim p fun c => c.apply p

/-- A choice is paid for and takes effect before its target is visited and takes effect. -/
def Choice.consequence (c : Choice) (target : Node) (p : Progress) : Progress :=
  Effects.applied target.effects ((Effects.applied c.effects (Cost.paid c.cost p)).visit c.target)

/-- The enabling gate is looked at with the generator that the showing gate leaves. -/
def Gates.Fail (gates : Gates) (p : Progress) (g : Generator) : Prop :=
  (Condition.evaluateAll gates.visible p g).1 = false ∨
    (Condition.evaluateAll gates.enabled p (Condition.evaluateAll gates.visible p g).2).1 = false

instance (gates : Gates) (p : Progress) (g : Generator) : Decidable (gates.Fail p g) :=
  inferInstanceAs (Decidable (_ ∨ _))

/-- No choice before this one has its id. -/
def Node.FirstChoice (n : Node) (id : String) (c : Choice) : Prop :=
  c.id = id ∧ ∃ before after, n.choices = before ++ c :: after ∧ ∀ b ∈ before, b.id ≠ id

namespace Node

theorem isEnding_iff (n : Node) : n.isEnding = true ↔ n.ending = true ∨ n.choices = [] := by
  simp [isEnding]

theorem choice?_eq_some_iff {n : Node} {id : String} {c : Choice} :
    n.choice? id = some c ↔ n.FirstChoice id c := by
  unfold choice? FirstChoice
  rw [List.find?_eq_some_iff_append]
  simp

theorem choice?_eq_none_iff {n : Node} {id : String} :
    n.choice? id = none ↔ ∀ c ∈ n.choices, c.id ≠ id := by
  unfold choice?
  rw [List.find?_eq_none]
  simp

theorem FirstChoice.unique {n : Node} {id : String} {c d : Choice}
    (hc : n.FirstChoice id c) (hd : n.FirstChoice id d) : c = d :=
  Option.some.inj ((choice?_eq_some_iff.mpr hc).symm.trans (choice?_eq_some_iff.mpr hd))

theorem FirstChoice.mem {n : Node} {id : String} {c : Choice} (h : n.FirstChoice id c) :
    c ∈ n.choices := by
  obtain ⟨_, before, after, heq, _⟩ := h
  simp [heq]

theorem FirstChoice.not_all_ne {n : Node} {id : String} {c : Choice} (h : n.FirstChoice id c) :
    ¬∀ c ∈ n.choices, c.id ≠ id := fun hall => hall c h.mem h.1

end Node

namespace Playthrough

variable {story : Story} {settings : Settings}

theorem applyEffects_fst (effects : Option Effects) (p : Progress) :
    (applyEffects story settings effects p).1 = Effects.applied effects p := by
  cases effects <;> rfl

theorem enter_of_some {id : String} {n : Node} (h : story.nodes.get? id = some n)
    (p : Progress) : enter story settings id p = .ok (Effects.applied n.effects (p.visit id),
      .nodeEntered id :: buzz settings .light ++
        (applyEffects story settings n.effects (p.visit id)).2) := by
  simp [enter, Story.node, h, applyEffects_fst]

theorem enter_of_none {id : String} (h : story.nodes.get? id = none) (p : Progress) :
    enter story settings id p = .error (.nodeNotFound id) := by
  simp [enter, Story.node, h]

/-- The events of a choice's own effects. -/
def choiceEvents (story : Story) (settings : Settings) (c : Choice) (p : Progress) : List Event :=
  (applyEffects story settings c.effects (Cost.paid c.cost p)).2

/-- The events of entering a node with its effects. -/
def entryEvents (story : Story) (settings : Settings) (id : String) (n : Node) (p : Progress) :
    List Event :=
  .nodeEntered id :: buzz settings .light ++ (applyEffects story settings n.effects (p.visit id)).2

theorem paid_eq (c : Choice) (p : Progress) :
    (c.cost.map fun cost => cost.apply p).getD p = Cost.paid c.cost p := by
  cases c.cost <;> rfl

theorem follow_of_some {c : Choice} {target : Node} (h : story.nodes.get? c.target = some target)
    (p : Progress) : follow story settings c p = .ok (c.consequence target p,
      choiceEvents story settings c p ++ entryEvents story settings c.target target
        (Effects.applied c.effects (Cost.paid c.cost p))) := by
  simp [follow, paid_eq, enter_of_some h, applyEffects_fst, Choice.consequence, choiceEvents,
    entryEvents]

theorem follow_of_none {c : Choice} (h : story.nodes.get? c.target = none) (p : Progress) :
    follow story settings c p = .error (.nodeNotFound c.target) := by
  simp [follow, enter_of_none h]

end Playthrough

@[simp] theorem Effects.applied_node (effects : Option Effects) (p : Progress) :
    (Effects.applied effects p).node = p.node := by
  cases effects <;> simp [Effects.applied]

@[simp] theorem Effects.applied_history (effects : Option Effects) (p : Progress) :
    (Effects.applied effects p).history = p.history := by
  cases effects <;> simp [Effects.applied]

@[simp] theorem Cost.paid_history (cost : Option Cost) (p : Progress) :
    (Cost.paid cost p).history = p.history := by
  cases cost <;> simp [Cost.paid]

@[simp] theorem Choice.consequence_node (c : Choice) (target : Node) (p : Progress) :
    (c.consequence target p).node = c.target := by
  simp [Choice.consequence, Progress.visit]

@[simp] theorem Choice.consequence_history (c : Choice) (target : Node) (p : Progress) :
    (c.consequence target p).history = p.history ++ [c.target] := by
  simp [Choice.consequence, Progress.visit]

namespace Playthrough

theorem gatesPass_fst_eq_false_iff (gates : Gates) (p : Progress) (g : Generator) :
    (gatesPass gates p g).1 = false ↔ gates.Fail p g := by
  unfold gatesPass Gates.Fail
  cases h : Condition.evaluateAll gates.visible p g with
  | mk shown next => cases shown <;> simp

/-- What a call to choose can come to on a node of the story. -/
inductive Choosing (t : Playthrough) (id : String) (node : Node) :
    Except Fault Move × Playthrough → Prop
  | ended (h : node.isEnding = true) : Choosing t id node (.error (.storyEnded t.progress.node), t)
  | missing (h : node.isEnding = false) (hid : ∀ c ∈ node.choices, c.id ≠ id) :
    Choosing t id node (.error (.choiceNotFound id), t)
  | closed {c : Choice} (h : node.isEnding = false) (hc : node.FirstChoice id c)
    (hg : c.gates.Fail t.progress t.generator) :
    Choosing t id node (.error (.choiceUnavailable id),
      { t with generator := (gatesPass c.gates t.progress t.generator).2 })
  | dangling {c : Choice} (h : node.isEnding = false) (hc : node.FirstChoice id c)
    (hg : ¬c.gates.Fail t.progress t.generator) (ht : t.story.nodes.get? c.target = none) :
    Choosing t id node (.error (.nodeNotFound c.target),
      { t with generator := (gatesPass c.gates t.progress t.generator).2 })
  | taken {c : Choice} {target : Node} {m : Move} (h : node.isEnding = false)
    (hc : node.FirstChoice id c) (hg : ¬c.gates.Fail t.progress t.generator)
    (ht : t.story.nodes.get? c.target = some target)
    (hm : m = ⟨some t.progress.node, c.target, choiceEvents t.story t.settings c t.progress ++
      entryEvents t.story t.settings c.target target
        (Effects.applied c.effects (Cost.paid c.cost t.progress))⟩) :
    Choosing t id node (.ok m,
      { t with
        progress := c.consequence target t.progress
        generator := (gatesPass c.gates t.progress t.generator).2
        last := m })

theorem choosing {t : Playthrough} {node : Node} (hn : t.currentNode = .ok node) (id : String) :
    Choosing t id node (t.choose id) := by
  unfold choose
  simp only [hn]
  cases he : node.isEnding with
  | true => exact .ended he
  | false =>
    cases hc : node.choice? id with
    | none => exact .missing he (Node.choice?_eq_none_iff.mp hc)
    | some c =>
      have hfirst := Node.choice?_eq_some_iff.mp hc
      have hgate := gatesPass_fst_eq_false_iff c.gates t.progress t.generator
      cases hp : gatesPass c.gates t.progress t.generator with
      | mk passed g =>
        have hg : g = (gatesPass c.gates t.progress t.generator).2 := by rw [hp]
        rw [hp] at hgate
        cases passed with
        | false =>
          simp only [Bool.false_eq_true, if_false, hp]
          rw [hg]
          exact .closed he hfirst (hgate.mp rfl)
        | true =>
          have hopen : ¬c.gates.Fail t.progress t.generator := by simpa using mt hgate.mpr
          cases ht : t.story.nodes.get? c.target with
          | none =>
            simp only [Bool.false_eq_true, if_false, hp, follow_of_none ht]
            rw [hg]
            exact .dangling he hfirst hopen ht
          | some target =>
            simp only [Bool.false_eq_true, if_false, hp, follow_of_some ht, Choice.consequence_node]
            rw [hg]
            exact .taken he hfirst hopen ht rfl

/-- The end of the story goes before an unknown id, that before a gate that fails, and that before a
missing target. Only the generator may have moved on when a call fails. -/
theorem choose_outcome {t : Playthrough} {node : Node} (hn : t.currentNode = .ok node)
    (id : String) :
    ((t.choose id).1 = .error (.storyEnded t.progress.node) ↔
      node.ending = true ∨ node.choices = []) ∧
    ((t.choose id).1 = .error (.choiceNotFound id) ↔
      node.isEnding = false ∧ ∀ c ∈ node.choices, c.id ≠ id) ∧
    (∀ c, node.isEnding = false → node.FirstChoice id c →
      ((t.choose id).1 = .error (.choiceUnavailable id) ↔ c.gates.Fail t.progress t.generator) ∧
      ((t.choose id).1 = .error (.nodeNotFound c.target) ↔
        ¬c.gates.Fail t.progress t.generator ∧ t.story.nodes.get? c.target = none) ∧
      (∀ target, ¬c.gates.Fail t.progress t.generator →
        t.story.nodes.get? c.target = some target →
        ∃ m g, t.choose id = (.ok m,
            { t with progress := c.consequence target t.progress, generator := g, last := m }) ∧
          m.origin = some t.progress.node ∧ m.destination = c.target)) ∧
    (∀ fault, (t.choose id).1 = .error fault →
      ∃ g, (t.choose id).2 = { t with generator := g }) := by
  have hcases := choosing hn id
  rw [← Node.isEnding_iff]
  generalize t.choose id = r at hcases ⊢
  cases hcases with
  | ended h =>
    refine ⟨by simp [h], by simp [h], ?_, fun _ _ => ⟨t.generator, rfl⟩⟩
    intro c hopen
    simp [h] at hopen
  | missing h hid =>
    refine ⟨by simp [h], iff_of_true rfl ⟨h, hid⟩, ?_, fun _ _ => ⟨t.generator, rfl⟩⟩
    intro c _ hc
    exact absurd hc.1 (hid c hc.mem)
  | @closed c h hc hg =>
    refine ⟨by simp [h], by simpa using fun _ => hc.not_all_ne, ?_, fun _ _ => ⟨_, rfl⟩⟩
    · intro d _ hd
      obtain rfl := hc.unique hd
      simp [hg]
  | @dangling c h hc hg ht =>
    refine ⟨by simp [h], by simpa using fun _ => hc.not_all_ne, ?_, fun _ _ => ⟨_, rfl⟩⟩
    · intro d _ hd
      obtain rfl := hc.unique hd
      simp [hg, ht]
  | @taken c target m h hc hg ht hm =>
    refine ⟨by simp [h], by simpa using fun _ => hc.not_all_ne, ?_, fun _ hf => nomatch hf⟩
    · intro d _ hd
      obtain rfl := hc.unique hd
      refine ⟨by simp [hg], by simp [ht], ?_⟩
      intro target' _ ht'
      obtain rfl := Option.some.inj (ht.symm.trans ht')
      exact ⟨m, _, rfl, by simp [hm], by simp [hm]⟩

/-- A lift to a cellar that is not there. It takes the lamp that it asks for. -/
def lift : Choice :=
  ⟨"lift", "Go down", "cellar", ⟨[], [.carries .has "lamp"]⟩,
    some ⟨.empty, .empty, [], ["lamp"], ["depths"]⟩, none⟩

def hall : Node := ⟨"hall", none, ⟨"", none, none⟩, [lift], none, false⟩

def inHall : Playthrough :=
  ⟨⟨"hall", Dictionary.empty.insert "hall" hall, .empty, .empty, .empty, .empty⟩, {},
    ⟨"hall", .empty, ["lamp"], ["hall"], []⟩, .ofSeed 7, ⟨none, "hall", []⟩⟩

theorem choose_outcome_lift : inHall.currentNode = .ok hall ∧
    (inHall.choose "lift").1 = .error (.nodeNotFound "cellar") ∧
    ∃ g, (inHall.choose "lift").2 = { inHall with generator := g } := by
  have hn : inHall.currentNode = .ok hall := rfl
  have h := choose_outcome hn "lift"
  have hfirst : hall.FirstChoice "lift" lift := ⟨rfl, [], [], rfl, by simp⟩
  have hlost := (h.2.2.1 lift rfl hfirst).2.1.mpr ⟨by decide, rfl⟩
  exact ⟨hn, hlost, h.2.2.2 _ hlost⟩

end Playthrough

end Gamebook
