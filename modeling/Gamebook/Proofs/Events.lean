import Gamebook.Proofs.Deeds

namespace Gamebook

namespace Event

def isHaptic : Event → Bool
  | haptic _ => true
  | _ => false

/-- An event with the haptic that goes with it. -/
def felt : Event → List Event
  | nodeEntered id => [nodeEntered id, haptic .light]
  | achievementUnlocked id name => [achievementUnlocked id name, haptic .success]
  | haptic kind => [haptic kind]

def entered? : Event → Option String
  | nodeEntered id => some id
  | _ => none

def unlocked? : Event → Option String
  | achievementUnlocked id _ => some id
  | _ => none

end Event

namespace Move

/-- The events without haptics. -/
def quiet (m : Move) : List Event := m.events.filter fun e => !e.isHaptic

def entered (m : Move) : List String := m.events.filterMap Event.entered?

theorem entered_eq_quiet (m : Move) : m.entered = m.quiet.filterMap Event.entered? := by
  rw [entered, quiet, List.filterMap_filter]
  congr 1
  funext e
  cases e <;> rfl

theorem unlocked_eq_quiet (m : Move) : m.unlocked = m.quiet.filterMap Event.unlocked? := by
  rw [unlocked, quiet, List.filterMap_filter]
  congr 1
  funext e
  cases e <;> rfl

theorem mem_quiet_iff {m : Move} {id name : String} :
    .achievementUnlocked id name ∈ m.quiet ↔ .achievementUnlocked id name ∈ m.events := by
  simp [quiet, List.mem_filter, Event.isHaptic]

end Move

/-- Events as they are sent out under settings. -/
def Settings.felt (s : Settings) (es : List Event) : List Event :=
  if s.vibration then es.flatMap Event.felt else es

namespace Settings

variable (s : Settings) {es : List Event}

theorem felt_append (es fs : List Event) : s.felt (es ++ fs) = s.felt es ++ s.felt fs := by
  unfold felt
  split
  · exact List.flatMap_append
  · rfl

theorem filter_felt (h : ∀ e ∈ es, e.isHaptic = false) :
    (s.felt es).filter (fun e => !e.isHaptic) = es := by
  unfold felt
  split
  next =>
    induction es with
    | nil => rfl
    | cons e es ih =>
      obtain ⟨he, hes⟩ := List.forall_mem_cons.mp h
      cases e with
      | haptic kind => cases he
      | _ => simpa [Event.felt, Event.isHaptic] using ih hes
  next => simpa [List.filter_eq_self] using h

end Settings

/-- The ids that are not held yet, each once. -/
def fresh (held : List String) : List String → List String
  | [] => []
  | id :: ids => if id ∈ held then fresh held ids else id :: fresh (held ++ [id]) ids

theorem notMem_of_mem_fresh {held ids : List String} {id : String} (h : id ∈ fresh held ids) :
    id ∉ held := by
  induction ids generalizing held with
  | nil => cases h
  | cons first ids ih =>
    rw [fresh] at h
    split at h
    next => exact ih h
    next hnew =>
      rcases List.mem_cons.mp h with rfl | hrest
      · exact hnew
      · exact fun hheld => ih hrest (List.mem_append_left _ hheld)

theorem mem_of_mem_fresh {held ids : List String} {id : String} (h : id ∈ fresh held ids) :
    id ∈ ids := by
  induction ids generalizing held with
  | nil => cases h
  | cons first ids ih =>
    rw [fresh] at h
    split at h
    next => exact List.mem_cons_of_mem first (ih h)
    next =>
      rcases List.mem_cons.mp h with rfl | hrest
      · exact List.mem_cons_self
      · exact List.mem_cons_of_mem first (ih hrest)

theorem fresh_nodup (held ids : List String) : (fresh held ids).Nodup := by
  induction ids generalizing held with
  | nil => exact List.nodup_nil
  | cons first ids ih =>
    rw [fresh]
    split
    next => exact ih held
    next =>
      refine List.nodup_cons.mpr ⟨fun hmem => ?_, ih _⟩
      exact notMem_of_mem_fresh hmem (by simp)

/-- What is unlocked first is held when more is unlocked. -/
theorem fresh_append (held ids more : List String) :
    fresh held (ids ++ more) = fresh held ids ++ fresh (held ++ fresh held ids) more := by
  induction ids generalizing held with
  | nil => simp [fresh]
  | cons first ids ih =>
    rw [List.cons_append, fresh, fresh]
    split
    next => exact ih held
    next => simp [ih]

namespace Effects

/-- The achievements that effects ask to unlock. -/
def unlocksOf (effects : Option Effects) : List String := effects.elim [] Effects.unlocks

theorem applyUnlocks_achievements (ids : List String) (p : Progress) :
    (applyUnlocks ids p).achievements = p.achievements ++ fresh p.achievements ids := by
  induction ids generalizing p with
  | nil => simp [applyUnlocks, fresh]
  | cons id ids ih =>
    have hnext : (applyUnlocks (id :: ids) p).achievements =
        (p.unlock id).2.achievements ++ fresh (p.unlock id).2.achievements ids := ih (p.unlock id).2
    rw [hnext, fresh]
    by_cases hheld : id ∈ p.achievements
    · simp [Progress.unlock, Progress.hasAchievement, hheld]
    · simp [Progress.unlock, Progress.hasAchievement, hheld]

theorem apply_achievements (e : Effects) (p : Progress) :
    (e.apply p).achievements = p.achievements ++ fresh p.achievements e.unlocks := by
  have hvalues := Effects.values_keep Progress.achievements (fun _ _ => rfl) e p
  rw [apply, applyUnlocks_achievements, hvalues]

theorem applied_achievements (effects : Option Effects) (p : Progress) :
    (applied effects p).achievements =
      p.achievements ++ fresh p.achievements (unlocksOf effects) := by
  cases effects with
  | none => simp [applied, unlocksOf, fresh]
  | some e => exact apply_achievements e p

end Effects

@[simp] theorem Cost.paid_achievements (cost : Option Cost) (p : Progress) :
    (Cost.paid cost p).achievements = p.achievements := by
  cases cost with
  | none => rfl
  | some c => exact c.apply_achievements p

namespace Story

/-- The event of an unlocked achievement. -/
def announce (s : Story) (id : String) : Event := .achievementUnlocked id (s.achievementName id)

/-- What a move tells: what the choice unlocks of what is not held, the node that is entered, and what the
node unlocks after that. -/
def news (s : Story) (held : List String) (chosen : Option Effects) (id : String) (n : Node) :
    List Event :=
  let before := fresh held (Effects.unlocksOf chosen)
  let after := fresh (held ++ before) (Effects.unlocksOf n.effects)
  before.map s.announce ++ .nodeEntered id :: after.map s.announce

/-- An achievement goes by its declared name, or by its id where that is missing or empty. -/
def Named (s : Story) (id name : String) : Prop :=
  (∃ a, s.achievements.get? id = some a ∧ a.name ≠ "" ∧ name = a.name) ∨
    ((∀ a, s.achievements.get? id = some a → a.name = "") ∧ name = id)

theorem achievementName_named (s : Story) (id : String) : s.Named id (s.achievementName id) := by
  unfold Named achievementName
  cases ha : s.achievements.get? id with
  | none => simp
  | some a => by_cases hname : a.name = "" <;> simp [hname]

/-- The progress that a deed goes on from. -/
def base (s : Story) (p : Progress) : Deed → Progress
  | .reset => s.opening
  | _ => p

/-- The effects of the choice that a deed takes. -/
def effectsOf (s : Story) (p : Progress) : Deed → Option Effects
  | .choose id => do (← (← s.nodes.get? p.node).choice? id).effects
  | _ => none

section News

variable (s : Story) (held : List String) (chosen : Option Effects) (id : String) (n : Node)

theorem news_quiet : ∀ e ∈ s.news held chosen id n, e.isHaptic = false := by
  intro e he
  simp only [news, List.mem_append, List.mem_cons, List.mem_map] at he
  rcases he with ⟨_, _, rfl⟩ | rfl | ⟨_, _, rfl⟩ <;> rfl

theorem news_entered : (s.news held chosen id n).filterMap Event.entered? = [id] := by
  simp [news, announce, Event.entered?, Function.comp_def]

theorem news_unlocked : (s.news held chosen id n).filterMap Event.unlocked? =
    fresh held (Effects.unlocksOf chosen ++ Effects.unlocksOf n.effects) := by
  simp [news, announce, Event.unlocked?, List.filterMap_cons, Function.comp_def, fresh_append]

variable {s held chosen id n} in
theorem named_of_mem_news {unlocked name : String}
    (h : .achievementUnlocked unlocked name ∈ s.news held chosen id n) : s.Named unlocked name := by
  have hname : name = s.achievementName unlocked := by
    simp only [news, announce, List.mem_append, List.mem_cons, List.mem_map] at h
    rcases h with ⟨_, _, heq⟩ | heq | ⟨_, _, heq⟩ <;> cases heq
    · rfl
    · rfl
  exact hname ▸ s.achievementName_named unlocked

end News

end Story

/-- What is felt comes on top of the news. -/
theorem Move.quiet_eq_news {m : Move} {settings : Settings} {s : Story} {held : List String}
    {chosen : Option Effects} {id : String} {n : Node}
    (h : m.events = settings.felt (s.news held chosen id n)) : m.quiet = s.news held chosen id n := by
  rw [quiet, h, Settings.filter_felt _ (s.news_quiet held chosen id n)]

namespace Playthrough

variable (story : Story) (settings : Settings)

theorem unlockEvents_eq (ids : List String) :
    unlockEvents story settings ids = settings.felt (ids.map story.announce) := by
  unfold unlockEvents Settings.felt buzz
  cases settings.vibration with
  | false => exact (List.map_eq_flatMap).symm
  | true =>
    simp only [if_true, List.flatMap_map]
    rfl

theorem applyEffects_snd (effects : Option Effects) (p : Progress) :
    (applyEffects story settings effects p).2 =
      settings.felt ((fresh p.achievements (Effects.unlocksOf effects)).map story.announce) := by
  cases effects with
  | none => rw [← unlockEvents_eq]; rfl
  | some e =>
    rw [applyEffects, Effects.apply_achievements, List.drop_left, unlockEvents_eq]
    rfl

theorem entryEvents_eq (id : String) (n : Node) (p : Progress) :
    entryEvents story settings id n p = settings.felt (story.news p.achievements none id n) := by
  have hnews : story.news p.achievements none id n = .nodeEntered id ::
      (fresh p.achievements (Effects.unlocksOf n.effects)).map story.announce := by
    simp [Story.news, Effects.unlocksOf, fresh]
  rw [entryEvents, applyEffects_snd, hnews]
  unfold Settings.felt buzz
  cases settings.vibration <;> rfl

theorem choiceEvents_append (c : Choice) (target : Node) (p : Progress) :
    choiceEvents story settings c p ++ entryEvents story settings c.target target
        (Effects.applied c.effects (Cost.paid c.cost p)) =
      settings.felt (story.news p.achievements c.effects c.target target) := by
  rw [choiceEvents, applyEffects_snd, entryEvents_eq, ← Settings.felt_append,
    Effects.applied_achievements, Cost.paid_achievements]
  simp [Story.news, Effects.unlocksOf, fresh]

end Playthrough

/-- A move tells its news and nothing else, haptics aside. -/
def Move.Tells (m : Move) (s : Story) (held : List String) (chosen : Option Effects) : Prop :=
  ∃ n, s.nodes.get? m.destination = some n ∧ m.quiet = s.news held chosen m.destination n

namespace Move.Tells

variable {m : Move} {s : Story} {held : List String} {chosen : Option Effects}

theorem entered (h : m.Tells s held chosen) : m.entered = [m.destination] := by
  obtain ⟨n, _, hquiet⟩ := h
  rw [entered_eq_quiet, hquiet, Story.news_entered]

theorem unlocked (h : m.Tells s held chosen) : ∃ ids, m.unlocked = fresh held ids := by
  obtain ⟨n, _, hquiet⟩ := h
  exact ⟨_, by rw [unlocked_eq_quiet, hquiet, Story.news_unlocked]⟩

theorem named (h : m.Tells s held chosen) {id name : String}
    (he : .achievementUnlocked id name ∈ m.events) : s.Named id name := by
  obtain ⟨n, _, hquiet⟩ := h
  exact Story.named_of_mem_news (hquiet ▸ mem_quiet_iff.mpr he)

end Move.Tells

namespace Story

variable {s : Story} {settings : Settings} {p next : Progress} {d : Deed} {m : Move}

/-- The events of a deed are its news, felt under the settings that hold then. -/
theorem move?_events (h : s.move? settings p d = some m) :
    ∃ n, s.nodes.get? m.destination = some n ∧ m.events = (d.settings settings).felt
      (s.news (s.base p d).achievements (s.effectsOf p d) m.destination n) := by
  cases d with
  | choose id =>
    obtain ⟨node, hnode, h⟩ := Option.bind_eq_some_iff.mp h
    obtain ⟨c, hc, h⟩ := Option.bind_eq_some_iff.mp h
    obtain ⟨target, ht, h⟩ := Option.bind_eq_some_iff.mp h
    cases h
    have heffects : s.effectsOf p (.choose id) = c.effects := by simp [effectsOf, hnode, hc]
    exact ⟨target, ht, heffects ▸ Playthrough.choiceEvents_append s settings c target p⟩
  | reset =>
    obtain ⟨n, hn, h⟩ := Option.bind_eq_some_iff.mp h
    cases h
    exact ⟨n, hn, Playthrough.entryEvents_eq s settings s.start n s.opening⟩
  | resume chosen =>
    obtain ⟨values, _, h⟩ := Option.bind_eq_some_iff.mp h
    obtain ⟨n, hn, h⟩ := Option.bind_eq_some_iff.mp h
    cases h
    exact ⟨n, hn, Playthrough.entryEvents_eq s chosen (s.entry p) n { p with values }⟩

theorem move?_tells (h : s.move? settings p d = some m) :
    m.Tells s (s.base p d).achievements (s.effectsOf p d) := by
  obtain ⟨n, hn, hevents⟩ := move?_events h
  exact ⟨n, hn, Move.quiet_eq_news hevents⟩

end Story

end Gamebook
