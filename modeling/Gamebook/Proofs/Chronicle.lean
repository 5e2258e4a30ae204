import Mathlib.Data.List.Chain
import Gamebook.Proofs.Calls

namespace Gamebook

/-- How a node is come to. -/
inductive Arrival
  | begun
  | chosen
  | resumed
deriving DecidableEq

structure Visit where
  arrival : Arrival
  node : String
deriving DecidableEq

/-- What was visited before the playthrough began, the node it began on, and what came later. -/
structure Chronicle where
  earlier : List String
  first : String
  later : List Visit
deriving DecidableEq

namespace Chronicle

def new (story : Story) : Chronicle := ⟨[], story.start, []⟩

def opening (story : Story) : Option Progress → Chronicle
  | none => new story
  | some p => ⟨p.history, story.entry p, []⟩

def extend (ch : Chronicle) (v : Visit) : Chronicle := { ch with later := ch.later ++ [v] }

/-- Only answers of success are written down, and a reset begins a new chronicle. -/
def record (story : Story) (ch : Chronicle) : Call × Answer → Chronicle
  | (.choose _, .moved (.ok m)) => ch.extend ⟨.chosen, m.destination⟩
  | (.resume .., .moved (.ok m)) => ch.extend ⟨.resumed, m.destination⟩
  | (.reset, .moved (.ok _)) => new story
  | _ => ch

def recordAll (story : Story) (ch : Chronicle) (calls : List Call) (answers : List Answer) :
    Chronicle :=
  (calls.zip answers).foldl (record story) ch

def visits (ch : Chronicle) : List Visit := ⟨.begun, ch.first⟩ :: ch.later

def current (ch : Chronicle) : Visit := ch.visits.getLast (List.cons_ne_nil _ _)

def history (ch : Chronicle) : List String := ch.earlier ++ ch.visits.map Visit.node

theorem opening_eq (story : Story) (saved : Option Progress) :
    opening story saved = ⟨(saved.getD story.opening).history,
      story.entry (saved.getD story.opening), []⟩ := by
  cases saved <;> rfl

theorem visits_extend (ch : Chronicle) (v : Visit) : (ch.extend v).visits = ch.visits ++ [v] := rfl

@[simp] theorem current_extend (ch : Chronicle) (v : Visit) : (ch.extend v).current = v := by
  simp [current, visits_extend]

@[simp] theorem history_extend (ch : Chronicle) (v : Visit) :
    (ch.extend v).history = ch.history ++ [v.node] := by
  rw [history, visits_extend]
  simp [history, extend]

theorem visits_getLast? (ch : Chronicle) : ch.visits.getLast? = some ch.current :=
  List.getLast?_eq_some_getLast _

theorem history_getLast? (ch : Chronicle) : ch.history.getLast? = some ch.current.node := by
  rw [history, List.getLast?_append, List.getLast?_map, visits_getLast?]
  rfl

end Chronicle

/-- A node is left by a choice that it offers, unless it is an ending. To resume is to come to it
again; where the id of the node is empty, it is to come to the start node. -/
def Visit.Follows (story : Story) (a b : Visit) : Prop :=
  match b.arrival with
  | .begun => False
  | .chosen => ∃ n, story.nodes.get? a.node = some n ∧ n.isEnding = false ∧
      ∃ c ∈ n.choices, c.target = b.node
  | .resumed => b.node = if a.node.isEmpty then story.start else a.node

namespace Playthrough

variable {story : Story} {settings : Settings} {g : Generator}

/-- The player stands on a node of the story, where the last move and the chronicle lead. -/
structure Sound (story : Story) (ch : Chronicle) (t : Playthrough) : Prop where
  story_eq : t.story = story
  present : (story.nodes.get? t.progress.node).isSome
  arrived : t.last.destination = t.progress.node
  current : ch.current.node = t.progress.node
  history : t.progress.history = ch.history
  linked : ch.visits.IsChain (Visit.Follows story)

theorem Sound.extend {ch : Chronicle} {t next : Playthrough} {v : Visit} (hs : Sound story ch t)
    (hstory : next.story = story) (hv : (story.nodes.get? v.node).isSome)
    (hnode : next.progress.node = v.node) (hlast : next.last.destination = v.node)
    (hhistory : next.progress.history = t.progress.history ++ [v.node])
    (hfollows : ch.current.Follows story v) : Sound story (ch.extend v) next where
  story_eq := hstory
  present := hnode ▸ hv
  arrived := hlast.trans hnode.symm
  current := by simp [hnode]
  history := by rw [hhistory, hs.history, Chronicle.history_extend]
  linked := by
    rw [Chronicle.visits_extend, List.isChain_append]
    refine ⟨hs.linked, List.isChain_singleton v, ?_⟩
    intro a ha b hb
    obtain rfl : v = b := by simpa using hb
    obtain rfl : ch.current = a := by simpa [Chronicle.visits_getLast?] using ha
    exact hfollows

theorem currentNode_eq_ok_iff {t : Playthrough} {n : Node} :
    t.currentNode = .ok n ↔ t.story.nodes.get? t.progress.node = some n := by
  unfold currentNode Story.node
  cases t.story.nodes.get? t.progress.node <;> simp

theorem begun_node (p : Progress) (id : String) (n : Node) :
    (begun story settings p id n g).progress.node = id := by
  simp [begun, Progress.visit]

theorem begun_history (p : Progress) (id : String) (n : Node) :
    (begun story settings p id n g).progress.history = p.history ++ [id] := by
  simp [begun, Progress.visit]

theorem sound_start {saved : Option Progress} {t : Playthrough}
    (h : start story saved settings g = .ok t) : Sound story (.opening story saved) t := by
  obtain ⟨n, hn, rfl⟩ := start_eq_ok_iff.mp h
  rw [Chronicle.opening_eq]
  refine ⟨rfl, ?_, ?_, ?_, ?_, ?_⟩
  · rw [begun_node, hn]
    rfl
  · rw [begun_node]
    rfl
  · rw [begun_node]
    rfl
  · rw [begun_history]
    rfl
  · exact List.isChain_singleton _

theorem Sound.redraw {ch : Chronicle} {t : Playthrough} (hs : Sound story ch t) (g : Generator) :
    Sound story ch { t with generator := g } :=
  ⟨hs.story_eq, hs.present, hs.arrived, hs.current, hs.history, hs.linked⟩

/-- Each call keeps the chronicle sound, whether it succeeds or not. -/
theorem Sound.step {ch : Chronicle} {t next : Playthrough} {c : Call} {a : Answer}
    (hs : Sound story ch t) (h : Step t c a next) : Sound story (ch.record story (c, a)) next := by
  obtain rfl := hs.story_eq
  cases h with
  | failed c fault g =>
    have hsame : ch.record t.story (c, .moved (.error fault)) = ch := by cases c <;> rfl
    rw [hsame]
    exact hs.redraw g
  | seen result g => exact hs.redraw g
  | @chosen id node target c m g hn he hc ht hm =>
    refine hs.extend rfl (by simp [hm, ht]) (by simp [hm]) rfl (by simp [hm]) ?_
    refine ⟨node, ?_, he, c, hc.mem, hm.symm⟩
    rw [hs.current]
    exact currentNode_eq_ok_iff.mp hn
  | @reset n m hn hm =>
    refine ⟨rfl, ?_, ?_, ?_, ?_, ?_⟩
    · simp [Progress.visit, hn]
    · simp [Progress.visit, hm]
    · simp [Progress.visit, Chronicle.record, Chronicle.new, Chronicle.current, Chronicle.visits]
    · simp [Progress.visit, Story.opening, Progress.empty, Chronicle.record, Chronicle.new,
        Chronicle.history, Chronicle.visits]
    · exact List.isChain_singleton _
  | @resumed now settings g values n hv hn =>
    refine hs.extend rfl (by simp [begun, hn]) (begun_node ..) rfl (begun_history ..) ?_
    simp [Visit.Follows, begun, hs.current, Story.entry]

theorem Sound.run {ch : Chronicle} {t : Playthrough} (hs : Sound story ch t) (calls : List Call) :
    Sound story (ch.recordAll story calls (t.run calls).1) (t.run calls).2 := by
  induction calls generalizing ch t with
  | nil => exact hs
  | cons c cs ih => exact ih (hs.step (step_perform t c))

theorem view_of_currentNode {t : Playthrough} {n : Node} (h : t.currentNode = .ok n) :
    t.view = (.ok (t.sceneOf n).1, { t with generator := (t.sceneOf n).2 }) := by
  simp [view, h]

/-- A game that has begun always has a scene to show. -/
theorem Sound.view_eq {ch : Chronicle} {t : Playthrough} (hs : Sound story ch t) :
    ∃ scene g, t.view = (.ok scene, { t with generator := g }) := by
  obtain ⟨n, hn⟩ := Option.isSome_iff_exists.mp hs.present
  exact ⟨_, _, view_of_currentNode (currentNode_eq_ok_iff.mpr (hs.story_eq ▸ hn))⟩

/-- However a playthrough goes on once it has begun, the player stands on a node of the story, it is
the last one entered, and every node entered since the beginning or the last reset follows on the
one before. -/
theorem run_chronicle {saved : Option Progress} {t₀ : Playthrough}
    (h : start story saved settings g = .ok t₀) (calls : List Call) :
    let t := (t₀.run calls).2
    let ch := (Chronicle.opening story saved).recordAll story calls (t₀.run calls).1
    (∃ n, story.nodes.get? t.progress.node = some n ∧ t.currentNode = .ok n ∧
      t.phase = phaseOf n ∧ ∃ scene, t.view.1 = .ok scene) ∧
    t.progress.history.getLast? = some t.progress.node ∧
    t.last.destination = t.progress.node ∧
    t.progress.history = ch.earlier ++ ch.first :: ch.later.map Visit.node ∧
    (⟨.begun, ch.first⟩ :: ch.later).IsChain (Visit.Follows story) ∧
    t.story = story := by
  intro t ch
  have hs : Sound story ch t := (sound_start h).run calls
  obtain ⟨n, hn⟩ := Option.isSome_iff_exists.mp hs.present
  have hcurrent : t.currentNode = .ok n := currentNode_eq_ok_iff.mpr (hs.story_eq ▸ hn)
  have hlast : t.progress.history.getLast? = some t.progress.node := by
    rw [hs.history, Chronicle.history_getLast?, hs.current]
  refine ⟨⟨n, hn, hcurrent, ?_, ?_⟩, hlast, hs.arrived, hs.history, hs.linked, hs.story_eq⟩
  · simp [phase, hcurrent]
  · exact ⟨_, congrArg Prod.fst (view_of_currentNode hcurrent)⟩

def gate : Node :=
  ⟨"gate", none, ⟨"", none, none⟩, [⟨"in", "Go in", "yard", ⟨[], []⟩, none, none⟩], none, false⟩

def yard : Node := ⟨"yard", none, ⟨"", none, none⟩, [], none, true⟩

def walk : Story :=
  ⟨"gate", (Dictionary.empty.insert "gate" gate).insert "yard" yard, .empty, .empty, .empty, .empty⟩

theorem run_chronicle_walk : ∃ t₀, start walk none {} (.ofSeed 7) = .ok t₀ ∧
    (t₀.run [.choose "in", .choose "in"]).2.progress.history = ["gate", "yard"] ∧
    [⟨.begun, "gate"⟩, ⟨.chosen, "yard"⟩].IsChain (Visit.Follows walk) := by
  have h : start walk none {} (.ofSeed 7) = .ok (begun walk {} walk.opening "gate" gate (.ofSeed 7)) :=
    start_of_some rfl
  have hrun := run_chronicle h [.choose "in", .choose "in"]
  exact ⟨_, h, hrun.2.2.2.1, hrun.2.2.2.2.1⟩

end Playthrough

end Gamebook
