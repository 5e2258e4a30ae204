import Gamebook.Proofs.Choosing
import Gamebook.Proofs.Save

namespace Gamebook

/-- To resume is to save and to go on from the save. -/
inductive Call
  | choose (id : String)
  | view
  | reset
  | resume (now : Instant) (settings : Settings) (g : Generator)

inductive Answer
  | moved (result : Except Fault Move)
  | seen (result : Except Fault Scene)

/-- Where progress is taken up: on its node, or on the start node if none was entered. -/
def Story.entry (s : Story) (p : Progress) : String := if p.node.isEmpty then s.start else p.node

namespace Playthrough

/-- A save that cannot be taken up leaves the playthrough as it is. -/
def perform (t : Playthrough) : Call → Answer × Playthrough
  | .choose id => (.moved (t.choose id).1, (t.choose id).2)
  | .view => (.seen t.view.1, t.view.2)
  | .reset => (.moved t.reset.1, t.reset.2)
  | .resume now settings g =>
    match restore t.story (t.save now) settings g with
    | .error fault => (.moved (.error fault), t)
    | .ok next => (.moved (.ok next.last), next)

def run (t : Playthrough) : List Call → List Answer × Playthrough
  | [] => ([], t)
  | c :: cs =>
    let (answer, next) := t.perform c
    let (answers, last) := next.run cs
    (answer :: answers, last)

/-- A playthrough that begins on a node. -/
def begun (story : Story) (settings : Settings) (p : Progress) (id : String) (n : Node)
    (g : Generator) : Playthrough :=
  ⟨story, settings, Effects.applied n.effects (p.visit id), g,
    ⟨none, id, entryEvents story settings id n p⟩⟩

variable {story : Story} {settings : Settings} {g : Generator}

theorem start_of_some {saved : Option Progress} {n : Node}
    (h : story.nodes.get? (story.entry (saved.getD story.opening)) = some n) :
    start story saved settings g = .ok (begun story settings (saved.getD story.opening)
      (story.entry (saved.getD story.opening)) n g) := by
  simp only [start]
  rw [← Story.entry, enter_of_some h]
  rfl

theorem start_of_none {saved : Option Progress}
    (h : story.nodes.get? (story.entry (saved.getD story.opening)) = none) :
    start story saved settings g =
      .error (.nodeNotFound (story.entry (saved.getD story.opening))) := by
  simp only [start]
  rw [← Story.entry, enter_of_none h]

theorem start_eq_ok_iff {saved : Option Progress} {t : Playthrough} :
    start story saved settings g = .ok t ↔
      ∃ n, story.nodes.get? (story.entry (saved.getD story.opening)) = some n ∧
        t = begun story settings (saved.getD story.opening)
          (story.entry (saved.getD story.opening)) n g := by
  cases hn : story.nodes.get? (story.entry (saved.getD story.opening)) with
  | none => simp [start_of_none hn]
  | some n => simp [start_of_some hn, eq_comm]

/-- A save gives back the progress that was saved, with the values as they are read again. -/
theorem restore_save (t : Playthrough) (now : Instant) :
    restore story (t.save now) settings g =
      match t.progress.values.reread? with
      | none => .error .invalidSave
      | some values => start story (some { t.progress with values }) settings g := by
  rw [restore, save, Save.ofText?_toText]
  cases t.progress.values.reread? <;> rfl

/-- What a call can come to. Only a move that succeeds touches more than the generator. -/
inductive Step (t : Playthrough) : Call → Answer → Playthrough → Prop
  | failed (c : Call) (fault : Fault) (g : Generator) :
    Step t c (.moved (.error fault)) { t with generator := g }
  | seen (result : Except Fault Scene) (g : Generator) :
    Step t .view (.seen result) { t with generator := g }
  | chosen {id : String} {node target : Node} {c : Choice} {m : Move} (g : Generator)
    (hn : t.currentNode = .ok node) (he : node.isEnding = false) (hc : node.FirstChoice id c)
    (ht : t.story.nodes.get? c.target = some target) (hm : m.destination = c.target) :
    Step t (.choose id) (.moved (.ok m))
      { t with progress := c.consequence target t.progress, generator := g, last := m }
  | reset {n : Node} {m : Move} (hn : t.story.nodes.get? t.story.start = some n)
    (hm : m.destination = t.story.start) :
    Step t .reset (.moved (.ok m))
      { t with
        progress := Effects.applied n.effects (t.story.opening.visit t.story.start)
        last := m }
  | resumed {now : Instant} {settings : Settings} {g : Generator} {values : Dictionary Value}
    {n : Node} (hv : t.progress.values.reread? = some values)
    (hn : t.story.nodes.get? (t.story.entry t.progress) = some n) :
    Step t (.resume now settings g)
      (.moved (.ok (begun t.story settings { t.progress with values } (t.story.entry t.progress)
        n g).last))
      (begun t.story settings { t.progress with values } (t.story.entry t.progress) n g)

theorem step_choose (t : Playthrough) (id : String) :
    Step t (.choose id) (.moved (t.choose id).1) (t.choose id).2 := by
  cases hn : t.currentNode with
  | error fault => simpa [choose, hn] using Step.failed (.choose id) fault t.generator
  | ok node =>
    have hcases := choosing hn id
    generalize t.choose id = r at hcases ⊢
    cases hcases with
    | ended => exact .failed _ _ t.generator
    | missing => exact .failed _ _ t.generator
    | closed => exact .failed _ _ _
    | dangling => exact .failed _ _ _
    | taken h hc _ ht hm => exact .chosen _ hn h hc ht (by rw [hm])

/-- A call that fails has moved nothing but the generator. -/
theorem choose_failed {t : Playthrough} {id : String} {fault : Fault}
    (h : (t.choose id).1 = .error fault) : ∃ g, (t.choose id).2 = { t with generator := g } := by
  have hstep := step_choose t id
  rw [h] at hstep
  generalize (t.choose id).2 = next at hstep
  cases hstep with
  | failed _ _ g => exact ⟨g, rfl⟩

theorem step_reset (t : Playthrough) : Step t .reset (.moved t.reset.1) t.reset.2 := by
  cases hn : t.story.nodes.get? t.story.start with
  | none =>
    rw [reset, enter_of_none hn]
    exact .failed _ _ t.generator
  | some n =>
    rw [reset, enter_of_some hn]
    exact .reset hn rfl

theorem step_resume (t : Playthrough) (now : Instant) (settings : Settings) (g : Generator) :
    Step t (.resume now settings g) (t.perform (.resume now settings g)).1
      (t.perform (.resume now settings g)).2 := by
  rw [perform, restore_save]
  cases hv : t.progress.values.reread? with
  | none => exact .failed _ _ t.generator
  | some values =>
    simp only
    have hentry : t.story.entry ((some { t.progress with values }).getD t.story.opening) =
      t.story.entry t.progress := rfl
    cases hn : t.story.nodes.get? (t.story.entry t.progress) with
    | none =>
      rw [start_of_none (by rw [hentry, hn])]
      exact .failed _ _ t.generator
    | some n =>
      rw [start_of_some (by rw [hentry, hn])]
      exact .resumed hv hn

theorem step_perform (t : Playthrough) (c : Call) : Step t c (t.perform c).1 (t.perform c).2 := by
  cases c with
  | choose id => exact step_choose t id
  | view =>
    cases hn : t.currentNode with
    | error fault => simpa [perform, view, hn] using Step.seen (.error fault) t.generator
    | ok node => simpa [perform, view, hn] using Step.seen _ _
  | reset => exact step_reset t
  | resume now settings g => exact step_resume t now settings g

/-- What every step keeps is kept by a run. -/
theorem run_keeps {P : Playthrough → Prop}
    (hstep : ∀ {t next : Playthrough} {c : Call} {a : Answer}, Step t c a next → P t → P next)
    {t : Playthrough} (h : P t) (calls : List Call) : P (t.run calls).2 := by
  induction calls generalizing t with
  | nil => exact h
  | cons c cs ih => exact ih (hstep (step_perform t c) h)

end Playthrough

end Gamebook
