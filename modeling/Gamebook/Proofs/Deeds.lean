import Gamebook.Proofs.Chronicle

namespace Gamebook

/-- What a call asks for, chance and the clock aside. A view asks for nothing. -/
inductive Deed
  | choose (id : String)
  | reset
  | resume (settings : Settings)
deriving DecidableEq

def Call.deed? : Call → Option Deed
  | choose id => some (.choose id)
  | view => none
  | reset => some .reset
  | resume _ settings _ => some (.resume settings)

/-- The settings that hold once a deed is done. -/
def Deed.settings (d : Deed) (current : Settings) : Settings :=
  match d with
  | resume settings => settings
  | _ => current

namespace Answer

def fault? : Answer → Option Fault
  | moved (.error fault) | seen (.error fault) => some fault
  | _ => none

def move? : Answer → Option Move
  | moved (.ok m) => some m
  | _ => none

end Answer

/-- The deeds of a run that were done, each with the move that it made. -/
def deedsDone (calls : List Call) (answers : List Answer) : List (Deed × Move) :=
  (calls.zip answers).filterMap fun e => do return (← e.1.deed?, ← e.2.move?)

/-- The deeds of a run, each with the fault that it failed on, if any. -/
def verdicts (calls : List Call) (answers : List Answer) : List (Deed × Option Fault) :=
  (calls.zip answers).filterMap fun e => e.1.deed?.map fun d => (d, e.2.fault?)

theorem deedsDone_cons (c : Call) (cs : List Call) (a : Answer) (as : List Answer) :
    deedsDone (c :: cs) (a :: as) =
      (c.deed?.bind fun d => a.move?.map fun m => (d, m)).toList ++ deedsDone cs as := by
  cases hd : c.deed? <;> cases hm : a.move? <;> simp [deedsDone, hd, hm]

theorem deedsDone_split (c : Call) (cs : List Call) (a : Answer) (as : List Answer) :
    deedsDone (c :: cs) (a :: as) = deedsDone [c] [a] ++ deedsDone cs as := by
  simp only [deedsDone_cons, List.append_assoc]
  rfl

theorem verdicts_cons (c : Call) (cs : List Call) (a : Answer) (as : List Answer) :
    verdicts (c :: cs) (a :: as) =
      (c.deed?.map fun d => (d, a.fault?)).toList ++ verdicts cs as := by
  cases hd : c.deed? <;> simp [verdicts, hd]

namespace Story

/-- The fault of going to a node that is not there. -/
def missing? (s : Story) (id : String) : Option Fault :=
  if s.nodes.contains id then none else some (.nodeNotFound id)

/-- What keeps a deed from being done, where `passes` says which gates let the player pass. -/
def hindrance? (s : Story) (p : Progress) (passes : Gates → Bool) : Deed → Option Fault
  | .choose id =>
    match s.nodes.get? p.node with
    | none => some (.nodeNotFound p.node)
    | some node =>
      if node.isEnding then some (.storyEnded p.node)
      else match node.choice? id with
        | none => some (.choiceNotFound id)
        | some c => if passes c.gates then s.missing? c.target else some (.choiceUnavailable id)
  | .reset => s.missing? s.start
  | .resume _ => if p.values.reread?.isSome then s.missing? (s.entry p) else some .invalidSave

/-- The progress that a deed leads to where nothing hinders it. -/
def after? (s : Story) (p : Progress) : Deed → Option Progress
  | .choose id => do
    let node ← s.nodes.get? p.node
    let c ← node.choice? id
    let target ← s.nodes.get? c.target
    return c.consequence target p
  | .reset => do
    let n ← s.nodes.get? s.start
    return Effects.applied n.effects (s.opening.visit s.start)
  | .resume _ => do
    let values ← p.values.reread?
    let n ← s.nodes.get? (s.entry p)
    return Effects.applied n.effects (Progress.visit { p with values } (s.entry p))

open Playthrough in
/-- The move that a deed makes where nothing hinders it. -/
def move? (s : Story) (settings : Settings) (p : Progress) : Deed → Option Move
  | .choose id => do
    let node ← s.nodes.get? p.node
    let c ← node.choice? id
    let target ← s.nodes.get? c.target
    let changed := Effects.applied c.effects (Cost.paid c.cost p)
    return ⟨some p.node, c.target,
      choiceEvents s settings c p ++ entryEvents s settings c.target target changed⟩
  | .reset => do
    let n ← s.nodes.get? s.start
    return ⟨some p.node, s.start, entryEvents s settings s.start n s.opening⟩
  | .resume chosen => do
    let values ← p.values.reread?
    let n ← s.nodes.get? (s.entry p)
    return ⟨none, s.entry p, entryEvents s chosen (s.entry p) n { p with values }⟩

@[simp] theorem entry_values (s : Story) (p : Progress) (values : Dictionary Value) :
    s.entry { p with values } = s.entry p := rfl

theorem missing?_of_some {s : Story} {id : String} {n : Node} (h : s.nodes.get? id = some n) :
    s.missing? id = none := by
  simp [missing?, Dictionary.contains, h]

theorem missing?_of_none {s : Story} {id : String} (h : s.nodes.get? id = none) :
    s.missing? id = some (.nodeNotFound id) := by
  simp [missing?, Dictionary.contains, h]

end Story

namespace Playthrough

/-- Whether gates let the player pass as the generator stands. -/
def passes (t : Playthrough) (gates : Gates) : Bool := (gatesPass gates t.progress t.generator).1

def hindrance? (t : Playthrough) (d : Deed) : Option Fault :=
  t.story.hindrance? t.progress t.passes d

/-- A deed fails on what hinders it, and is done if nothing does. -/
inductive Doing (t : Playthrough) (d : Deed) : Answer → Playthrough → Prop
  | hindered {fault : Fault} (g : Generator) (h : t.hindrance? d = some fault) :
    Doing t d (.moved (.error fault)) { t with generator := g }
  | done {m : Move} {p : Progress} (g : Generator) (h : t.hindrance? d = none)
    (hp : t.story.after? t.progress d = some p)
    (hm : t.story.move? t.settings t.progress d = some m) :
    Doing t d (.moved (.ok m)) ⟨t.story, d.settings t.settings, p, g, m⟩

theorem passes_iff (t : Playthrough) (gates : Gates) :
    t.passes gates = true ↔ ¬gates.Fail t.progress t.generator := by
  rw [← gatesPass_fst_eq_false_iff, passes, Bool.not_eq_false]

theorem hindrance?_choose {t : Playthrough} {node : Node} (hn : t.currentNode = .ok node)
    (he : node.isEnding = false) {id : String} {c : Choice} (hc : node.FirstChoice id c) :
    t.hindrance? (.choose id) =
      if t.passes c.gates then t.story.missing? c.target else some (.choiceUnavailable id) := by
  have hget := currentNode_eq_ok_iff.mp hn
  have hchoice := Node.choice?_eq_some_iff.mpr hc
  simp [hindrance?, Story.hindrance?, hget, he, hchoice]

theorem doing_choose (t : Playthrough) (id : String) :
    Doing t (.choose id) (.moved (t.choose id).1) (t.choose id).2 := by
  cases hn : t.story.nodes.get? t.progress.node with
  | none =>
    have hfault : t.currentNode = .error (.nodeNotFound t.progress.node) := by
      simp [currentNode, Story.node, hn]
    rw [choose, hfault]
    exact .hindered t.generator (by simp [hindrance?, Story.hindrance?, hn])
  | some node =>
    have hcurrent := currentNode_eq_ok_iff.mpr hn
    have hcases := choosing hcurrent id
    generalize t.choose id = r at hcases ⊢
    cases hcases with
    | ended h => exact .hindered t.generator (by simp [hindrance?, Story.hindrance?, hn, h])
    | missing h hid =>
      have hnone := Node.choice?_eq_none_iff.mpr hid
      exact .hindered t.generator (by simp [hindrance?, Story.hindrance?, hn, h, hnone])
    | @closed c h hc hg =>
      have hclosed : t.passes c.gates = false := by simpa [hg] using t.passes_iff c.gates
      exact .hindered _ (by simp [hindrance?_choose hcurrent h hc, hclosed])
    | @dangling c h hc hg ht =>
      have hopen := (t.passes_iff c.gates).mpr hg
      exact .hindered _
        (by simp [hindrance?_choose hcurrent h hc, hopen, Story.missing?_of_none ht])
    | @taken c target m h hc hg ht hm =>
      have hopen := (t.passes_iff c.gates).mpr hg
      have hchoice := Node.choice?_eq_some_iff.mpr hc
      exact .done _ (by simp [hindrance?_choose hcurrent h hc, hopen, Story.missing?_of_some ht])
        (by simp [Story.after?, hn, hchoice, ht]) (by simp [Story.move?, hn, hchoice, ht, hm])

theorem doing_reset (t : Playthrough) : Doing t .reset (.moved t.reset.1) t.reset.2 := by
  cases hn : t.story.nodes.get? t.story.start with
  | none =>
    rw [reset, enter_of_none hn]
    exact .hindered t.generator (Story.missing?_of_none hn)
  | some n =>
    rw [reset, enter_of_some hn]
    exact .done t.generator (Story.missing?_of_some hn)
      (by simp [Story.after?, hn]) (by simp [Story.move?, hn, entryEvents])

theorem doing_resume (t : Playthrough) (now : Instant) (settings : Settings) (g : Generator) :
    Doing t (.resume settings) (t.perform (.resume now settings g)).1
      (t.perform (.resume now settings g)).2 := by
  rw [perform, restore_save]
  cases hv : t.progress.values.reread? with
  | none => exact .hindered t.generator (by simp [hindrance?, Story.hindrance?, hv])
  | some values =>
    simp only
    cases hn : t.story.nodes.get? (t.story.entry t.progress) with
    | none =>
      rw [start_of_none (by simp [hn])]
      exact .hindered t.generator
        (by simp [hindrance?, Story.hindrance?, hv, Story.missing?_of_none hn])
    | some n =>
      rw [start_of_some (n := n) (by simp [hn])]
      exact .done g (by simp [hindrance?, Story.hindrance?, hv, Story.missing?_of_some hn])
        (by simp [Story.after?, hv, hn]) (by simp [Story.move?, hv, hn, begun])

/-- What a call asks for is done or hindered. -/
theorem doing_perform {t : Playthrough} {c : Call} {d : Deed} (h : c.deed? = some d) :
    Doing t d (t.perform c).1 (t.perform c).2 := by
  cases c with
  | choose id => cases h; exact doing_choose t id
  | view => simp [Call.deed?] at h
  | reset => cases h; exact doing_reset t
  | resume now settings g => cases h; exact doing_resume t now settings g

theorem move?_of_perform {t : Playthrough} {c : Call} {d : Deed} {m : Move} (hd : c.deed? = some d)
    (hm : (t.perform c).1.move? = some m) : t.story.move? t.settings t.progress d = some m := by
  have hdoing := doing_perform (t := t) hd
  generalize (t.perform c).1 = a at hdoing hm
  generalize (t.perform c).2 = next at hdoing
  cases hdoing with
  | hindered => cases hm
  | done g hf hp hmove =>
    obtain rfl := Option.some.inj hm
    exact hmove

/-- A call that asks for nothing changes nothing but the generator. -/
theorem perform_of_no_deed {t : Playthrough} {c : Call} (h : c.deed? = none) :
    ∃ g, (t.perform c).2 = { t with generator := g } := by
  cases c with
  | view =>
    cases hn : t.currentNode with
    | error fault => exact ⟨t.generator, by simp [perform, view, hn]⟩
    | ok node => exact ⟨_, congrArg Prod.snd (view_of_currentNode hn)⟩
  | _ => simp [Call.deed?] at h

end Playthrough

end Gamebook
