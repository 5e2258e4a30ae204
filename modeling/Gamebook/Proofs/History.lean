import Gamebook.Proofs.Deeds

namespace Gamebook

/-- The same progress after another past. -/
def Progress.recalling (p : Progress) (past : List String) : Progress := { p with history := past }

section Writing

variable (p : Progress) (past : List String)

namespace Progress

@[simp] theorem recalling_node : (p.recalling past).node = p.node := rfl

@[simp] theorem recalling_values : (p.recalling past).values = p.values := rfl

@[simp] theorem recalling_history : (p.recalling past).history = past := rfl

@[simp] theorem hasAchievement_recalling (id : String) :
    (p.recalling past).hasAchievement id = p.hasAchievement id := rfl

theorem visit_recalling (id : String) :
    (p.recalling past).visit id = (p.visit id).recalling (past ++ [id]) := rfl

theorem unlock_recalling (id : String) :
    ((p.recalling past).unlock id).2 = (p.unlock id).2.recalling past := by
  cases h : p.hasAchievement id with
  | true => simp [unlock, h]
  | false =>
    simp only [unlock, hasAchievement_recalling, h, Bool.false_eq_true, if_false]
    rfl

variable {past} in
theorem foldl_recalling {α : Type u} {step : Progress → α → Progress}
    (h : ∀ p x, step (p.recalling past) x = (step p x).recalling past) (xs : List α) :
    xs.foldl step (p.recalling past) = (xs.foldl step p).recalling past :=
  List.foldl_hom (fun p : Progress => p.recalling past) h

end Progress

namespace Effects

theorem applyAssignments_recalling (assignments : Dictionary Value) :
    applyAssignments assignments (p.recalling past) =
      (applyAssignments assignments p).recalling past :=
  p.foldl_recalling (fun _ _ => rfl) _

theorem applyModifications_recalling (modifications : Dictionary Modification) :
    applyModifications modifications (p.recalling past) =
      (applyModifications modifications p).recalling past :=
  p.foldl_recalling (fun _ _ => rfl) _

theorem applyUnlocks_recalling (unlocks : List String) :
    applyUnlocks unlocks (p.recalling past) = (applyUnlocks unlocks p).recalling past :=
  p.foldl_recalling (fun p id => p.unlock_recalling past id) _

theorem apply_recalling (e : Effects) :
    e.apply (p.recalling past) = (e.apply p).recalling past := by
  simp only [apply, applyAssignments_recalling, applyModifications_recalling]
  exact applyUnlocks_recalling
    { applyModifications e.modifications (applyAssignments e.assignments p) with inventory := _ }
    past e.unlocks

theorem applied_recalling (effects : Option Effects) :
    applied effects (p.recalling past) = (applied effects p).recalling past := by
  cases effects with
  | none => rfl
  | some e => exact apply_recalling p past e

end Effects

namespace Cost

theorem applyAmounts_recalling (amounts : Dictionary Float) :
    applyAmounts amounts (p.recalling past) = (applyAmounts amounts p).recalling past :=
  p.foldl_recalling (fun _ _ => rfl) _

theorem applyItems_recalling (items : List String) :
    applyItems items (p.recalling past) = (applyItems items p).recalling past :=
  p.foldl_recalling (fun _ _ => rfl) _

theorem paid_recalling (cost : Option Cost) :
    paid cost (p.recalling past) = (paid cost p).recalling past := by
  cases cost with
  | none => rfl
  | some c =>
    change applyItems c.items (applyAmounts c.amounts (p.recalling past)) = _
    rw [applyAmounts_recalling, applyItems_recalling]
    rfl

end Cost

theorem Choice.consequence_recalling (c : Choice) (target : Node) :
    c.consequence target (p.recalling past) =
      (c.consequence target p).recalling (past ++ [c.target]) := by
  rw [consequence, Cost.paid_recalling, Effects.applied_recalling, Progress.visit_recalling,
    Effects.applied_recalling]
  rfl

end Writing

section Reading

variable (p : Progress) (past : List String) (g : Generator)

namespace Condition

theorem evaluate_recalling (c : Condition) : c.evaluate (p.recalling past) g = c.evaluate p g := by
  cases c with
  | carries operator item => cases operator <;> rfl
  | _ => rfl

theorem evaluateAll_recalling (cs : List Condition) :
    evaluateAll cs (p.recalling past) g = evaluateAll cs p g := by
  induction cs generalizing g with
  | nil => rfl
  | cons c cs ih => simp only [evaluateAll, evaluate_recalling, ih]

end Condition

namespace Markup

theorem Atom.render_recalling (strip : Bool) (a : Atom) :
    a.render strip (p.recalling past) g = a.render strip p g := by
  cases a <;> rfl

theorem renderAtoms_recalling (strip : Bool) (as : List Atom) :
    renderAtoms strip (p.recalling past) g as = renderAtoms strip p g as := by
  induction as generalizing g with
  | nil => rfl
  | cons a as ih => simp only [renderAtoms, Atom.render_recalling, ih]

theorem Piece.render_recalling (strip : Bool) (piece : Piece) :
    piece.render strip (p.recalling past) g = piece.render strip p g := by
  cases piece with
  | atom a => exact a.render_recalling p past g strip
  | block name body =>
    simp only [render, renderAtoms_recalling]
    rfl

theorem renderPieces_recalling (strip : Bool) (pieces : List Piece) :
    renderPieces strip (p.recalling past) g pieces = renderPieces strip p g pieces := by
  induction pieces generalizing g with
  | nil => rfl
  | cons piece pieces ih => simp only [renderPieces, Piece.render_recalling, ih]

theorem render_recalling (strip : Bool) (text : String) :
    render strip text (p.recalling past) g = render strip text p g := by
  simp only [render, renderPieces_recalling]

end Markup

namespace Playthrough

theorem gatesPass_recalling (gates : Gates) :
    gatesPass gates (p.recalling past) g = gatesPass gates p g := by
  simp only [gatesPass, Condition.evaluateAll_recalling]

theorem offers_recalling (strip : Bool) (cs : List Choice) :
    offers strip (p.recalling past) g cs = offers strip p g cs := by
  induction cs generalizing g with
  | nil => rfl
  | cons c cs ih => simp only [offers, Condition.evaluateAll_recalling, Markup.render_recalling, ih]

variable (story : Story) (settings : Settings)

theorem applyEffects_snd_recalling (effects : Option Effects) :
    (applyEffects story settings effects (p.recalling past)).2 =
      (applyEffects story settings effects p).2 := by
  cases effects with
  | none => rfl
  | some e =>
    simp only [applyEffects, Effects.apply_recalling]
    rfl

theorem choiceEvents_recalling (c : Choice) :
    choiceEvents story settings c (p.recalling past) = choiceEvents story settings c p := by
  rw [choiceEvents, Cost.paid_recalling, applyEffects_snd_recalling]
  rfl

theorem entryEvents_recalling (id : String) (n : Node) :
    entryEvents story settings id n (p.recalling past) = entryEvents story settings id n p := by
  rw [entryEvents, Progress.visit_recalling, applyEffects_snd_recalling]
  rfl

end Playthrough

end Reading

/-- What deeds leave of the past. -/
def remembered (deeds : List Deed) (past : List String) : List String :=
  if .reset ∈ deeds then [] else past

theorem remembered_append (ds es : List Deed) (past : List String) :
    remembered (ds ++ es) past = remembered es (remembered ds past) := by
  unfold remembered
  by_cases hd : Deed.reset ∈ ds
  · simp [hd]
  · simp [hd]

theorem remembered_past_append (ds : List Deed) (past later : List String) :
    remembered ds (past ++ later) = remembered ds past ++ remembered ds later := by
  unfold remembered
  split
  next => rfl
  next => rfl

theorem remembered_one (c : Call) (a : Answer) (past : List String) :
    remembered ((deedsDone [c] [a]).map Prod.fst) past =
      if c.deed? = some .reset ∧ a.move?.isSome then [] else past := by
  cases hd : c.deed? <;> cases hm : a.move? <;> simp [remembered, deedsDone, hd, hm, eq_comm]

@[simp] theorem Answer.moved_move?_isSome (r : Except Fault Move) :
    (moved r).move?.isSome = r.isOk := by
  cases r <;> rfl

namespace Playthrough

/-- The same playthrough after another past, come to by another move. -/
def recalling (t : Playthrough) (past : List String) (m : Move) : Playthrough :=
  { t with progress := t.progress.recalling past, last := m }

@[simp] theorem recalling_story (t : Playthrough) (past : List String) (m : Move) :
    (t.recalling past m).story = t.story := rfl

@[simp] theorem recalling_settings (t : Playthrough) (past : List String) (m : Move) :
    (t.recalling past m).settings = t.settings := rfl

@[simp] theorem recalling_progress (t : Playthrough) (past : List String) (m : Move) :
    (t.recalling past m).progress = t.progress.recalling past := rfl

@[simp] theorem recalling_generator (t : Playthrough) (past : List String) (m : Move) :
    (t.recalling past m).generator = t.generator := rfl

/-- Two playthroughs that went the same way after different pasts. -/
def Alike (past past' : List String) (t t' : Playthrough) : Prop :=
  ∃ later m, t.progress.history = past ++ later ∧ t' = t.recalling (past' ++ later) m

variable {past past' : List String} {t t' : Playthrough}

theorem alike_recalling (t : Playthrough) (past : List String) (m : Move) :
    Alike t.progress.history past t (t.recalling past m) :=
  ⟨[], m, by simp, by simp⟩

theorem Alike.shorten {later : List String} (h : Alike (past ++ later) (past' ++ later) t t') :
    Alike past past' t t' := by
  obtain ⟨more, m, hhistory, heq⟩ := h
  exact ⟨later ++ more, m, by simpa using hhistory, by simpa using heq⟩

theorem Alike.progress_eq (h : Alike [] [] t t') : t'.progress = t.progress := by
  obtain ⟨later, m, hhistory, rfl⟩ := h
  have hlater : later = t.progress.history := hhistory.symm
  rw [hlater]
  rfl

theorem Alike.of_progress_eq (hs : t'.story = t.story) (hc : t'.settings = t.settings)
    (hg : t'.generator = t.generator) (hp : t'.progress = t.progress) : Alike [] [] t t' := by
  cases t'
  cases hs; cases hc; cases hg; cases hp
  exact ⟨t.progress.history, _, rfl, rfl⟩

/-- Gates, costs and effects go by what is carried and what the variables hold. -/
theorem choose_recalling (t : Playthrough) (past : List String) (m : Move) (id : String) :
    ((t.recalling past m).choose id).1 = (t.choose id).1 ∧
      Alike t.progress.history past (t.choose id).2 ((t.recalling past m).choose id).2 := by
  have hstayed : ∀ g, Alike t.progress.history past { t with generator := g }
      ({ t with generator := g }.recalling past m) := fun g => alike_recalling _ past m
  have hcurrent : (t.recalling past m).currentNode = t.currentNode := rfl
  simp only [choose, hcurrent, recalling_progress, recalling_story, recalling_settings,
    recalling_generator, Progress.recalling_node, gatesPass_recalling]
  -- Until the choice is taken only the generator moves on, by the same draws in both.
  cases t.currentNode with
  | error fault => exact ⟨rfl, hstayed t.generator⟩
  | ok node =>
    dsimp only
    cases node.isEnding with
    | true => exact ⟨rfl, hstayed t.generator⟩
    | false =>
      cases node.choice? id with
      | none => exact ⟨rfl, hstayed t.generator⟩
      | some c =>
        dsimp only
        obtain ⟨passed, g⟩ := gatesPass c.gates t.progress t.generator
        cases passed with
        | false => exact ⟨rfl, hstayed g⟩
        | true =>
          cases ht : t.story.nodes.get? c.target with
          | none =>
            simp only [follow_of_none ht]
            exact ⟨rfl, hstayed g⟩
          | some target =>
            simp only [follow_of_some ht, choiceEvents_recalling, Cost.paid_recalling,
              Effects.applied_recalling, entryEvents_recalling, Choice.consequence_recalling]
            exact ⟨rfl, [c.target], _, by simp, rfl⟩

theorem sceneOf_recalling (t : Playthrough) (past : List String) (m : Move) (n : Node) :
    (t.recalling past m).sceneOf n = t.sceneOf n := by
  simp only [sceneOf, recalling_progress, recalling_story, recalling_settings, recalling_generator,
    Markup.render_recalling, offers_recalling]
  rfl

theorem view_recalling (t : Playthrough) (past : List String) (m : Move) :
    (t.recalling past m).view.1 = t.view.1 ∧
      Alike t.progress.history past t.view.2 (t.recalling past m).view.2 := by
  have hcurrent : (t.recalling past m).currentNode = t.currentNode := rfl
  simp only [view, hcurrent, sceneOf_recalling]
  cases t.currentNode with
  | error fault => exact ⟨rfl, alike_recalling t past m⟩
  | ok n => exact ⟨rfl, alike_recalling { t with generator := _ } past m⟩

theorem begun_recalling (story : Story) (settings : Settings) (p : Progress) (past : List String)
    (id : String) (n : Node) (g : Generator) :
    begun story settings (p.recalling past) id n g =
      (begun story settings p id n g).recalling (past ++ [id])
        (begun story settings p id n g).last := by
  simp only [begun, Progress.visit_recalling, Effects.applied_recalling, entryEvents_recalling]
  rfl

/-- To begin is to visit a node, whatever was visited before. -/
theorem start_recalling (story : Story) (settings : Settings) (p : Progress) (past : List String)
    (g : Generator) : start story (some (p.recalling past)) settings g =
      (start story (some p) settings g).map fun t =>
        t.recalling (past ++ [t.progress.node]) t.last := by
  cases hn : story.nodes.get? (story.entry p) with
  | none =>
    have hstart : start story (some p) settings g = .error (.nodeNotFound (story.entry p)) :=
      start_of_none hn
    rw [hstart]
    exact start_of_none hn
  | some n =>
    have hstart : start story (some p) settings g =
        .ok (begun story settings p (story.entry p) n g) := start_of_some hn
    rw [hstart, Except.map, begun_node, ← begun_recalling]
    exact start_of_some hn

theorem resume_recalling (t : Playthrough) (past : List String) (m : Move) (now : Instant)
    (settings : Settings) (g : Generator) :
    ((t.recalling past m).perform (.resume now settings g)).1 =
        (t.perform (.resume now settings g)).1 ∧
      Alike t.progress.history past (t.perform (.resume now settings g)).2
        ((t.recalling past m).perform (.resume now settings g)).2 := by
  have hsaved : ∀ values,
      start t.story (some { t.progress.recalling past with values }) settings g =
      (start t.story (some { t.progress with values }) settings g).map fun t =>
        t.recalling (past ++ [t.progress.node]) t.last :=
    fun values => start_recalling t.story settings { t.progress with values } past g
  simp only [perform, restore_save, recalling_progress, recalling_story, Progress.recalling_values,
    hsaved]
  cases t.progress.values.reread? with
  | none => exact ⟨rfl, alike_recalling t past m⟩
  | some values =>
    dsimp only
    cases hs : start t.story (some { t.progress with values }) settings g with
    | error fault => exact ⟨rfl, alike_recalling t past m⟩
    | ok next =>
      obtain ⟨n, _, rfl⟩ := start_eq_ok_iff.mp hs
      exact ⟨rfl, [_], _, by rw [begun_history, begun_node]; rfl, rfl⟩

/-- A reset forgets the past if it can be done. -/
theorem reset_recalling (t : Playthrough) (past : List String) (m : Move) :
    ((t.recalling past m).reset).1 = t.reset.1 ∧
      Alike (if t.reset.1.isOk then [] else t.progress.history)
        (if t.reset.1.isOk then [] else past) t.reset.2 (t.recalling past m).reset.2 := by
  unfold reset
  cases hn : t.story.nodes.get? t.story.start with
  | none =>
    rw [recalling_story, enter_of_none hn, enter_of_none hn]
    exact ⟨rfl, alike_recalling t past m⟩
  | some n =>
    rw [recalling_story, enter_of_some hn, enter_of_some hn]
    exact ⟨rfl, .of_progress_eq rfl rfl rfl rfl⟩

/-- No call can tell what was visited before. -/
theorem perform_recalling (t : Playthrough) (past : List String) (m : Move) (c : Call) :
    let done := (deedsDone [c] [(t.perform c).1]).map Prod.fst
    ((t.recalling past m).perform c).1 = (t.perform c).1 ∧
      Alike (remembered done t.progress.history) (remembered done past) (t.perform c).2
        ((t.recalling past m).perform c).2 := by
  simp only [remembered_one]
  cases c with
  | choose id => simpa [Call.deed?, perform] using choose_recalling t past m id
  | view => simpa [Call.deed?, perform] using view_recalling t past m
  | reset => simpa [Call.deed?, perform] using reset_recalling t past m
  | resume now settings g => simpa [Call.deed?] using resume_recalling t past m now settings g

/-- One call gets the same answer in both, and both remember the same of what they did since. -/
theorem Alike.perform (h : Alike past past' t t') (c : Call) :
    let done := (deedsDone [c] [(t.perform c).1]).map Prod.fst
    (t'.perform c).1 = (t.perform c).1 ∧
      Alike (remembered done past) (remembered done past') (t.perform c).2 (t'.perform c).2 := by
  obtain ⟨later, m, hhistory, rfl⟩ := h
  obtain ⟨hanswer, hnext⟩ := perform_recalling t (past' ++ later) m c
  rw [hhistory, remembered_past_append, remembered_past_append] at hnext
  exact ⟨hanswer, hnext.shorten⟩

theorem Alike.run (h : Alike past past' t t') (calls : List Call) :
    let done := (deedsDone calls (t.run calls).1).map Prod.fst
    (t'.run calls).1 = (t.run calls).1 ∧
      Alike (remembered done past) (remembered done past') (t.run calls).2 (t'.run calls).2 := by
  induction calls generalizing past past' t t' with
  | nil => exact ⟨rfl, h⟩
  | cons c cs ih =>
    obtain ⟨hanswer, hnext⟩ := h.perform c
    obtain ⟨hanswers, hlast⟩ := ih hnext
    rw [← remembered_append, ← remembered_append, ← List.map_append, ← deedsDone_split] at hlast
    exact ⟨congrArg₂ List.cons hanswer hanswers, hlast⟩

end Playthrough

end Gamebook
