import Gamebook.Proofs.Chance
import Gamebook.Proofs.Deeds

namespace Gamebook

namespace Story

/-- The progress after a deed. -/
def after (s : Story) (p : Progress) (d : Deed) : Progress := (s.after? p d).getD p

def replay (s : Story) (p : Progress) (deeds : List Deed) : Progress := deeds.foldl s.after p

/-- The moves that deeds make one after the other. -/
def moves (s : Story) (settings : Settings) (p : Progress) : List Deed → List Move
  | [] => []
  | d :: ds => (s.move? settings p d).toList ++ s.moves (d.settings settings) (s.after p d) ds

/-- What deeds fail on that are tried one after the other, with the gates looked at with one
generator all the time. -/
def foresee (s : Story) (g : Generator) (p : Progress) : List Deed → List (Deed × Option Fault)
  | [] => []
  | d :: ds =>
    let fault := s.hindrance? p (fun gates => (Playthrough.gatesPass gates p g).1) d
    (d, fault) :: s.foresee g (if fault.isSome then p else s.after p d) ds

section Settings

open Playthrough

variable {s : Story} {settings settings' : Settings}

theorem applyEffects_congr (h : settings.vibration = settings'.vibration) :
    applyEffects s settings = applyEffects s settings' := by
  funext effects p
  simp [applyEffects, unlockEvents, buzz, h]

theorem entryEvents_congr (h : settings.vibration = settings'.vibration) :
    entryEvents s settings = entryEvents s settings' := by
  funext id n p
  simp [entryEvents, applyEffects_congr h, buzz, h]

/-- Of the settings only the vibration shows in a move. -/
theorem move?_congr (h : settings.vibration = settings'.vibration) (p : Progress) (d : Deed) :
    s.move? settings p d = s.move? settings' p d := by
  cases d <;> simp [move?, choiceEvents, applyEffects_congr h, entryEvents_congr h]

theorem moves_congr (h : settings.vibration = settings'.vibration) (p : Progress) (ds : List Deed) :
    s.moves settings p ds = s.moves settings' p ds := by
  induction ds generalizing settings settings' p with
  | nil => rfl
  | cons d ds ih =>
    have hnext : (d.settings settings).vibration = (d.settings settings').vibration := by
      cases d <;> simp [Deed.settings, h]
    rw [moves, moves, move?_congr h, ih hnext]

end Settings

end Story

namespace Playthrough

/-- The deeds that were done lead where the run has led, by the moves that it made. -/
theorem run_replay (t : Playthrough) (calls : List Call) :
    (t.run calls).2.progress =
        t.story.replay t.progress ((deedsDone calls (t.run calls).1).map Prod.fst) ∧
      (deedsDone calls (t.run calls).1).map Prod.snd =
        t.story.moves t.settings t.progress ((deedsDone calls (t.run calls).1).map Prod.fst) := by
  induction calls generalizing t with
  | nil => exact ⟨rfl, rfl⟩
  | cons c cs ih =>
    have hnext := ih (t.perform c).2
    simp only [run, deedsDone_cons]
    cases hd : c.deed? with
    | none =>
      obtain ⟨g, hg⟩ := perform_of_no_deed (t := t) hd
      simpa [hg] using hnext
    | some d =>
      have hdoing := doing_perform (t := t) hd
      generalize (t.perform c).1 = a at *
      generalize (t.perform c).2 = next at *
      cases hdoing with
      | hindered g h => simpa [Answer.move?] using hnext
      | done g h hp hm =>
        simp only [Story.replay] at hnext ⊢
        simpa [Answer.move?, Story.moves, Story.after, hp, hm] using hnext

/-- Where no gate of the story is left to chance, any generator shows what hinders a deed. -/
theorem hindrance?_of_certain {t : Playthrough} (h : t.story.IsCertain) (g : Generator) (d : Deed) :
    t.hindrance? d =
      t.story.hindrance? t.progress (fun gates => (gatesPass gates t.progress g).1) d := by
  cases d with
  | choose id =>
    simp only [hindrance?, Story.hindrance?]
    cases hn : t.story.nodes.get? t.progress.node with
    | none => rfl
    | some node =>
      cases hc : node.choice? id with
      | none => simp [hc]
      | some c =>
        have hmem : node ∈ t.story.nodes.values := Dictionary.mem_values_iff.mpr ⟨_, hn⟩
        have hgates := h node hmem c (Node.choice?_eq_some_iff.mp hc).mem
        simp [hc, passes, gatesPass_fst hgates t.progress t.generator g]
  | reset => rfl
  | resume settings => rfl

theorem run_foresee (g : Generator) {t : Playthrough} (h : t.story.IsCertain) (calls : List Call) :
    verdicts calls (t.run calls).1 = t.story.foresee g t.progress (calls.filterMap Call.deed?) := by
  induction calls generalizing t with
  | nil => rfl
  | cons c cs ih =>
    simp only [run, verdicts_cons]
    cases hd : c.deed? with
    | none =>
      obtain ⟨g', hg⟩ := perform_of_no_deed (t := t) hd
      have hnext := ih (t := (t.perform c).2) (by simpa [hg] using h)
      simpa [hd, hg] using hnext
    | some d =>
      have hdoing := doing_perform (t := t) hd
      have hcertain := hindrance?_of_certain h g d
      generalize (t.perform c).1 = a at *
      generalize (t.perform c).2 = next at *
      cases hdoing with
      | hindered g' hf =>
        have hnext := ih (t := { t with generator := g' }) h
        simp [hd, Answer.fault?, Story.foresee, ← hcertain, hf, hnext]
      | @done m p g' hf hp hm =>
        have hnext := ih (t := ⟨t.story, d.settings t.settings, p, g', m⟩) h
        simp [hd, Answer.fault?, Story.foresee, Story.after, ← hcertain, hf, hp, hnext]

/-- Two games from one start in which the same deeds are done come to the same progress by the same
moves, whatever else was tried or looked at; and where no gate is left to chance, the same deeds are
done or fail on the same faults. -/
theorem replays_agree {story : Story} {saved : Option Progress} {settings₁ settings₂ : Settings}
    {g₁ g₂ : Generator} {t₁ t₂ : Playthrough} (h₁ : start story saved settings₁ g₁ = .ok t₁)
    (h₂ : start story saved settings₂ g₂ = .ok t₂) (calls₁ calls₂ : List Call) :
    let done₁ := deedsDone calls₁ (t₁.run calls₁).1
    let done₂ := deedsDone calls₂ (t₂.run calls₂).1
    (done₁.map Prod.fst = done₂.map Prod.fst →
      (t₁.run calls₁).2.progress = (t₂.run calls₂).2.progress ∧
      (settings₁.vibration = settings₂.vibration → done₁ = done₂)) ∧
    (story.IsCertain → calls₁.filterMap Call.deed? = calls₂.filterMap Call.deed? →
      verdicts calls₁ (t₁.run calls₁).1 = verdicts calls₂ (t₂.run calls₂).1) := by
  intro done₁ done₂
  obtain ⟨n, hn, rfl⟩ := start_eq_ok_iff.mp h₁
  obtain ⟨n', hn', rfl⟩ := start_eq_ok_iff.mp h₂
  obtain rfl : n = n' := Option.some.inj (hn.symm.trans hn')
  obtain ⟨hprogress₁, hmoves₁⟩ := run_replay _ calls₁
  obtain ⟨hprogress₂, hmoves₂⟩ := run_replay _ calls₂
  refine ⟨?_, ?_⟩
  · intro hdeeds
    refine ⟨?_, ?_⟩
    · rw [hprogress₁, hprogress₂]
      exact congrArg _ hdeeds
    · intro hvibration
      have hmoves : done₁.map Prod.snd = done₂.map Prod.snd := by
        calc done₁.map Prod.snd = _ := hmoves₁
          _ = _ := Story.moves_congr hvibration _ _
          _ = _ := congrArg _ hdeeds
          _ = done₂.map Prod.snd := hmoves₂.symm
      exact (List.zip_of_prod hdeeds hmoves).trans (List.zip_of_prod rfl rfl).symm
  · intro hcertain htried
    rw [run_foresee g₁ hcertain, run_foresee g₁ hcertain, htried]
    rfl

/-- Boarding always succeeds and swimming never does. -/
def pier : Node :=
  ⟨"pier", none, ⟨"{random:Rain|Sun} on the water.", none, none⟩,
    [⟨"board", "Board", "boat", ⟨[], [.chance (some 1)]⟩, none, none⟩,
      ⟨"swim", "Swim", "boat", ⟨[], [.chance (some 0)]⟩, none, none⟩], none, false⟩

def boat : Node := ⟨"boat", none, ⟨"", none, none⟩, [], none, true⟩

def crossing : Story :=
  ⟨"pier", (Dictionary.empty.insert "pier" pier).insert "boat" boat, .empty, .empty, .empty, .empty⟩

theorem replays_agree_crossing : ∃ t₁ t₂, start crossing none {} (.ofSeed 7) = .ok t₁ ∧
    start crossing none {} (.ofSeed 8) = .ok t₂ ∧
    (t₁.run [.choose "board"]).2.progress =
      (t₂.run [.view, .choose "swim", .choose "board"]).2.progress ∧
    verdicts [.choose "swim", .view] (t₁.run [.choose "swim", .view]).1 =
      verdicts [.view, .choose "swim"] (t₂.run [.view, .choose "swim"]).1 := by
  have h₁ : start crossing none {} (.ofSeed 7) =
    .ok (begun crossing {} crossing.opening "pier" pier (.ofSeed 7)) := start_of_some rfl
  have h₂ : start crossing none {} (.ofSeed 8) =
    .ok (begun crossing {} crossing.opening "pier" pier (.ofSeed 8)) := start_of_some rfl
  have hdone := (replays_agree h₁ h₂ [.choose "board"] [.view, .choose "swim", .choose "board"]).1
  have htried := (replays_agree h₁ h₂ [.choose "swim", .view] [.view, .choose "swim"]).2
  exact ⟨_, _, h₁, h₂, (hdone (by decide +kernel)).1, htried (by decide +kernel) rfl⟩

end Playthrough

end Gamebook
