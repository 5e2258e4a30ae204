import Gamebook.Proofs.Events

namespace Gamebook

namespace Markup

variable (strip strip' : Bool) (p : Progress) (g : Generator)

/-- No marker is drawn by chance, so that it makes no difference to the draws whether one is kept. -/
theorem Atom.render_snd (a : Atom) : (a.render strip' p g).2 = (a.render strip p g).2 := by
  cases a with
  | marker closing => cases strip <;> cases strip' <;> cases closing <;> rfl
  | _ => rfl

theorem renderAtoms_snd (as : List Atom) :
    (renderAtoms strip' p g as).2 = (renderAtoms strip p g as).2 := by
  induction as generalizing g with
  | nil => rfl
  | cons a as ih =>
    simp only [renderAtoms]
    rw [Atom.render_snd strip strip', ih]

theorem Piece.render_snd (piece : Piece) :
    (piece.render strip' p g).2 = (piece.render strip p g).2 := by
  cases piece with
  | atom a => exact a.render_snd strip strip' p g
  | block name body =>
    simp only [render]
    split
    · exact renderAtoms_snd strip strip' p g body
    · rfl

theorem renderPieces_snd (pieces : List Piece) :
    (renderPieces strip' p g pieces).2 = (renderPieces strip p g pieces).2 := by
  induction pieces generalizing g with
  | nil => rfl
  | cons piece pieces ih =>
    simp only [renderPieces]
    rw [Piece.render_snd strip strip', ih]

theorem render_snd (text : String) : (render strip' text p g).2 = (render strip text p g).2 :=
  renderPieces_snd strip strip' p g (pieces text.toList)

end Markup

/-- An offer without its text. -/
def Offer.blank (o : Offer) : Offer := { o with text := "" }

theorem Playthrough.offers_blank (strip strip' : Bool) (p : Progress) (g : Generator)
    (cs : List Choice) : (offers strip' p g cs).2 = (offers strip p g cs).2 ∧
      (offers strip' p g cs).1.map Offer.blank = (offers strip p g cs).1.map Offer.blank := by
  induction cs generalizing g with
  | nil => exact ⟨rfl, rfl⟩
  | cons c cs ih =>
    simp only [offers]
    obtain ⟨shown, g⟩ := Condition.evaluateAll c.gates.visible p g
    cases shown with
    | false => exact ih g
    | true =>
      dsimp only
      obtain ⟨enabled, g⟩ := Condition.evaluateAll c.gates.enabled p g
      rw [Markup.render_snd strip strip']
      obtain ⟨hdraws, hoffers⟩ := ih (Markup.render strip c.text p g).2
      exact ⟨hdraws, congrArg (List.cons _) hoffers⟩

/-- A scene with nothing in it that two settings make different. -/
def Scene.shared (s s' : Settings) (a : Scene) : Scene :=
  { a with
    text := if s.stripMarkers = s'.stripMarkers then a.text else ""
    audio := if s.sound = s'.sound then a.audio else none
    offers := if s.stripMarkers = s'.stripMarkers then a.offers else a.offers.map Offer.blank }

/-- A move with nothing in it that is only felt. -/
def Move.still (m : Move) : Move := { m with events := m.quiet }

theorem Move.still_news (story : Story) (s s' : Settings) (origin : Option String)
    (destination : String) (held : List String) (chosen : Option Effects) (id : String) (n : Node) :
    still ⟨origin, destination, s'.felt (story.news held chosen id n)⟩ =
      still ⟨origin, destination, s.felt (story.news held chosen id n)⟩ := by
  have hquiet : ∀ s : Settings, quiet ⟨origin, destination, s.felt (story.news held chosen id n)⟩ =
    story.news held chosen id n := fun _ => quiet_eq_news rfl
  simp only [still, hquiet]

def Answer.shared (s s' : Settings) : Answer → Answer
  | moved r => moved (r.map Move.still)
  | seen r => seen (r.map (Scene.shared s s'))

/-- The same call from a game that is played under settings. -/
def Call.under (settings : Settings) : Call → Call
  | resume now _ g => resume now settings g
  | c => c

/-- With vibration what happens in a move is felt, without it nothing is. -/
def Move.FeltUnder (m : Move) (s : Settings) : Prop := m.events = s.felt m.quiet

theorem Move.feltUnder_of_news {m : Move} {s : Settings} {story : Story} {held : List String}
    {chosen : Option Effects} {id : String} {n : Node}
    (h : m.events = s.felt (story.news held chosen id n)) : m.FeltUnder s := by
  rw [FeltUnder, quiet_eq_news h, h]

/-- An answer as settings have it presented: felt or not, heard or not. -/
inductive Answer.Presented (s : Settings) : Answer → Prop
  | fault (fault : Fault) : Presented s (moved (.error fault))
  | unseen (fault : Fault) : Presented s (seen (.error fault))
  | moved {m : Move} (h : m.FeltUnder s) : Presented s (moved (.ok m))
  | seen {scene : Scene} (h : s.sound = false → scene.audio = none) : Presented s (seen (.ok scene))

namespace Playthrough

/-- The same playthrough under other settings, come to by another move. -/
def under (t : Playthrough) (settings : Settings) (m : Move) : Playthrough :=
  { t with settings, last := m }

section Under

variable (t : Playthrough) (s' : Settings) (m : Move)

@[simp] theorem under_story : (t.under s' m).story = t.story := rfl

@[simp] theorem under_settings : (t.under s' m).settings = s' := rfl

@[simp] theorem under_progress : (t.under s' m).progress = t.progress := rfl

@[simp] theorem under_generator : (t.under s' m).generator = t.generator := rfl

theorem sceneOf_under (n : Node) : ((t.under s' m).sceneOf n).2 = (t.sceneOf n).2 ∧
    ((t.under s' m).sceneOf n).1.shared t.settings s' = (t.sceneOf n).1.shared t.settings s' := by
  have hdraws := Markup.render_snd t.settings.stripMarkers s'.stripMarkers t.progress t.generator
    n.content.text
  have hoffers := offers_blank t.settings.stripMarkers s'.stripMarkers t.progress
    (Markup.render t.settings.stripMarkers n.content.text t.progress t.generator).2 n.choices
  have haudio : (if t.settings.sound = s'.sound then
        n.content.audio.filter fun id => s'.sound && t.story.audio.contains id else none) =
      if t.settings.sound = s'.sound then
        n.content.audio.filter fun id => t.settings.sound && t.story.audio.contains id else none := by
    split
    next h => rw [h]
    next => rfl
  simp only [sceneOf, under_settings, under_progress, under_generator, under_story, hdraws,
    Scene.shared, haudio]
  by_cases hstrip : t.settings.stripMarkers = s'.stripMarkers
  · simp [hstrip]
  · cases n.isEnding with
    | true => simp [hstrip]
    | false => simp [hstrip, hoffers]

theorem view_under : ((t.under s' m).view.1.map (Scene.shared t.settings s')) =
      t.view.1.map (Scene.shared t.settings s') ∧
    (t.under s' m).view.2 = t.view.2.under s' m := by
  have hcurrent : (t.under s' m).currentNode = t.currentNode := rfl
  simp only [view, hcurrent]
  cases t.currentNode with
  | error fault => exact ⟨rfl, rfl⟩
  | ok n =>
    obtain ⟨hdraws, hscene⟩ := sceneOf_under t s' m n
    exact ⟨congrArg Except.ok hscene, congrArg (fun g => { t.under s' m with generator := g }) hdraws⟩

theorem choose_under (id : String) :
    ((t.under s' m).choose id).1.map Move.still = (t.choose id).1.map Move.still ∧
      ∃ m', ((t.under s' m).choose id).2 = (t.choose id).2.under s' m' := by
  have hcurrent : (t.under s' m).currentNode = t.currentNode := rfl
  simp only [choose, hcurrent, under_progress, under_story, under_settings, under_generator]
  cases t.currentNode with
  | error fault => exact ⟨rfl, m, rfl⟩
  | ok node =>
    dsimp only
    cases node.isEnding with
    | true => exact ⟨rfl, m, rfl⟩
    | false =>
      cases node.choice? id with
      | none => exact ⟨rfl, m, rfl⟩
      | some c =>
        dsimp only
        obtain ⟨passed, g⟩ := gatesPass c.gates t.progress t.generator
        cases passed with
        | false => exact ⟨rfl, m, rfl⟩
        | true =>
          cases ht : t.story.nodes.get? c.target with
          | none =>
            simp only [follow_of_none ht]
            exact ⟨rfl, m, rfl⟩
          | some target =>
            simp only [follow_of_some ht, choiceEvents_append]
            exact ⟨congrArg Except.ok (Move.still_news ..), _, rfl⟩

theorem reset_under : (t.under s' m).reset.1.map Move.still = t.reset.1.map Move.still ∧
    ∃ m', (t.under s' m).reset.2 = t.reset.2.under s' m' := by
  unfold reset
  cases hn : t.story.nodes.get? t.story.start with
  | none =>
    rw [under_story, enter_of_none hn, enter_of_none hn]
    exact ⟨rfl, m, rfl⟩
  | some n =>
    have hentered : ∀ s, enter t.story s t.story.start t.story.opening =
        .ok (Effects.applied n.effects (t.story.opening.visit t.story.start),
          s.felt (t.story.news t.story.opening.achievements none t.story.start n)) := fun s => by
      rw [enter_of_some hn, ← entryEvents_eq]
      rfl
    simp only [under_story, hentered]
    exact ⟨congrArg Except.ok (Move.still_news ..), _, rfl⟩

end Under

/-- A game begins in the same way under any settings, or with the same fault. -/
theorem start_under (story : Story) (saved : Option Progress) (s s' : Settings) (g : Generator) :
    (∃ fault, start story saved s g = .error fault ∧ start story saved s' g = .error fault) ∨
      ∃ t m, start story saved s g = .ok t ∧ start story saved s' g = .ok (t.under s' m) ∧
        t.settings = s ∧ m.still = t.last.still := by
  cases hn : story.nodes.get? (story.entry (saved.getD story.opening)) with
  | none => exact .inl ⟨_, start_of_none hn, start_of_none hn⟩
  | some n =>
    refine .inr ⟨_, _, start_of_some hn, start_of_some hn, rfl, ?_⟩
    simp only [begun, entryEvents_eq]
    exact Move.still_news ..

theorem resume_under (t : Playthrough) (s' : Settings) (m : Move) (now : Instant) (g : Generator) :
    ((t.under s' m).perform (.resume now s' g)).1.shared t.settings s' =
        (t.perform (.resume now t.settings g)).1.shared t.settings s' ∧
      ∃ m', ((t.under s' m).perform (.resume now s' g)).2 =
        (t.perform (.resume now t.settings g)).2.under s' m' := by
  simp only [perform, restore_save, under_progress, under_story]
  cases t.progress.values.reread? with
  | none => exact ⟨rfl, m, rfl⟩
  | some values =>
    dsimp only
    rcases start_under t.story (some { t.progress with values }) t.settings s' g with
      ⟨fault, hs, hs'⟩ | ⟨next, m', hs, hs', -, hstill⟩
    · rw [hs, hs']
      exact ⟨rfl, m, rfl⟩
    · rw [hs, hs']
      exact ⟨congrArg (fun m => Answer.moved (.ok m)) hstill, m', rfl⟩

/-- One call comes to the same in both, what the player sees, hears and feels of it aside. -/
theorem perform_under (t : Playthrough) (s' : Settings) (m : Move) (c : Call) :
    ((t.under s' m).perform (c.under s')).1.shared t.settings s' =
        (t.perform (c.under t.settings)).1.shared t.settings s' ∧
      ∃ m', ((t.under s' m).perform (c.under s')).2 =
        (t.perform (c.under t.settings)).2.under s' m' := by
  cases c with
  | choose id =>
    obtain ⟨hmove, hnext⟩ := choose_under t s' m id
    exact ⟨congrArg Answer.moved hmove, hnext⟩
  | view =>
    obtain ⟨hscene, hnext⟩ := view_under t s' m
    exact ⟨congrArg Answer.seen hscene, m, hnext⟩
  | reset =>
    obtain ⟨hmove, hnext⟩ := reset_under t s' m
    exact ⟨congrArg Answer.moved hmove, hnext⟩
  | resume now _ g => exact resume_under t s' m now g

theorem perform_deed_presented {t : Playthrough} {c : Call} {d : Deed} (hd : c.deed? = some d)
    (hs : d.settings t.settings = t.settings) :
    (t.perform c).1.Presented t.settings ∧ (t.perform c).2.settings = t.settings := by
  have hdoing := doing_perform (t := t) hd
  generalize (t.perform c).1 = a at *
  generalize (t.perform c).2 = next at *
  cases hdoing with
  | hindered => exact ⟨.fault _, rfl⟩
  | done g hf hp hm =>
    obtain ⟨n, -, hevents⟩ := Story.move?_events hm
    rw [hs] at hevents
    exact ⟨.moved (Move.feltUnder_of_news hevents), hs⟩

/-- Every answer is presented as the settings say, and the settings stay. -/
theorem perform_presented (t : Playthrough) (c : Call) :
    (t.perform (c.under t.settings)).1.Presented t.settings ∧
      (t.perform (c.under t.settings)).2.settings = t.settings := by
  cases c with
  | choose id => exact perform_deed_presented rfl rfl
  | reset => exact perform_deed_presented rfl rfl
  | resume now _ g => exact perform_deed_presented rfl rfl
  | view =>
    change (Answer.seen t.view.1).Presented _ ∧ t.view.2.settings = _
    cases hn : t.currentNode with
    | error fault =>
      rw [view, hn]
      exact ⟨.unseen fault, rfl⟩
    | ok n =>
      rw [view_of_currentNode hn]
      refine ⟨.seen fun hsound => ?_, rfl⟩
      simp [sceneOf, hsound]

theorem run_presented (t : Playthrough) (calls : List Call) :
    ∀ a ∈ (t.run (calls.map (Call.under t.settings))).1, a.Presented t.settings := by
  induction calls generalizing t with
  | nil => simp [run]
  | cons c cs ih =>
    obtain ⟨hanswer, hsettings⟩ := perform_presented t c
    have hrest := ih (t.perform (c.under t.settings)).2
    rw [hsettings] at hrest
    exact List.forall_mem_cons.mpr ⟨hanswer, hrest⟩

theorem run_under (t : Playthrough) (s' : Settings) (m : Move) (calls : List Call) :
    ((t.under s' m).run (calls.map (Call.under s'))).1.map (Answer.shared t.settings s') =
        (t.run (calls.map (Call.under t.settings))).1.map (Answer.shared t.settings s') ∧
      ∃ m', ((t.under s' m).run (calls.map (Call.under s'))).2 =
        (t.run (calls.map (Call.under t.settings))).2.under s' m' := by
  induction calls generalizing t m with
  | nil => exact ⟨rfl, m, rfl⟩
  | cons c cs ih =>
    obtain ⟨hanswer, m', hnext⟩ := perform_under t s' m c
    have hrest := ih (t.perform (c.under t.settings)).2 m'
    rw [(perform_presented t c).2, ← hnext] at hrest
    exact ⟨congrArg₂ List.cons hanswer hrest.1, hrest.2⟩

theorem start_felt {story : Story} {saved : Option Progress} {s : Settings} {g : Generator}
    {t : Playthrough} (h : start story saved s g = .ok t) : t.last.FeltUnder s := by
  obtain ⟨n, -, rfl⟩ := start_eq_ok_iff.mp h
  exact Move.feltUnder_of_news (entryEvents_eq ..)

/-- Two games with one seed are one game, whatever else their settings say: the same calls fail, the same
moves are made and the same is drawn by chance. The settings decide only how it is presented. -/
theorem run_under_settings {s s' : Settings} {seed : UInt64} (hs : s.seed = some seed)
    (hs' : s'.seed = some seed) (story : Story) (saved : Option Progress) (entropy entropy' : UInt64) :
    (∃ fault, start story saved s (s.generator entropy) = .error fault ∧
      start story saved s' (s'.generator entropy') = .error fault) ∨
    ∃ t t', start story saved s (s.generator entropy) = .ok t ∧
      start story saved s' (s'.generator entropy') = .ok t' ∧
      t'.last.still = t.last.still ∧ t.last.FeltUnder s ∧ t'.last.FeltUnder s' ∧
      ∀ calls : List Call,
        let (answers, last) := t.run (calls.map (Call.under s))
        let (answers', last') := t'.run (calls.map (Call.under s'))
        answers'.map (Answer.shared s s') = answers.map (Answer.shared s s') ∧
        last'.progress = last.progress ∧ last'.generator = last.generator ∧
        (∀ a ∈ answers, a.Presented s) ∧ ∀ a ∈ answers', a.Presented s' := by
  have hg : s'.generator entropy' = s.generator entropy := by
    simp only [Settings.generator, hs, hs', Option.getD_some]
  rw [hg]
  rcases start_under story saved s s' (s.generator entropy) with
    hfault | ⟨t, m, ht, ht', rfl, hstill⟩
  · exact .inl hfault
  · refine .inr ⟨t, t.under s' m, ht, ht', hstill, start_felt ht, start_felt ht', fun calls => ?_⟩
    obtain ⟨hanswers, m', hlast⟩ := run_under t s' m calls
    refine ⟨hanswers, ?_, ?_, run_presented t calls, run_presented (t.under s' m) calls⟩
    · rw [hlast, under_progress]
    · rw [hlast, under_generator]

/-- A bell is heard and its tone is a matter of chance; the text about it is typed out. -/
def tower : Node :=
  ⟨"tower", none, ⟨"{typewriter}The bell rings {random:once|twice}.{/typewriter}", none, some "bell"⟩,
    [⟨"ring", "Ring {typewriter}again{/typewriter}", "tower", ⟨[], []⟩,
      some ⟨.empty, .empty, [], [], ["ringer"]⟩, none⟩], none, false⟩

def belfry : Story :=
  ⟨"tower", Dictionary.empty.insert "tower" tower, .empty, .empty, .empty,
    Dictionary.empty.insert "bell" ⟨"bell.ogg", false, 1, none⟩⟩

def loud : Settings := { seed := some 7 }

def hushed : Settings := ⟨some 7, false, false, true⟩

theorem run_under_settings_belfry : ∃ t t', start belfry none loud (.ofSeed 7) = .ok t ∧
    start belfry none hushed (.ofSeed 7) = .ok t' ∧
    (t'.run [.view, .choose "ring", .view]).2.generator =
      (t.run [.view, .choose "ring", .view]).2.generator ∧
    ∀ a ∈ (t'.run [.view, .choose "ring", .view]).1, a.Presented hushed := by
  have hs : loud.seed = some 7 := rfl
  have hs' : hushed.seed = some 7 := rfl
  rcases run_under_settings hs hs' belfry none 0 1 with
    ⟨fault, h, -⟩ | ⟨t, t', ht, ht', -, -, -, hrun⟩
  · have hstart : start belfry none loud (.ofSeed 7) =
      .ok (begun belfry loud belfry.opening "tower" tower (.ofSeed 7)) := start_of_some rfl
    cases h.symm.trans hstart
  · have hcalls := hrun [.view, .choose "ring", .view]
    exact ⟨t, t', ht, ht', hcalls.2.2.1, hcalls.2.2.2.2⟩

end Playthrough

end Gamebook
