import Gamebook.Proofs.Chronicle
import Gamebook.Session

namespace Gamebook

/-- The offer that is shown under a number. -/
def Scene.numbered? (s : Scene) : Nat → Option Offer
  | 0 => none
  | n + 1 => s.offers[n]?

namespace Session

/-- The call that a line stands for, by the scene shown last. -/
def call? (s : Session) (line : String) : Option Call :=
  match Command.ofLine line with
  | .restart => some .reset
  | .other text =>
    if s.scene.isEnding then none
    else do
      let n ← wordOf? text.toList
      let offer ← s.scene.numbered? n.toNat
      return .choose offer.id
  | .nothing | .quit => none

/-- The game with its newest scene. -/
def seen (old : Scene) (game : Playthrough) : Session :=
  match game.view with
  | (.ok scene, game) => ⟨game, scene⟩
  | (.error _, game) => ⟨game, old⟩

/-- After a move the newest scene is shown, after anything else the latest one stays. -/
def follow (s : Session) (line : String) : Session :=
  match (s.call? line).map s.game.perform with
  | some (.moved (.ok _), game) => seen s.scene game
  | some (_, game) => ⟨game, s.scene⟩
  | none => s

/-- Lines are followed up to the first that quits. -/
def followAll (s : Session) (lines : List String) : Session :=
  (lines.takeWhile fun line => Command.ofLine line ≠ .quit).foldl follow s

/-- The scene shown last is one of the progress that the game has reached. -/
def Shown (s : Session) : Prop := ∃ g, ({ s.game with generator := g } : Playthrough).view.1 = .ok s.scene

/-- Why a line is skipped. -/
inductive Skipped (s : Session) (line : String) : Prop
  | blank (h : Command.ofLine line = .nothing)
  | ended {text : String} (h : Command.ofLine line = .other text) (hended : s.scene.isEnding = true)
  | unknown {text : String} (h : Command.ofLine line = .other text) (hn : wordOf? text.toList = none)
  | beyond {text : String} {n : UInt64} (h : Command.ofLine line = .other text)
    (hn : wordOf? text.toList = some n) (hoffer : s.scene.numbered? n.toNat = none)
  | refused {c : Call} {fault : Fault} {next : Playthrough} (h : s.call? line = some c)
    (hc : s.game.perform c = (.moved (.error fault), next))

variable {s : Session} {line : String}

section Turns

theorem numbered?_eq (scene : Scene) (n : UInt64) :
    scene.numbered? n.toNat = if n = 0 then none else scene.offers[n.toNat - 1]? := by
  by_cases hn : n = 0
  · subst hn
    rfl
  · have hpos : n.toNat ≠ 0 := fun h => hn (UInt64.toNat_inj.mp h)
    obtain ⟨k, hk⟩ := Nat.exists_eq_succ_of_ne_zero hpos
    rw [if_neg hn, hk]
    rfl

theorem call?_restart (h : Command.ofLine line = .restart) : s.call? line = some .reset := by
  rw [call?, h]

theorem call?_other {text : String} (h : Command.ofLine line = .other text) :
    s.call? line = match pick s.scene text with
      | .choice id => some (.choose id)
      | .refused _ => none := by
  rw [call?, h, pick]
  simp only
  split
  next => rfl
  next =>
    cases wordOf? text.toList with
    | none => rfl
    | some n =>
      simp only [Option.bind_eq_bind, Option.bind_some, numbered?_eq]
      by_cases hn : n = 0
      · simp [hn]
      · simp only [if_neg hn]
        cases s.scene.offers[n.toNat - 1]? <;> rfl

/-- Only a restart or a choice is ever asked for. -/
theorem call?_cases {c : Call} (h : s.call? line = some c) :
    (Command.ofLine line = .restart ∧ c = .reset) ∨
      ∃ text id, Command.ofLine line = .other text ∧ pick s.scene text = .choice id ∧
        c = .choose id := by
  cases hline : Command.ofLine line with
  | nothing => simp [call?, hline] at h
  | quit => simp [call?, hline] at h
  | restart =>
    rw [call?_restart hline] at h
    exact .inl ⟨rfl, (Option.some.inj h).symm⟩
  | other text =>
    rw [call?_other hline] at h
    cases hpick : pick s.scene text with
    | refused message => simp [hpick] at h
    | choice id =>
      rw [hpick] at h
      exact .inr ⟨text, id, rfl, hpick, (Option.some.inj h).symm⟩

/-- A line quits, is skipped, or a move is made. -/
theorem quits_or_skipped_or_moved (s : Session) (line : String) :
    Command.ofLine line = .quit ∨ s.Skipped line ∨ ∃ c m next,
      s.call? line = some c ∧ s.game.perform c = (.moved (.ok m), next) := by
  have hcall : ∀ c result next, s.call? line = some c →
      s.game.perform c = (.moved result, next) → s.Skipped line ∨ ∃ c m next,
        s.call? line = some c ∧ s.game.perform c = (.moved (.ok m), next) := by
    intro c result next hc hanswer
    cases result with
    | error fault => exact .inl (.refused hc hanswer)
    | ok m => exact .inr ⟨c, m, next, hc, hanswer⟩
  cases hline : Command.ofLine line with
  | nothing => exact .inr (.inl (.blank hline))
  | quit => exact .inl rfl
  | restart => exact .inr (hcall _ _ _ (call?_restart hline) rfl)
  | other text =>
    refine .inr ?_
    cases hended : s.scene.isEnding with
    | true => exact .inl (.ended hline hended)
    | false =>
      cases hn : wordOf? text.toList with
      | none => exact .inl (.unknown hline hn)
      | some n =>
        cases hoffer : s.scene.numbered? n.toNat with
        | none => exact .inl (.beyond hline hn hoffer)
        | some o =>
          have hc : s.call? line = some (.choose o.id) := by
            simp [call?, hline, hended, hn, hoffer]
          exact hcall _ _ _ hc rfl

end Turns

section Following

theorem followAll_quit (h : Command.ofLine line = .quit) (lines : List String) :
    s.followAll (line :: lines) = s := by
  simp [followAll, h]

theorem followAll_cons (h : Command.ofLine line ≠ .quit) (lines : List String) :
    s.followAll (line :: lines) = (s.follow line).followAll lines := by
  simp [followAll, h]

/-- One more line is followed, unless an earlier one has quit or it quits itself. -/
theorem followAll_one (s : Session) (before : List String) (line : String) :
    s.followAll (before ++ [line]) = s.followAll before ∨
      s.followAll (before ++ [line]) = (s.followAll before).follow line := by
  induction before generalizing s with
  | nil =>
    by_cases h : Command.ofLine line = .quit
    · exact .inl (followAll_quit h [])
    · exact .inr (followAll_cons h [])
  | cons first rest ih =>
    rw [List.cons_append]
    by_cases h : Command.ofLine first = .quit
    · rw [followAll_quit h, followAll_quit h]
      exact .inl rfl
    · rw [followAll_cons h, followAll_cons h]
      exact ih (s.follow first)

theorem follow_of_none (h : s.call? line = none) : s.follow line = s := by
  rw [follow, h]
  rfl

theorem follow_of_moved {c : Call} {m : Move} {next : Playthrough} (h : s.call? line = some c)
    (hc : s.game.perform c = (.moved (.ok m), next)) : s.follow line = seen s.scene next := by
  rw [follow, h, Option.map_some, hc]

theorem follow_of_refused {c : Call} {fault : Fault} {next : Playthrough} (h : s.call? line = some c)
    (hc : s.game.perform c = (.moved (.error fault), next)) : s.follow line = ⟨next, s.scene⟩ := by
  rw [follow, h, Option.map_some, hc]

/-- Without a call there is nothing that is asked of the game. -/
theorem Skipped.call?_none_or_refused (h : s.Skipped line) : s.call? line = none ∨
    ∃ c fault next, s.call? line = some c ∧ s.game.perform c = (.moved (.error fault), next) := by
  cases h with
  | blank h => exact .inl (by rw [call?, h])
  | ended h hended => exact .inl (by simp [call?, h, hended])
  | unknown h hn => exact .inl (by simp [call?, h, hn])
  | beyond h hn hoffer => exact .inl (by simp [call?, h, hn, hoffer])
  | refused h hc => exact .inr ⟨_, _, _, h, hc⟩

/-- A refused call may have drawn numbers, and nothing else. -/
theorem Skipped.follow_eq (h : s.Skipped line) :
    ∃ g, s.follow line = ⟨{ s.game with generator := g }, s.scene⟩ := by
  rcases h.call?_none_or_refused with hnone | ⟨c, fault, next, hc, hrefused⟩
  · exact ⟨s.game.generator, follow_of_none hnone⟩
  · have hstep := Playthrough.step_perform s.game c
    rw [follow_of_refused hc hrefused]
    rw [hrefused] at hstep
    cases hstep with
    | failed _ _ g => exact ⟨g, rfl⟩

theorem shown_of_view {game next : Playthrough} {scene : Scene} (h : game.view = (.ok scene, next)) :
    Shown ⟨next, scene⟩ := by
  have hstep := Playthrough.step_perform game .view
  rw [Playthrough.perform, h] at hstep
  cases hstep with
  | seen _ g => exact ⟨game.generator, congrArg Prod.fst h⟩

theorem Shown.skip (hs : s.Shown) (h : s.Skipped line) : (s.follow line).Shown := by
  obtain ⟨g, hg⟩ := h.follow_eq
  rw [hg]
  exact hs

end Following

section Terminal

theorem turn_of_quit (h : Command.ofLine line = .quit) : s.turn line = .quit := by
  rw [turn, h]

theorem turn_of_call {c : Call} {result : Except Fault Move} {next : Playthrough}
    (h : s.call? line = some c) (hc : s.game.perform c = (.moved result, next)) :
    s.turn line = settle s.scene (result, next) := by
  obtain ⟨hline, rfl⟩ | ⟨text, id, hline, hpick, rfl⟩ := call?_cases h
  · have hreset : s.game.reset = (result, next) := by
      cases hc
      rfl
    rw [turn, hline]
    exact congrArg (settle s.scene) hreset
  · have hchoose : s.game.choose id = (result, next) := by
      cases hc
      rfl
    rw [turn, hline]
    simp only [hpick, hchoose]

theorem turn_of_skipped (h : s.Skipped line) : ∃ out, s.turn line = .refused (s.follow line) out := by
  rcases h.call?_none_or_refused with hnone | ⟨c, fault, next, hc, hrefused⟩
  · rw [follow_of_none hnone, turn]
    cases hline : Command.ofLine line with
    | nothing => exact ⟨_, rfl⟩
    | quit =>
      cases h with
      | blank h => cases hline.symm.trans h
      | ended h _ | unknown h _ | beyond h _ _ => cases hline.symm.trans h
      | refused h _ => cases hnone.symm.trans h
    | restart => cases hnone.symm.trans (call?_restart hline)
    | other text =>
      rw [call?_other hline] at hnone
      cases hpick : pick s.scene text with
      | refused message => exact ⟨_, by simp only [hpick]; rfl⟩
      | choice id => simp [hpick] at hnone
  · rw [follow_of_refused hc hrefused, turn_of_call hc hrefused]
    exact ⟨_, rfl⟩

theorem turn_of_moved {c : Call} {m : Move} {next shown : Playthrough} {scene : Scene}
    (h : s.call? line = some c) (hc : s.game.perform c = (.moved (.ok m), next))
    (hview : next.view = (.ok scene, shown)) :
    s.follow line = ⟨shown, scene⟩ ∧
      s.turn line = .stepped (s.follow line) (eventsText m) (sceneText scene) := by
  have hfollow : s.follow line = ⟨shown, scene⟩ := by rw [follow_of_moved h hc, seen, hview]
  refine ⟨hfollow, ?_⟩
  rw [hfollow, turn_of_call h hc, settle, ofGame, hview]

variable {story : Story} {ch : Chronicle}

theorem Skipped.sound (hs : Playthrough.Sound story ch s.game) (h : s.Skipped line) :
    Playthrough.Sound story ch (s.follow line).game := by
  obtain ⟨g, hfollow⟩ := h.follow_eq
  rw [hfollow]
  exact hs.redraw g

/-- After a move there is a scene to be shown, and the game goes on with it. -/
theorem shown_of_moved (hs : Playthrough.Sound story ch s.game) {c : Call} {m : Move}
    {next : Playthrough} (h : s.call? line = some c)
    (hc : s.game.perform c = (.moved (.ok m), next)) : ∃ scene g,
      s.turn line = .stepped (s.follow line) (eventsText m) (sceneText scene) ∧
      s.follow line = ⟨{ next with generator := g }, scene⟩ ∧ (s.follow line).Shown ∧
      ∃ ch', Playthrough.Sound story ch' (s.follow line).game := by
  have hstep := Playthrough.step_perform s.game c
  rw [hc] at hstep
  have hnext := hs.step hstep
  obtain ⟨scene, g, hview⟩ := hnext.view_eq
  obtain ⟨hfollow, hturn⟩ := turn_of_moved h hc hview
  refine ⟨scene, g, hturn, hfollow, ?_⟩
  rw [hfollow]
  exact ⟨shown_of_view hview, _, hnext.redraw g⟩

end Terminal

end Session

end Gamebook
