import Gamebook.Proofs.Chance
import Gamebook.Proofs.Chronicle

namespace Gamebook

namespace Gates

/-- Whether a choice is shown, as the generator stands. -/
def shows (gates : Gates) (p : Progress) (g : Generator) : Bool :=
  (Condition.evaluateAll gates.visible p g).1

/-- Whether a choice that is shown is enabled, as the generator stands. -/
def enables (gates : Gates) (p : Progress) (g : Generator) : Bool :=
  (Condition.evaluateAll gates.enabled p g).1

theorem IsCertain.shows_eq {gates : Gates} (h : gates.IsCertain) (p : Progress)
    (g g' : Generator) : gates.shows p g = gates.shows p g' :=
  Condition.evaluateAll_fst (fun c hc => h c (List.mem_append_left gates.enabled hc)) p g g'

theorem IsCertain.enables_eq {gates : Gates} (h : gates.IsCertain) (p : Progress)
    (g g' : Generator) : gates.enables p g = gates.enables p g' :=
  Condition.evaluateAll_fst (fun c hc => h c (List.mem_append_right gates.visible hc)) p g g'

/-- The enabling gate is looked at after the showing gate has drawn, which is all the same here. -/
theorem IsCertain.fail_iff {gates : Gates} (h : gates.IsCertain) (p : Progress)
    (g g' : Generator) : gates.Fail p g ↔ ¬(gates.shows p g' = true ∧ gates.enables p g' = true) := by
  have henables := h.enables_eq p (Condition.evaluateAll gates.visible p g).2 g'
  rw [← h.shows_eq p g g', ← henables, not_and_or, Bool.not_eq_true, Bool.not_eq_true]
  rfl

end Gates

namespace Playthrough

variable {story : Story} {settings : Settings} {g : Generator}

/-- The choices that are shown, in their order, each with the offer that is made for it. -/
theorem offers_made (strip : Bool) {cs : List Choice} (h : ∀ c ∈ cs, c.gates.IsCertain)
    (p : Progress) (g : Generator) :
    ∃ made : List (Choice × Offer), made.map Prod.snd = (offers strip p g cs).1 ∧ ∀ g',
      made.map Prod.fst = cs.filter (fun c => c.gates.shows p g') ∧
      ∀ e ∈ made, e.2.id = e.1.id ∧ e.2.enabled = e.1.gates.enables p g' := by
  induction cs generalizing g with
  | nil => exact ⟨[], rfl, fun g' => ⟨rfl, by simp⟩⟩
  | cons c cs ih =>
    obtain ⟨hc, hcs⟩ := List.forall_mem_cons.mp h
    have hshows : ∀ g', c.gates.shows p g' = (Condition.evaluateAll c.gates.visible p g).1 :=
      fun g' => hc.shows_eq p g' g
    rw [offers]
    split
    next next hv =>
      obtain ⟨made, hoffers, hmade⟩ := ih hcs next
      refine ⟨made, hoffers, fun g' => ?_⟩
      simpa [hshows, hv] using hmade g'
    next next hv =>
      obtain ⟨made, hoffers, hmade⟩ := ih hcs _
      refine ⟨(c, _) :: made, congrArg (List.cons _) hoffers, fun g' => ?_⟩
      obtain ⟨hfst, hall⟩ := hmade g'
      refine ⟨by simp [hshows, hv, hfst], List.forall_mem_cons.mpr ⟨⟨rfl, ?_⟩, hall⟩⟩
      exact hc.enables_eq p next g'

/-- What comes of a choice when it is taken: its own target with its own consequences, or the fault of
a target that is not there. -/
def ActsOn (t : Playthrough) (c : Choice) (result : Except Fault Move × Playthrough) : Prop :=
  match t.story.nodes.get? c.target with
  | none => result.1 = .error (.nodeNotFound c.target)
  | some target => ∃ m, result.1 = .ok m ∧ m.destination = c.target ∧
      result.2.progress = c.consequence target t.progress

/-- The first choice of an id is the one that is taken under it, as far as its gates let the player pass. -/
theorem choose_first {t : Playthrough} {node : Node} (hn : t.currentNode = .ok node)
    (he : node.isEnding = false) {id : String} {c : Choice} (hc : node.FirstChoice id c) :
    (c.gates.Fail t.progress t.generator → (t.choose id).1 = .error (.choiceUnavailable id)) ∧
    (¬c.gates.Fail t.progress t.generator → ActsOn t c (t.choose id)) := by
  have hcases := choosing hn id
  generalize t.choose id = r at hcases ⊢
  cases hcases with
  | ended h => simp [h] at he
  | missing _ hid => exact absurd hid hc.not_all_ne
  | closed _ hd hg =>
    obtain rfl := hc.unique hd
    exact ⟨fun _ => rfl, fun hopen => absurd hg hopen⟩
  | dangling _ hd hg ht =>
    obtain rfl := hc.unique hd
    exact ⟨fun hfail => absurd hfail hg, fun _ => by simp [ActsOn, ht]⟩
  | taken _ hd hg ht hm =>
    obtain rfl := hc.unique hd
    exact ⟨fun hfail => absurd hfail hg, fun _ => by simp [ActsOn, ht, hm]⟩

theorem choose_of_certain {t : Playthrough} {node : Node} (hn : t.currentNode = .ok node)
    (he : node.isEnding = false) {id : String} {c : Choice} (hc : node.FirstChoice id c)
    (hcertain : c.gates.IsCertain) (g' : Generator) :
    ((t.choose id).1 = .error (.choiceUnavailable id) ∧
      ¬(c.gates.shows t.progress g' = true ∧ c.gates.enables t.progress g' = true)) ∨
    (ActsOn t c (t.choose id) ∧
      c.gates.shows t.progress g' = true ∧ c.gates.enables t.progress g' = true) := by
  have hfail := hcertain.fail_iff t.progress t.generator g'
  obtain ⟨hclosed, hopen⟩ := choose_first hn he hc
  by_cases hg : c.gates.Fail t.progress t.generator
  · exact Or.inl ⟨hclosed hg, hfail.mp hg⟩
  · exact Or.inr ⟨hopen hg, not_not.mp (mt hfail.mpr hg)⟩

theorem ActsOn.not_unavailable {t : Playthrough} {c : Choice}
    {result : Except Fault Move × Playthrough} (h : ActsOn t c result) (id : String) :
    result.1 ≠ .error (.choiceUnavailable id) := by
  unfold ActsOn at h
  split at h
  · simp [h]
  · obtain ⟨m, hm, _⟩ := h
    simp [hm]

theorem phaseOf_eq_ended_iff (n : Node) :
    phaseOf n = .ended ↔ n.ending = true ∨ n.choices = [] := by
  rw [← n.isEnding_iff, phaseOf]
  split <;> simp_all

/-- The story has ended for whoever chooses on an ending, and for nobody else. -/
theorem choose_storyEnded_iff {t : Playthrough} {node : Node} (hn : t.currentNode = .ok node)
    (id last : String) : (t.choose id).1 = .error (.storyEnded last) ↔
      node.isEnding = true ∧ last = t.progress.node := by
  have hcases := choosing hn id
  generalize t.choose id = r at hcases ⊢
  cases hcases with
  | ended h => simp [h, eq_comm]
  | missing h | closed h | dangling h | taken h => simp [h]

theorem choose_of_unknown {t : Playthrough} {node : Node} (hn : t.currentNode = .ok node)
    (he : node.isEnding = false) {id : String} (hid : ∀ c ∈ node.choices, c.id ≠ id) :
    (t.choose id).1 = .error (.choiceNotFound id) := by
  have hnone := Node.choice?_eq_none_iff.mpr hid
  simp [choose, hn, he, hnone]

/-- Where the showing and enabling gates are certain, an enabled offer is what makes a choice act. -/
theorem choose_iff_made {t : Playthrough} {node : Node} (hn : t.currentNode = .ok node)
    (he : node.isEnding = false) {g' : Generator} {made : List (Choice × Offer)}
    (hshown : made.map Prod.fst = node.choices.filter (fun c => c.gates.shows t.progress g'))
    (henabled : ∀ e ∈ made, e.2.enabled = e.1.gates.enables t.progress g') {c : Choice}
    (hc : node.FirstChoice c.id c) (hcertain : c.gates.IsCertain) :
    ((t.choose c.id).1 = .error (.choiceUnavailable c.id) ↔
      ∀ o, (c, o) ∈ made → o.enabled = false) ∧
    ((t.choose c.id).1 ≠ .error (.choiceUnavailable c.id) → ActsOn t c (t.choose c.id)) := by
  have hmade : (∃ o, (c, o) ∈ made) ↔ c.gates.shows t.progress g' = true := by
    have hmem : c ∈ made.map Prod.fst ↔ c.gates.shows t.progress g' = true := by
      rw [hshown, List.mem_filter, and_iff_right hc.mem]
    simpa using hmem
  rcases choose_of_certain hn he hc hcertain g' with ⟨hclosed, hfail⟩ | ⟨hacts, hshows, henables⟩
  · refine ⟨iff_of_true hclosed fun o ho => ?_, fun hopen => absurd hclosed hopen⟩
    have hdisabled := hfail ∘ And.intro (hmade.mp ⟨o, ho⟩)
    rw [henabled _ ho]
    simpa using hdisabled
  · refine ⟨iff_of_false (hacts.not_unavailable c.id) fun hdisabled => ?_, fun _ => hacts⟩
    obtain ⟨o, ho⟩ := hmade.mpr hshows
    have henables' := (henabled _ ho).trans henables
    rw [hdisabled o ho] at henables'
    cases henables'

/-- What a scene offers is what can be chosen. On an ending that is nothing. Elsewhere an id that no
choice has is not found; where no gate is left to chance, the offers are made for the choices that are
shown, and the first choice of an id can be taken exactly if the offer made for it is enabled. -/
theorem offered_iff_taken {saved : Option Progress} {t₀ : Playthrough}
    (h : start story saved settings g = .ok t₀) (calls : List Call) :
    let t := (t₀.run calls).2
    ∃ node scene, t.currentNode = .ok node ∧ t.view.1 = .ok scene ∧
      scene.phase = t.phase ∧
      (t.phase = .ended ↔ node.ending = true ∨ node.choices = []) ∧
      (∀ id last, (t.choose id).1 = .error (.storyEnded last) ↔
        t.phase = .ended ∧ last = t.progress.node) ∧
      (t.phase = .ended → scene.offers = []) ∧
      (t.phase = .ready → ∀ id, (∀ c ∈ node.choices, c.id ≠ id) →
        (t.choose id).1 = .error (.choiceNotFound id)) ∧
      (t.phase = .ready → (∀ c ∈ node.choices, c.gates.IsCertain) →
        ∃ made : List (Choice × Offer), made.map Prod.snd = scene.offers ∧ ∀ g',
          made.map Prod.fst = node.choices.filter (fun c => c.gates.shows t.progress g') ∧
          (∀ e ∈ made, e.2.id = e.1.id) ∧
          ∀ c, node.FirstChoice c.id c →
            let chosen := { t with generator := g' }.choose c.id
            (chosen.1 = .error (.choiceUnavailable c.id) ↔
              ∀ o, (c, o) ∈ made → o.enabled = false) ∧
            (chosen.1 ≠ .error (.choiceUnavailable c.id) → ActsOn t c chosen)) := by
  intro t
  have hs := (sound_start h).run calls
  obtain ⟨node, hget⟩ := Option.isSome_iff_exists.mp hs.present
  have hn : t.currentNode = .ok node := currentNode_eq_ok_iff.mpr (hs.story_eq ▸ hget)
  have hphase : t.phase = phaseOf node := by simp [phase, hn]
  have hready : t.phase = .ready → node.isEnding = false := by
    rw [hphase, phaseOf]
    cases node.isEnding <;> simp
  refine ⟨node, (t.sceneOf node).1, hn, congrArg Prod.fst (view_of_currentNode hn), hphase.symm,
    by rw [hphase, phaseOf_eq_ended_iff], ?_, ?_, ?_, ?_⟩
  · intro id last
    rw [choose_storyEnded_iff hn, hphase, phaseOf_eq_ended_iff, node.isEnding_iff]
  · rw [hphase, phaseOf_eq_ended_iff, ← node.isEnding_iff]
    intro he
    simp [sceneOf, he]
  · intro hp id hid
    exact choose_of_unknown hn (hready hp) hid
  · intro hp hcertain
    have he := hready hp
    obtain ⟨made, hoffers, hmade⟩ := offers_made t.settings.stripMarkers hcertain t.progress
      (Markup.render t.settings.stripMarkers node.content.text t.progress t.generator).2
    refine ⟨made, by simpa [sceneOf, he] using hoffers, fun g' => ?_⟩
    obtain ⟨hshown, hall⟩ := hmade g'
    refine ⟨hshown, fun e hm => (hall e hm).1, fun c hc => ?_⟩
    exact choose_iff_made (t := { t with generator := g' }) hn he hshown
      (fun e hm => (hall e hm).2) hc (hcertain c hc.mem)

/-- A ladder that goes by the id of the stairs and is never seen. -/
def ladder : Choice := ⟨"up", "Climb the ladder", "attic", ⟨[.chance (some 0)], []⟩, none, none⟩

/-- The door is locked, and the chute leads nowhere. -/
def landing : Node :=
  ⟨"landing", none, ⟨"{random:Dust|Draught} everywhere.", none, none⟩,
    [ladder, ⟨"up", "Take the stairs", "attic", ⟨[], []⟩, none, none⟩,
      ⟨"door", "Open the door", "attic", ⟨[], [.carries .has "key"]⟩, none, none⟩,
      ⟨"chute", "Jump", "cellar", ⟨[.chance (some 1)], []⟩, none, none⟩], none, false⟩

def attic : Node := ⟨"attic", none, ⟨"", none, none⟩, [], none, true⟩

def stairs : Story :=
  ⟨"landing", (Dictionary.empty.insert "landing" landing).insert "attic" attic,
    .empty, .empty, .empty, .empty⟩

/-- The stairs are offered, but their id is taken for the ladder. -/
theorem offered_iff_taken_stairs : ∃ t₀ scene, start stairs none {} (.ofSeed 7) = .ok t₀ ∧
    t₀.view.1 = .ok scene ∧ scene.offers.map Offer.id = ["up", "door", "chute"] ∧
    (t₀.choose "up").1 = .error (.choiceUnavailable "up") := by
  have h : start stairs none {} (.ofSeed 7) =
    .ok (begun stairs {} stairs.opening "landing" landing (.ofSeed 7)) := start_of_some rfl
  obtain ⟨node, scene, hn, hv, -, -, -, -, -, hoffers⟩ := offered_iff_taken h []
  obtain rfl : landing = node := Except.ok.inj hn
  obtain ⟨made, hmade, hall⟩ := hoffers rfl (by decide +kernel)
  obtain ⟨hshown, hids, htaken⟩ := hall (.ofSeed 7)
  have hfilter : (landing.choices.filter fun c => c.gates.shows stairs.opening (.ofSeed 7)) =
    landing.choices.tail := by decide +kernel
  have hchoices : made.map Prod.fst = landing.choices.tail := hshown.trans hfilter
  have hladder : landing.FirstChoice ladder.id ladder := ⟨rfl, [], _, rfl, by simp⟩
  refine ⟨_, scene, h, hv, ?_, (htaken _ hladder).1.mpr fun o ho => ?_⟩
  · have hnames : made.map (fun e => e.2.id) = made.map (fun e => e.1.id) :=
      List.map_congr_left hids
    have htail : made.map (fun e => e.1.id) = landing.choices.tail.map Choice.id := by
      rw [← hchoices, List.map_map]
      rfl
    rw [← hmade, List.map_map]
    exact hnames.trans htail
  · have hmem : ladder ∈ made.map Prod.fst := List.mem_map.mpr ⟨_, ho, rfl⟩
    rw [hchoices] at hmem
    exact absurd hmem (by decide +kernel)

end Playthrough

end Gamebook
