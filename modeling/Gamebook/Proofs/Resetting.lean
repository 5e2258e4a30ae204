import Gamebook.Proofs.History
import Gamebook.Proofs.Loading

namespace Gamebook

@[simp] theorem remembered_nil (deeds : List Deed) : remembered deeds [] = [] := by
  unfold remembered
  split <;> rfl

namespace Playthrough

variable {story : Story} {settings : Settings} {g : Generator} {t t' : Playthrough}

/-- Playthroughs that differ in their last move alone stay so. -/
theorem Alike.run_of_no_past (h : Alike [] [] t t') (calls : List Call) :
    (t'.run calls).1 = (t.run calls).1 ∧
      (t'.run calls).2.progress = (t.run calls).2.progress ∧
      (t'.run calls).2.generator = (t.run calls).2.generator := by
  obtain ⟨hanswers, hlast⟩ := h.run calls
  rw [remembered_nil] at hlast
  refine ⟨hanswers, hlast.progress_eq, ?_⟩
  obtain ⟨later, m, -, hrecalling⟩ := hlast
  rw [hrecalling, recalling_generator]

/-- A reset begins a new game with the generator as it stands; its move comes from where the player was. -/
theorem reset_eq_begun {n : Node} (hn : t.story.nodes.get? t.story.start = some n) :
    let new := begun t.story t.settings t.story.opening t.story.start n t.generator
    let m : Move := { new.last with origin := some t.progress.node }
    t.reset = (.ok m, { new with last := m }) := by
  intro new m
  rw [reset, enter_of_some hn]
  rfl

theorem reset_alike {n : Node} (hn : t.story.nodes.get? t.story.start = some n) (g : Generator) :
    Alike [] [] (begun t.story t.settings t.story.opening t.story.start n g)
      { t.reset.2 with generator := g } := by
  rw [reset_eq_begun hn]
  exact .of_progress_eq rfl rfl rfl rfl

/-- A game can be reset at any time and then is a new game: the progress and what is told are the same, and
from equal generators the same calls get the same answers ever after. -/
theorem reset_starts_anew (hl : story.Loaded) {saved : Option Progress} {t₀ : Playthrough}
    (h : start story saved settings g = .ok t₀) (calls : List Call) :
    let t := (t₀.run calls).2
    let after := t.reset.2
    ∃ m, t.reset.1 = .ok m ∧ m.origin = some t.progress.node ∧ after.last = m ∧
      after.generator = t.generator ∧
      ∀ g', ∃ new, start story none t.settings g' = .ok new ∧
        after.progress = new.progress ∧ m.destination = new.last.destination ∧
        m.events = new.last.events ∧
        ∀ more : List Call,
          let u := { after with generator := g' }.run more
          let u' := new.run more
          u.1 = u'.1 ∧ u.2.progress = u'.2.progress ∧ u.2.generator = u'.2.generator := by
  intro t after
  have hs := (sound_start h).run calls
  obtain ⟨n, hn⟩ := Option.isSome_iff_exists.mp hl.start_defined
  obtain rfl : t.story = story := hs.story_eq
  have hafter : t.reset = _ := reset_eq_begun hn
  refine ⟨_, congrArg Prod.fst hafter, rfl, ?_, ?_, fun g' => ?_⟩
  · exact congrArg (fun r => r.2.last) hafter
  · exact congrArg (fun r => r.2.generator) hafter
  · have hnew : start t.story none t.settings g' =
        .ok (begun t.story t.settings t.story.opening t.story.start n g') := start_of_some hn
    have halike := reset_alike hn g'
    exact ⟨_, hnew, halike.progress_eq, rfl, rfl, halike.run_of_no_past⟩

/-- To be washed ashore is an achievement, and leads up the dune. -/
def shoreTree : Json :=
  .object [("start_node", .text "shore"), ("nodes", .object
    [("shore", .object
      [("effects", .object [("unlock_achievements", .array [.text "castaway"])]),
        ("choices", .array
          [.object [("id", .text "climb"), ("text", .text "Climb up"), ("target", .text "dune")]])]),
      ("dune", .object [("ending", .flag true)])])]

def shore : Node :=
  ⟨"shore", none, ⟨"", none, none⟩, [⟨"climb", "Climb up", "dune", ⟨[], []⟩, none, none⟩],
    some ⟨.empty, .empty, [], [], ["castaway"]⟩, false⟩

def dune : Node := ⟨"dune", none, ⟨"", none, none⟩, [], none, true⟩

def island : Story :=
  ⟨"shore", (Dictionary.empty.insert "shore" shore).insert "dune" dune, .empty, .empty, .empty, .empty⟩

theorem reset_starts_anew_island : Story.read Json.depthLimit shoreTree = .ok island ∧
    ∃ t₀, start island none {} (.ofSeed 7) = .ok t₀ ∧
    ∃ m new, (t₀.run [.choose "climb"]).2.reset.1 = .ok m ∧ m.origin = some "dune" ∧
      start island none {} (.ofSeed 8) = .ok new ∧ m.events = new.last.events ∧
      (t₀.run [.choose "climb"]).2.reset.2.progress = new.progress := by
  have hread : Story.read Json.depthLimit shoreTree = .ok island := rfl
  have h : start island none {} (.ofSeed 7) =
    .ok (begun island {} island.opening "shore" shore (.ofSeed 7)) := start_of_some rfl
  obtain ⟨m, hm, horigin, -, -, hall⟩ := reset_starts_anew (.tree hread) h [.choose "climb"]
  obtain ⟨new, hnew, hprogress, -, hevents, -⟩ := hall (.ofSeed 8)
  exact ⟨hread, _, h, m, new, hm, horigin, hnew, hevents, hprogress⟩

end Playthrough

end Gamebook
