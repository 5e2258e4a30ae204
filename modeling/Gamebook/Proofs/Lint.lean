import Gamebook.Lint
import Gamebook.Program
import Gamebook.Proofs.Deeds
import Gamebook.Proofs.Loading

namespace Gamebook

namespace Lint

theorem Problem.severity_eq_error_iff (p : Problem) :
    p.severity = .error ↔ ∃ choice target, p = .missingTarget choice target := by
  cases p <;> simp [Problem.severity]

/-- The report sorts what was found and leaves nothing out. -/
theorem mem_report_iff {s : Story} {i : Issue} : i ∈ (report s).issues ↔
    (∃ n ∈ s.nodes.values, ∃ p ∈ nodeProblems s n, ⟨n.id, p⟩ = i) ∨ i ∈ unreachable s := by
  simp [report, List.mem_mergeSort, nodeIssues]

theorem missingTarget_mem_iff {s : Story} {n : Node} {choice target : String} :
    .missingTarget choice target ∈ nodeProblems s n ↔
      ∃ c ∈ n.choices, s.nodes.contains c.target = false ∧ c.id = choice ∧ c.target = target := by
  simp [nodeProblems, missingTargets, duplicates, deadEnd, undefinedImage, undefinedAudio,
    undefinedAchievements, and_assoc]

theorem severity_of_unreachable {s : Story} {i : Issue} (h : i ∈ unreachable s) :
    i.severity = .warning := by
  obtain ⟨id, _, rfl⟩ := List.mem_map.mp h
  rfl

theorem hasErrors_iff {s : Story} : (report s).hasErrors = true ↔
    ∃ n ∈ s.nodes.values, ∃ c ∈ n.choices, s.nodes.contains c.target = false := by
  rw [Report.hasErrors, List.any_eq_true]
  constructor
  · rintro ⟨i, hi, herror⟩
    have hseverity : i.severity = .error := by simpa using herror
    rcases mem_report_iff.mp hi with ⟨n, hn, p, hp, rfl⟩ | hunreachable
    · obtain ⟨choice, target, rfl⟩ := p.severity_eq_error_iff.mp hseverity
      obtain ⟨c, hc, hmissing, _⟩ := missingTarget_mem_iff.mp hp
      exact ⟨n, hn, c, hc, hmissing⟩
    · rw [severity_of_unreachable hunreachable] at hseverity
      cases hseverity
  · rintro ⟨n, hn, c, hc, hmissing⟩
    have hp := missingTarget_mem_iff.mpr ⟨c, hc, hmissing, rfl, rfl⟩
    exact ⟨_, mem_report_iff.mpr (Or.inl ⟨n, hn, _, hp, rfl⟩), rfl⟩

end Lint

/-- Wherever a choice leads, there is a node. -/
def Story.IsClosed (s : Story) : Prop :=
  ∀ n ∈ s.nodes.values, ∀ c ∈ n.choices, s.nodes.contains c.target = true

instance (s : Story) : Decidable s.IsClosed :=
  inferInstanceAs (Decidable (∀ n ∈ _, ∀ c ∈ Node.choices n, _ = true))

theorem Lint.hasErrors_eq_false_iff {s : Story} : (report s).hasErrors = false ↔ s.IsClosed := by
  rw [← Bool.not_eq_true, hasErrors_iff]
  simp [Story.IsClosed]

/-- The story goes on at the node, and it is this choice that its id stands for. -/
def Node.Takes (n : Node) (c : Choice) : Prop := n.isEnding = false ∧ n.FirstChoice c.id c

/-- Wherever a choice leads that can be taken, there is a node. -/
def Story.IsPassable (s : Story) : Prop :=
  ∀ n ∈ s.nodes.values, ∀ c, n.Takes c → s.nodes.contains c.target = true

theorem Node.takes_iff {n : Node} {c : Choice} :
    n.Takes c ↔ n.isEnding = false ∧ n.choice? c.id = some c :=
  and_congr_right fun _ => choice?_eq_some_iff.symm

theorem Story.isPassable_iff {s : Story} : s.IsPassable ↔ ∀ n ∈ s.nodes.values, ∀ c ∈ n.choices,
    n.isEnding = false ∧ n.choice? c.id = some c → s.nodes.contains c.target = true := by
  simp only [← Node.takes_iff]
  exact ⟨fun h n hn c _ => h n hn c, fun h n hn c hc => h n hn c hc.2.mem hc⟩

instance (s : Story) : Decidable s.IsPassable := decidable_of_iff _ Story.isPassable_iff.symm

theorem Story.IsClosed.passable {s : Story} (h : s.IsClosed) : s.IsPassable :=
  fun n hn c hc => h n hn c hc.2.mem

theorem Program.check_code {disk : Disk} {path : String} {story : Story}
    (h : loadStory disk path = .ok story) :
    (check disk path).code = if (Lint.report story).hasErrors then 1 else 0 := by
  simp only [check, h]
  cases hissues : (Lint.report story).issues with
  | nil => simp [Lint.Report.isEmpty, Lint.Report.hasErrors, hissues]
  | cons i is =>
    cases herrors : (Lint.report story).hasErrors <;>
      simp [Lint.Report.isEmpty, hissues, failure]

theorem Program.check_code_eq_zero_iff {disk : Disk} {path : String} {story : Story}
    (h : loadStory disk path = .ok story) :
    (check disk path).code = 0 ↔ (Lint.report story).hasErrors = false := by
  rw [check_code h]
  cases (Lint.report story).hasErrors <;> simp

namespace Story

variable {s : Story}

theorem missing?_of_defined {id : String} (h : s.nodes.contains id = true) : s.missing? id = none :=
  if_pos h

theorem entry_defined {p : Progress} (hstart : s.nodes.contains s.start = true)
    (hp : p.node = "" ∨ s.nodes.contains p.node = true) : s.nodes.contains (s.entry p) = true := by
  unfold entry
  split
  next => exact hstart
  next hne => exact hp.resolve_left (by simpa using hne)

/-- In a passable story no deed gets lost. -/
theorem hindrance?_of_passable (hs : s.IsPassable) (hstart : s.nodes.contains s.start = true)
    {p : Progress} (hp : s.nodes.contains p.node = true) (passes : Gates → Bool) (d : Deed)
    (id : String) : s.hindrance? p passes d ≠ some (.nodeNotFound id) := by
  cases d with
  | choose name =>
    obtain ⟨node, hn⟩ := Option.isSome_iff_exists.mp hp
    have hmem := Dictionary.mem_values_iff.mpr ⟨_, hn⟩
    simp only [hindrance?, hn]
    split
    next => simp
    next hgoes =>
      split
      next => simp
      next c hc =>
        have hfirst := Node.choice?_eq_some_iff.mp hc
        have htakes : node.Takes c := ⟨by simpa using hgoes, hfirst.1 ▸ hfirst⟩
        have htarget := hs node hmem c htakes
        split <;> simp [missing?_of_defined htarget]
  | reset => simp [hindrance?, missing?_of_defined hstart]
  | resume settings =>
    simp only [hindrance?, missing?_of_defined (entry_defined hstart (Or.inr hp))]
    split <;> simp

end Story

namespace Playthrough

theorem perform_fault? (t : Playthrough) (c : Call) : (t.perform c).1.fault? =
    c.deed?.elim (t.story.missing? t.progress.node) t.hindrance? := by
  cases hd : c.deed? with
  | none =>
    cases c with
    | view =>
      cases hn : t.story.nodes.get? t.progress.node with
      | none =>
        simp [perform, view, currentNode, Story.node, hn, Answer.fault?, Story.missing?_of_none hn]
      | some n =>
        simp [perform, view_of_currentNode (currentNode_eq_ok_iff.mpr hn), Answer.fault?,
          Story.missing?_of_some hn]
    | _ => simp [Call.deed?] at hd
  | some d =>
    have hdoing := doing_perform (t := t) hd
    generalize (t.perform c).1 = a at hdoing ⊢
    generalize (t.perform c).2 = next at hdoing
    cases hdoing with
    | hindered g h => simp [Answer.fault?, h]
    | done g h => simp [Answer.fault?, h]

theorem perform_not_lost {t : Playthrough} (hs : t.story.IsPassable)
    (hstart : t.story.nodes.contains t.story.start = true)
    (hp : t.story.nodes.contains t.progress.node = true) (c : Call) (id : String) :
    (t.perform c).1.fault? ≠ some (.nodeNotFound id) := by
  rw [perform_fault?]
  cases c.deed? with
  | none => simp [Story.missing?_of_defined hp]
  | some d => exact Story.hindrance?_of_passable hs hstart hp t.passes d id

/-- Calls keep to the nodes of the story, so what holds of one call holds of a run. -/
theorem run_passable {story : Story} (hs : story.IsPassable)
    (hstart : story.nodes.contains story.start = true) {ch : Chronicle} {t : Playthrough}
    (ht : Sound story ch t) (calls : List Call) (id : String) :
    ∀ a ∈ (t.run calls).1, a.fault? ≠ some (.nodeNotFound id) := by
  induction calls generalizing ch t with
  | nil => simp [run]
  | cons c cs ih =>
    obtain rfl := ht.story_eq
    intro a ha
    rcases List.mem_cons.mp ha with rfl | ha
    · exact perform_not_lost hs hstart ht.present c id
    · exact ih (ht.step (step_perform t c)) a ha

theorem run_not_lost {story : Story} (hs : story.IsClosed)
    (hstart : story.nodes.contains story.start = true) {ch : Chronicle} {t : Playthrough}
    (ht : Sound story ch t) (calls : List Call) (id : String) :
    ∀ a ∈ (t.run calls).1, a.fault? ≠ some (.nodeNotFound id) :=
  run_passable hs.passable hstart ht calls id

/-- A story that is read and reported without errors is played without ever missing a node. The
report is what `check` goes by. -/
theorem never_lost {story : Story} (hl : story.Loaded) :
    (∀ disk path, Program.loadStory disk path = .ok story →
      ((Program.check disk path).code = 0 ↔ (Lint.report story).hasErrors = false)) ∧
    ((Lint.report story).hasErrors = false → ∀ (saved : Option Progress),
      (∀ p ∈ saved, p.node = "" ∨ story.nodes.contains p.node = true) →
      ∀ settings g, ∃ t, start story saved settings g = .ok t ∧
        ∀ calls, ∀ a ∈ (t.run calls).1, ∀ id, a.fault? ≠ some (.nodeNotFound id)) := by
  refine ⟨fun disk path h => Program.check_code_eq_zero_iff h, ?_⟩
  intro hreport saved hsaved settings g
  have hstart := hl.start_defined
  have hentry : story.nodes.contains (story.entry (saved.getD story.opening)) = true := by
    refine Story.entry_defined hstart ?_
    cases saved with
    | none => exact Or.inl rfl
    | some p => exact hsaved p rfl
  obtain ⟨n, hn⟩ := Option.isSome_iff_exists.mp hentry
  have ht : start story saved settings g = .ok _ := start_of_some hn
  refine ⟨_, ht, ?_⟩
  intro calls a ha id
  exact run_not_lost (Lint.hasErrors_eq_false_iff.mp hreport) hstart (sound_start ht) calls id a ha

def walkTree : Json :=
  .object [("start_node", .text "gate"), ("nodes", .object
    [("gate", .object [("choices", .array
        [.object [("id", .text "in"), ("text", .text "Go in"), ("target", .text "yard")]])]),
      ("yard", .object [("ending", .flag true)])])]

theorem never_lost_walk : Story.read Json.depthLimit walkTree = .ok walk ∧
    (Lint.report walk).hasErrors = false ∧
    ∃ t, start walk (some ⟨"yard", .empty, ["lamp"], [], []⟩) {} (.ofSeed 7) = .ok t ∧
      ∀ a ∈ (t.run [.choose "in", .reset, .choose "in", .view]).1, ∀ id,
        a.fault? ≠ some (.nodeNotFound id) := by
  have hread : Story.read Json.depthLimit walkTree = .ok walk := rfl
  have hclosed : walk.IsClosed := by decide
  have hreport := Lint.hasErrors_eq_false_iff.mpr hclosed
  have hsaved : ∀ p ∈ some (⟨"yard", .empty, ["lamp"], [], []⟩ : Progress),
      p.node = "" ∨ walk.nodes.contains p.node = true := by
    rintro p ⟨⟩
    exact Or.inr rfl
  obtain ⟨t, ht, hrun⟩ := (never_lost (.tree hread)).2 hreport _ hsaved {} (.ofSeed 7)
  exact ⟨hread, hreport, t, ht, hrun _⟩

end Playthrough

end Gamebook
