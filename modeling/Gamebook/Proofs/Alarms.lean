import Gamebook.Proofs.Lint
import Gamebook.Proofs.Offering

namespace Gamebook

theorem Node.isEnding_of_mem {n : Node} {c : Choice} (h : c ∈ n.choices) :
    n.isEnding = n.ending := by
  have hsome : n.choices.isEmpty = false := by
    cases hchoices : n.choices with
    | nil => simp [hchoices] at h
    | cons => rfl
  rw [isEnding, hsome, Bool.or_false]

namespace Lint

variable {s : Story}

theorem Report.hasErrors_iff {r : Report} :
    r.hasErrors = true ↔ ∃ i ∈ r.issues, i.severity = .error := by
  simp [hasErrors]

/-- An error is reported at the node of a choice that leads nowhere. -/
theorem choice_of_error (hl : s.Loaded) {i : Issue} (h : i ∈ (report s).issues)
    (herror : i.severity = .error) : ∃ n c, s.nodes.get? i.node = some n ∧ c ∈ n.choices ∧
      i.problem = .missingTarget c.id c.target ∧ s.nodes.get? c.target = none := by
  rcases mem_report_iff.mp h with ⟨n, hn, p, hp, rfl⟩ | hunreachable
  · obtain ⟨id, hget⟩ := Dictionary.mem_values_iff.mp hn
    obtain ⟨choice, target, rfl⟩ := p.severity_eq_error_iff.mp herror
    obtain ⟨c, hc, hmissing, rfl, rfl⟩ := missingTarget_mem_iff.mp hp
    have hid : n.id = id := hl.id_eq hget
    refine ⟨n, c, hid ▸ hget, hc, rfl, ?_⟩
    simpa [Dictionary.contains] using hmissing
  · rw [severity_of_unreachable hunreachable] at herror
    cases herror

theorem error_of_missing (hl : s.Loaded) {id : String} {n : Node} (hn : s.nodes.get? id = some n)
    {c : Choice} (hc : c ∈ n.choices) (hmissing : s.nodes.get? c.target = none) :
    ⟨id, .missingTarget c.id c.target⟩ ∈ (report s).issues := by
  have hproblem : .missingTarget c.id c.target ∈ nodeProblems s n :=
    missingTarget_mem_iff.mpr ⟨c, hc, by simp [Dictionary.contains, hmissing], rfl, rfl⟩
  have hissue : ⟨n.id, .missingTarget c.id c.target⟩ ∈ (report s).issues :=
    mem_report_iff.mpr (Or.inl ⟨n, Dictionary.mem_values_iff.mpr ⟨id, hn⟩, _, hproblem, rfl⟩)
  exact hl.id_eq hn ▸ hissue

end Lint

namespace Playthrough

variable {story : Story} {settings : Settings} {g : Generator}

/-- A missing node is found where the story goes on and the first choice of the id leads to it. -/
theorem choose_missing_iff {t : Playthrough} {n : Node} (hn : t.currentNode = .ok n) {c : Choice}
    (hc : c ∈ n.choices) (ht : t.story.nodes.get? c.target = none) :
    (t.choose c.id).1 = .error (.nodeNotFound c.target) ↔
      n.ending = false ∧ ∃ first, n.FirstChoice c.id first ∧
        ¬first.gates.Fail t.progress t.generator ∧ first.target = c.target := by
  have hend := Node.isEnding_of_mem hc
  constructor
  · intro hlost
    have hcases := choosing hn c.id
    generalize t.choose c.id = r at hcases hlost
    cases hcases with
    | ended | missing | closed | taken => cases hlost
    | @dangling first h hfirst hg _ =>
      have htarget : first.target = c.target := by simpa using hlost
      exact ⟨hend ▸ h, first, hfirst, hg, htarget⟩
  · rintro ⟨h, first, hfirst, hg, htarget⟩
    have hacts := (choose_first hn (hend.trans h) hfirst).2 hg
    rw [ActsOn, htarget, ht] at hacts
    exact hacts

/-- A passable story is played without ever missing a node. -/
theorem start_passable (hl : story.Loaded) (hs : story.IsPassable) {saved : Option Progress}
    (hsaved : ∀ p ∈ saved, p.node = "" ∨ story.nodes.contains p.node = true)
    (settings : Settings) (g : Generator) :
    ∃ t₀, start story saved settings g = .ok t₀ ∧
      ∀ calls, ∀ a ∈ (t₀.run calls).1, ∀ id, a.fault? ≠ some (.nodeNotFound id) := by
  have hentry : story.nodes.contains (story.entry (saved.getD story.opening)) = true := by
    refine Story.entry_defined hl.start_defined ?_
    cases saved with
    | none => exact Or.inl rfl
    | some p => exact hsaved p rfl
  obtain ⟨n, hn⟩ := Option.isSome_iff_exists.mp hentry
  have ht : start story saved settings g = .ok _ := start_of_some hn
  exact ⟨_, ht, fun calls a ha id => run_passable hs hl.start_defined (sound_start ht) calls id a ha⟩

/-- Whether an error comes true. Each error is of a choice that leads nowhere, and `check` goes by them.
For the player who may pass its gates the choice fails if it is the first of its id and its node is no
ending. On an ending the story has ended, and elsewhere it is the first choice of the id that counts. Where
no choice that can be taken leads nowhere, nothing fails, whatever is reported. -/
theorem reported_outcome (hl : story.Loaded) :
    (∀ disk path, Program.loadStory disk path = .ok story →
      ((Program.check disk path).code = 1 ↔
        ∃ i ∈ (Lint.report story).issues, i.severity = .error)) ∧
    (∀ i ∈ (Lint.report story).issues, i.severity = .error → ∃ n c,
      story.nodes.get? i.node = some n ∧ c ∈ n.choices ∧
      i.problem = .missingTarget c.id c.target ∧ story.nodes.get? c.target = none) ∧
    (∀ id n c, story.nodes.get? id = some n → c ∈ n.choices →
      ⟨id, .missingTarget c.id c.target⟩ ∈ (Lint.report story).issues →
      ∀ t : Playthrough, t.story = story → t.progress.node = id →
        ¬c.gates.Fail t.progress t.generator →
        (n.Takes c → (t.choose c.id).1 = .error (.nodeNotFound c.target)) ∧
        (n.ending = true → (t.choose c.id).1 = .error (.storyEnded id)) ∧
        ((t.choose c.id).1 = .error (.nodeNotFound c.target) ↔
          n.ending = false ∧ ∃ first, n.FirstChoice c.id first ∧
            ¬first.gates.Fail t.progress t.generator ∧ first.target = c.target)) ∧
    (story.IsPassable → ∀ saved : Option Progress,
      (∀ p ∈ saved, p.node = "" ∨ story.nodes.contains p.node = true) →
      ∀ settings g, ∃ t₀, start story saved settings g = .ok t₀ ∧
        ∀ calls, ∀ a ∈ (t₀.run calls).1, ∀ id, a.fault? ≠ some (.nodeNotFound id)) := by
  refine ⟨fun disk path h => ?_, fun i hi herror => Lint.choice_of_error hl hi herror, ?_,
    fun hs saved hsaved settings g => start_passable hl hs hsaved settings g⟩
  · rw [Program.check_code h, ← Lint.Report.hasErrors_iff]
    cases (Lint.report story).hasErrors <;> simp
  · rintro id n c hget hc hissue t rfl rfl hg
    have hn : t.currentNode = .ok n := currentNode_eq_ok_iff.mpr hget
    have hmissing : t.story.nodes.get? c.target = none := by
      obtain ⟨_, c', -, -, hproblem, hnone⟩ := Lint.choice_of_error hl hissue rfl
      have htarget : c.target = c'.target := (Lint.Problem.missingTarget.inj hproblem).2
      exact htarget ▸ hnone
    have hiff := choose_missing_iff hn hc hmissing
    refine ⟨fun htakes => ?_, fun hend => ?_, hiff⟩
    · exact hiff.mpr ⟨Node.isEnding_of_mem hc ▸ htakes.1, c, htakes.2, hg, rfl⟩
    · exact (choose_storyEnded_iff hn c.id t.progress.node).mpr
        ⟨(Node.isEnding_of_mem hc).trans hend, rfl⟩

def climb (id target : String) : Choice := ⟨id, "", target, ⟨[], []⟩, none, none⟩

/-- A ridge with more ways up than one. The path leads to the summit, although a second one of that id does
not. -/
def ridge (more : List Choice) : Node :=
  ⟨"ridge", none, ⟨"", none, none⟩, [climb "path" "summit", climb "path" "glacier"] ++ more, none, false⟩

/-- The story ends here, and nobody ever flies. -/
def summit : Node := ⟨"summit", none, ⟨"", none, none⟩, [climb "fly" "clouds"], none, true⟩

def ascent (more : List Choice) : Story :=
  ⟨"ridge", (Dictionary.empty.insert "ridge" (ridge more)).insert "summit" summit,
    .empty, .empty, .empty, .empty⟩

def climbTree (id target : String) : Json := .object [("id", .text id), ("target", .text target)]

def ascentTree (more : List Json) : Json :=
  .object [("start_node", .text "ridge"), ("nodes", .object
    [("ridge", .object [("choices",
        .array ([climbTree "path" "summit", climbTree "path" "glacier"] ++ more))]),
      ("summit", .object [("ending", .flag true), ("choices", .array [climbTree "fly" "clouds"])])])]

def ascentDisk : Disk := ⟨Dictionary.ofList [("ascent.json", (ascentTree []).toText)], []⟩

def onRidge (more : List Choice) : Playthrough :=
  begun (ascent more) {} (ascent more).opening "ridge" (ridge more) (.ofSeed 7)

/-- The rope leads into a gorge that is not there, and whoever takes it falls. -/
theorem reported_outcome_rope :
    Story.read Json.depthLimit (ascentTree [climbTree "rope" "gorge"]) =
      .ok (ascent [climb "rope" "gorge"]) ∧
    ((onRidge [climb "rope" "gorge"]).choose "rope").1 = .error (.nodeNotFound "gorge") ∧
    ((onRidge [climb "rope" "gorge"]).choose "path").1 ≠ .error (.nodeNotFound "glacier") := by
  have hread : Story.read Json.depthLimit (ascentTree [climbTree "rope" "gorge"]) =
    .ok (ascent [climb "rope" "gorge"]) := rfl
  have hl : (ascent [climb "rope" "gorge"]).Loaded := .tree hread
  have hridge : (ascent [climb "rope" "gorge"]).nodes.get? "ridge" = some (ridge _) := rfl
  have hissue : ∀ c ∈ (ridge [climb "rope" "gorge"]).choices,
      (ascent [climb "rope" "gorge"]).nodes.get? c.target = none →
      ⟨"ridge", .missingTarget c.id c.target⟩ ∈ (Lint.report (ascent [climb "rope" "gorge"])).issues :=
    fun c hc hmissing => Lint.error_of_missing hl hridge hc hmissing
  have houtcome := fun c (hc : c ∈ (ridge [climb "rope" "gorge"]).choices) hmissing =>
    (reported_outcome hl).2.2.1 "ridge" _ c hridge hc (hissue c hc hmissing) (onRidge _) rfl rfl
  obtain ⟨hfails, -, -⟩ :=
    houtcome (climb "rope" "gorge") (by simp [ridge]) rfl (by decide +kernel)
  obtain ⟨-, -, hlost_iff⟩ :=
    houtcome (climb "path" "glacier") (by simp [ridge]) rfl (by decide +kernel)
  refine ⟨hread, hfails (Node.takes_iff.mpr ⟨rfl, by decide +kernel⟩), fun hlost => ?_⟩
  obtain ⟨-, first, hfirst, -, htarget⟩ := hlost_iff.mp hlost
  have hsummit : first = climb "path" "summit" := hfirst.unique ⟨rfl, [], _, rfl, by simp⟩
  rw [hsummit] at htarget
  exact absurd htarget (by decide)

/-- Two errors are reported of the ascent and `check` refuses it. Both of the choices are open to whoever
stands at them, and neither ever fails on its target. -/
theorem ascent_alarmed :
    Program.loadStory ascentDisk "ascent.json" = .ok (ascent []) ∧
    (Program.check ascentDisk "ascent.json").code = 1 ∧
    (⟨"ridge", .missingTarget "path" "glacier"⟩ ∈ (Lint.report (ascent [])).issues ∧
      ¬(climb "path" "glacier").gates.Fail (onRidge []).progress (onRidge []).generator ∧
      ((onRidge []).choose "path").1 ≠ .error (.nodeNotFound "glacier")) ∧
    (⟨"summit", .missingTarget "fly" "clouds"⟩ ∈ (Lint.report (ascent [])).issues ∧
      ((onRidge []).choose "path").2.currentNode = .ok summit ∧
      ¬(climb "fly" "clouds").gates.Fail ((onRidge []).choose "path").2.progress
        ((onRidge []).choose "path").2.generator ∧
      ((((onRidge []).choose "path").2).choose "fly").1 = .error (.storyEnded "summit")) ∧
    (ascent []).IsPassable := by
  have hread : ascentDisk.read "ascent.json" = .ok (ascentTree []).toText := rfl
  have hstory : Story.ofText (ascentTree []).toText = .ok (ascent []) := by
    rw [Story.ofText, Json.ofText?_toText]
    rfl
  have hload := Program.loadStory_of_read hread hstory
  have hl : (ascent []).Loaded := .text hstory
  have hglacier : ⟨"ridge", .missingTarget "path" "glacier"⟩ ∈ (Lint.report (ascent [])).issues :=
    Lint.error_of_missing hl rfl (show climb "path" "glacier" ∈ (ridge []).choices by simp [ridge]) rfl
  have hclouds : ⟨"summit", .missingTarget "fly" "clouds"⟩ ∈ (Lint.report (ascent [])).issues :=
    Lint.error_of_missing hl rfl (show climb "fly" "clouds" ∈ summit.choices by simp [summit]) rfl
  have herrors := Lint.Report.hasErrors_iff.mpr ⟨_, hglacier, rfl⟩
  have hmoved : ∃ m, ((onRidge []).choose "path").1 = .ok m := ⟨_, rfl⟩
  have hsummit : ((onRidge []).choose "path").2.currentNode = .ok summit := rfl
  refine ⟨hload, ?_, ⟨hglacier, by decide +kernel, ?_⟩, ⟨hclouds, hsummit, by decide +kernel, ?_⟩,
    by decide +kernel⟩
  · rw [Program.check_code hload, herrors]
    rfl
  · obtain ⟨m, hm⟩ := hmoved
    simp [hm]
  · exact (choose_storyEnded_iff hsummit _ _).mpr ⟨rfl, rfl⟩

end Playthrough

end Gamebook
