import Gamebook.Proofs.Dictionary
import Gamebook.Proofs.Ledger
import Gamebook.Proofs.Lint
import Gamebook.Proofs.Offering

namespace Gamebook

/-- A node that leads nowhere but to other nodes, names each of its choices once, ends only where it
says so, and refers to nothing that the story does not define. -/
structure Node.IsClean (n : Node) (s : Story) : Prop where
  targets : ∀ c ∈ n.choices, s.nodes.contains c.target = true
  ids : (n.choices.map Choice.id).Nodup
  ends : n.choices = [] → n.ending = true
  image : ∀ id, n.content.image = some id → s.images.contains id = true
  audio : ∀ id, n.content.audio = some id → s.audio.contains id = true
  unlocks : ∀ id ∈ Lint.unlocks n, s.achievements.contains id = true

namespace Lint

variable {s : Story} {n : Node}

theorem missingTargets_eq_nil_iff :
    missingTargets s n = [] ↔ ∀ c ∈ n.choices, s.nodes.contains c.target = true := by
  simp [missingTargets, List.filter_eq_nil_iff]

theorem repeated_eq_nil_iff (seen ids : List String) :
    repeated seen ids = [] ↔ ids.Nodup ∧ ∀ id ∈ ids, id ∉ seen := by
  induction ids generalizing seen with
  | nil => simp [repeated]
  | cons id ids ih =>
    rw [repeated]
    by_cases h : id ∈ seen
    · simp [h]
    · have hsplit : (∀ x ∈ ids, x ∉ id :: seen) ↔ id ∉ ids ∧ ∀ x ∈ ids, x ∉ seen := by grind
      simp only [List.contains_eq_mem, h, decide_false, Bool.false_eq_true, if_false, ih, hsplit]
      simp [h, and_left_comm, and_assoc]

theorem duplicates_eq_nil_iff : duplicates n = [] ↔ (n.choices.map Choice.id).Nodup := by
  simp [duplicates, repeated_eq_nil_iff]

theorem deadEnd_eq_nil_iff : deadEnd n = [] ↔ (n.choices = [] → n.ending = true) := by
  unfold deadEnd
  cases n.choices <;> cases n.ending <;> simp

theorem undefinedImage_eq_nil_iff :
    undefinedImage s n = [] ↔ ∀ id, n.content.image = some id → s.images.contains id = true := by
  simp [undefinedImage, Option.filter_eq_none_iff]

theorem undefinedAudio_eq_nil_iff :
    undefinedAudio s n = [] ↔ ∀ id, n.content.audio = some id → s.audio.contains id = true := by
  simp [undefinedAudio, Option.filter_eq_none_iff]

theorem mem_ascendingDistinct {ids : List String} {id : String} :
    id ∈ ascendingDistinct ids ↔ id ∈ ids := by
  simp [ascendingDistinct, Dictionary.mem_names_ofList]

theorem undefinedAchievements_eq_nil_iff :
    undefinedAchievements s n = [] ↔ ∀ id ∈ unlocks n, s.achievements.contains id = true := by
  rw [undefinedAchievements, List.map_eq_nil_iff, List.eq_nil_iff_forall_not_mem]
  simp [mem_ascendingDistinct]

theorem nodeProblems_eq_nil_iff : nodeProblems s n = [] ↔ n.IsClean s := by
  simp only [nodeProblems, List.append_eq_nil_iff, missingTargets_eq_nil_iff,
    duplicates_eq_nil_iff, deadEnd_eq_nil_iff, undefinedImage_eq_nil_iff, undefinedAudio_eq_nil_iff,
    undefinedAchievements_eq_nil_iff]
  constructor
  · rintro ⟨⟨⟨⟨⟨htargets, hids⟩, hends⟩, himage⟩, haudio⟩, hunlocks⟩
    exact ⟨htargets, hids, hends, himage, haudio, hunlocks⟩
  · rintro ⟨htargets, hids, hends, himage, haudio, hunlocks⟩
    exact ⟨⟨⟨⟨⟨htargets, hids⟩, hends⟩, himage⟩, haudio⟩, hunlocks⟩

theorem explore_nil (s : Story) (seen : List String) : explore s seen [] = seen := by
  rw [explore]

theorem explore_of_new {id : String} {seen : List String} (hn : s.nodes.get? id = some n)
    (hs : seen.contains id = false) (rest : List String) :
    explore s seen (id :: rest) = explore s (id :: seen) (rest ++ n.choices.map Choice.target) := by
  rw [explore]
  split
  next hnone => cases hn.symm.trans hnone
  next m hm =>
    obtain rfl := Option.some.inj (hn.symm.trans hm)
    rw [dif_neg (by simpa using hs)]

instance (s : Story) (n : Node) : Decidable (n.IsClean s) :=
  decidable_of_iff _ nodeProblems_eq_nil_iff

theorem report_isEmpty_iff : (report s).isEmpty = true ↔
    (∀ n ∈ s.nodes.values, n.IsClean s) ∧ ∀ id ∈ s.nodes.names, id ∈ reachable s := by
  have hunreachable : unreachable s = [] ↔ ∀ id ∈ s.nodes.names, id ∈ reachable s := by
    simp [unreachable, List.filter_eq_nil_iff]
  have hproblems : (∀ n ∈ s.nodes.values, nodeIssues s n = []) ↔
      ∀ n ∈ s.nodes.values, n.IsClean s := by
    simp [nodeIssues, nodeProblems_eq_nil_iff]
  rw [Report.isEmpty, List.isEmpty_iff, ← List.length_eq_zero_iff, report, List.length_mergeSort,
    List.length_eq_zero_iff, List.append_eq_nil_iff, List.flatMap_eq_nil_iff, hproblems, hunreachable]

end Lint

/-- What a move unlocks, its choice or the node that it enters asks for. -/
theorem Move.Tells.unlocked_asked {m : Move} {s : Story} {held : List String}
    {chosen : Option Effects} (h : m.Tells s held chosen) {id name : String}
    (he : .achievementUnlocked id name ∈ m.events) : id ∈ Effects.unlocksOf chosen ∨
      ∃ n, s.nodes.get? m.destination = some n ∧ id ∈ Effects.unlocksOf n.effects := by
  obtain ⟨n, hn, hquiet⟩ := h
  have hmem : id ∈ fresh held (Effects.unlocksOf chosen ++ Effects.unlocksOf n.effects) := by
    rw [← Story.news_unlocked s held chosen m.destination n, ← hquiet]
    exact List.mem_filterMap.mpr ⟨_, mem_quiet_iff.mpr he, rfl⟩
  rcases List.mem_append.mp (mem_of_mem_fresh hmem) with hchosen | hnode
  · exact Or.inl hchosen
  · exact Or.inr ⟨n, hn, hnode⟩

theorem Effects.mem_unlocksOf_iff {effects : Option Effects} {id : String} :
    id ∈ unlocksOf effects ↔ ∃ e, effects = some e ∧ id ∈ e.unlocks := by
  cases effects <;> simp [unlocksOf]

theorem Lint.mem_unlocks_iff {n : Node} {id : String} : id ∈ unlocks n ↔
    id ∈ Effects.unlocksOf n.effects ∨ ∃ c ∈ n.choices, id ∈ Effects.unlocksOf c.effects := by
  simp only [unlocks, List.mem_flatMap, List.mem_append, Option.mem_toList, List.mem_filterMap,
    Effects.mem_unlocksOf_iff]
  grind

namespace Story

/-- A story of which nothing is reported. -/
def IsClean (s : Story) : Prop := ∀ n ∈ s.nodes.values, n.IsClean s

variable {s : Story} {settings : Settings} {p : Progress} {d : Deed} {m : Move}

theorem IsClean.node (hs : s.IsClean) {id : String} {n : Node} (hn : s.nodes.get? id = some n) :
    n.IsClean s := hs n (Dictionary.mem_values_iff.mpr ⟨id, hn⟩)

theorem IsClean.closed (hs : s.IsClean) : s.IsClosed := fun n hn => (hs n hn).targets

/-- What a choice unlocks is defined. -/
theorem IsClean.effectsOf_defined (hs : s.IsClean) {id : String}
    (h : id ∈ Effects.unlocksOf (s.effectsOf p d)) : s.achievements.contains id = true := by
  cases d with
  | choose name =>
    cases hn : s.nodes.get? p.node with
    | none => simp [effectsOf, hn, Effects.unlocksOf] at h
    | some n =>
      cases hc : n.choice? name with
      | none => simp [effectsOf, hn, hc, Effects.unlocksOf] at h
      | some c =>
        have heffects : s.effectsOf p (.choose name) = c.effects := by simp [effectsOf, hn, hc]
        have hmem := (Node.choice?_eq_some_iff.mp hc).mem
        exact (hs.node hn).unlocks id (Lint.mem_unlocks_iff.mpr (Or.inr ⟨c, hmem, heffects ▸ h⟩))
  | reset => simp [effectsOf, Effects.unlocksOf] at h
  | resume settings => simp [effectsOf, Effects.unlocksOf] at h

/-- A move names only achievements that the story defines. -/
def Announces (s : Story) (m : Move) : Prop :=
  ∀ id name, .achievementUnlocked id name ∈ m.events → s.achievements.contains id = true

theorem IsClean.announces (hs : s.IsClean) {held : List String} {chosen : Option Effects}
    (ht : m.Tells s held chosen)
    (hc : ∀ id ∈ Effects.unlocksOf chosen, s.achievements.contains id = true) : s.Announces m := by
  intro id name he
  rcases ht.unlocked_asked he with hchosen | ⟨n, hn, hnode⟩
  · exact hc id hchosen
  · exact (hs.node hn).unlocks id (Lint.mem_unlocks_iff.mpr (Or.inl hnode))

end Story

namespace Playthrough

variable {story : Story} {settings : Settings} {g : Generator}

theorem perform_announces {t : Playthrough} (hs : t.story.IsClean) (c : Call) {m : Move}
    (hm : (t.perform c).1.move? = some m) : t.story.Announces m := by
  cases hd : c.deed? with
  | none =>
    cases c with
    | view => cases hm
    | _ => cases hd
  | some d =>
    have htells := Story.move?_tells (move?_of_perform hd hm)
    exact hs.announces htells fun id hid => hs.effectsOf_defined hid

theorem run_announces {t : Playthrough} (hs : t.story.IsClean) (calls : List Call) :
    ∀ a ∈ (t.run calls).1, ∀ m, a.move? = some m → t.story.Announces m := by
  induction calls generalizing t with
  | nil => simp [run]
  | cons c cs ih =>
    have hstory : (t.perform c).2.story = t.story :=
      (balances_perform (.opened t.story t.progress) c).1
    rw [run]
    refine List.forall_mem_cons.mpr ⟨fun m hm => perform_announces hs c hm, ?_⟩
    rw [← hstory] at hs ⊢
    exact ih hs

end Playthrough

/-- What is defined is not left out. -/
theorem filter_defined {id? : Option String} {p : String → Bool}
    (h : ∀ id, id? = some id → p id = true) : id?.filter p = id? := by
  cases id? with
  | none => rfl
  | some id => exact Option.filter_some_pos (h id rfl)

namespace Node.IsClean

variable {n : Node} {t : Playthrough}

theorem choice?_eq (h : n.IsClean t.story) {c : Choice} (hc : c ∈ n.choices) :
    n.choice? c.id = some c := by
  obtain ⟨before, after, heq⟩ := List.append_of_mem hc
  refine choice?_eq_some_iff.mpr ⟨rfl, before, after, heq, fun b hb hid => ?_⟩
  have hids := h.ids
  rw [heq, List.map_append, List.nodup_append] at hids
  exact hids.2.2 b.id (List.mem_map_of_mem hb) c.id (by simp) hid

theorem sceneOf_image (h : n.IsClean t.story) : (t.sceneOf n).1.image = n.content.image :=
  filter_defined h.image

theorem sceneOf_audio (h : n.IsClean t.story) :
    (t.sceneOf n).1.audio = if t.settings.sound then n.content.audio else none := by
  change n.content.audio.filter (fun id => t.settings.sound && t.story.audio.contains id) = _
  cases t.settings.sound with
  | false => simp
  | true => exact filter_defined h.audio

theorem isEnding_eq (h : n.IsClean t.story) : n.isEnding = n.ending := by
  rw [isEnding, Bool.or_eq_left_iff_imp]
  exact fun hempty => h.ends (List.isEmpty_iff.mp hempty)

end Node.IsClean

namespace Playthrough

/-- A story of which nothing is reported keeps what it promises, from wherever it is played. Pictures and
sound are those of the node, only achievements that are defined are announced, the story ends nowhere but
on marked endings, and each choice is found under its id. -/
theorem clean_report_kept {story : Story} (hl : story.Loaded)
    (hreport : (Lint.report story).isEmpty = true) {saved : Option Progress}
    (hsaved : ∀ p ∈ saved, p.node = "" ∨ story.nodes.contains p.node = true)
    (settings : Settings) (g : Generator) :
    ∃ t₀, start story saved settings g = .ok t₀ ∧ story.Announces t₀.last ∧ ∀ calls : List Call,
      (∀ m, .moved (.ok m) ∈ (t₀.run calls).1 → story.Announces m) ∧
      let t := (t₀.run calls).2
      ∃ node scene, t.currentNode = .ok node ∧ t.view.1 = .ok scene ∧
        scene.image = node.content.image ∧
        scene.audio = (if t.settings.sound then node.content.audio else none) ∧
        (t.phase = .ended ↔ node.ending = true) ∧
        ∀ c ∈ node.choices, node.choice? c.id = some c := by
  have hclean : story.IsClean := (Lint.report_isEmpty_iff.mp hreport).1
  have hentry : story.nodes.contains (story.entry (saved.getD story.opening)) = true := by
    refine Story.entry_defined hl.start_defined ?_
    cases saved with
    | none => exact Or.inl rfl
    | some p => exact hsaved p rfl
  obtain ⟨n, hn⟩ := Option.isSome_iff_exists.mp hentry
  have ht : start story saved settings g = .ok _ := start_of_some hn
  obtain ⟨hstory, hopening, -⟩ := balances_start ht
  refine ⟨_, ht, hclean.announces hopening (by simp [Effects.unlocksOf]), fun calls => ⟨?_, ?_⟩⟩
  · intro m hm
    exact run_announces (hstory ▸ hclean) calls _ hm m rfl
  · intro t
    have hs := (sound_start ht).run calls
    obtain ⟨node, hnode⟩ := Option.isSome_iff_exists.mp hs.present
    have hcurrent : t.currentNode = .ok node := currentNode_eq_ok_iff.mpr (hs.story_eq ▸ hnode)
    have hnodeClean : node.IsClean t.story := hs.story_eq ▸ hclean.node hnode
    refine ⟨node, (t.sceneOf node).1, hcurrent, congrArg Prod.fst (view_of_currentNode hcurrent),
      hnodeClean.sceneOf_image, hnodeClean.sceneOf_audio, ?_, fun c => hnodeClean.choice?_eq⟩
    rw [phase, hcurrent, ← hnodeClean.isEnding_eq, phaseOf_eq_ended_iff, node.isEnding_iff]

/-- A chapel with a window and an organ. Whoever comes in is a pilgrim, and whoever climbs the spire
has rung the bell. -/
def chapelTree : Json :=
  let unlocking (id : String) : String × Json :=
    ("effects", .object [("unlock_achievements", .array [.text id])])
  .object [("start_node", .text "nave"),
    ("nodes", .object
      [("nave", .object
        [("content", .object [("image", .text "window"), ("audio", .text "organ")]),
          unlocking "pilgrim",
          ("choices", .array [.object [("id", .text "climb"), ("target", .text "spire"),
            unlocking "ringer"]])]),
        ("spire", .object [("ending", .flag true)])]),
    ("game_state", .object [("achievements", .object
      [("pilgrim", .object []), ("ringer", .object [("name", .text "Bell ringer")])])]),
    ("assets", .object
      [("images", .object [("window", .object [("path", .text "window.png")])]),
        ("audio", .object [("organ", .object [("path", .text "organ.ogg")])])])]

def unlocking (id : String) : Option Effects := some ⟨.empty, .empty, [], [], [id]⟩

def nave : Node :=
  ⟨"nave", none, ⟨"", some "window", some "organ"⟩,
    [⟨"climb", "", "spire", ⟨[], []⟩, unlocking "ringer", none⟩], unlocking "pilgrim", false⟩

def spire : Node := ⟨"spire", none, ⟨"", none, none⟩, [], none, true⟩

def chapel : Story :=
  ⟨"nave", (Dictionary.empty.insert "nave" nave).insert "spire" spire, .empty,
    (Dictionary.empty.insert "pilgrim" ⟨"", none, none⟩).insert "ringer" ⟨"Bell ringer", none, none⟩,
    Dictionary.empty.insert "window" ⟨"window.png", none, none⟩,
    Dictionary.empty.insert "organ" ⟨"organ.ogg", false, Audio.defaultVolume, none⟩⟩

theorem chapel_reachable : Lint.reachable chapel = ["spire", "nave"] :=
  calc Lint.reachable chapel
      = Lint.explore chapel [] ["nave"] := rfl
    _ = Lint.explore chapel ["nave"] ["spire"] := Lint.explore_of_new (n := nave) rfl rfl []
    _ = Lint.explore chapel ["spire", "nave"] [] := Lint.explore_of_new (n := spire) rfl rfl []
    _ = ["spire", "nave"] := Lint.explore_nil ..

theorem chapel_clean : (Lint.report chapel).isEmpty = true := by
  refine Lint.report_isEmpty_iff.mpr ⟨?_, ?_⟩
  · decide +kernel
  · rw [chapel_reachable]
    decide +kernel

theorem clean_report_kept_chapel : Story.read Json.depthLimit chapelTree = .ok chapel ∧
    (Lint.report chapel).isEmpty = true ∧
    ∃ t₀ scene, start chapel (some ⟨"", .empty, ["candle"], [], []⟩) {} (.ofSeed 7) = .ok t₀ ∧
      chapel.Announces t₀.last ∧ t₀.view.1 = .ok scene ∧ scene.image = some "window" ∧
      scene.audio = some "organ" ∧
      (∀ m, .moved (.ok m) ∈ (t₀.run [.choose "climb"]).1 → chapel.Announces m) := by
  have hread : Story.read Json.depthLimit chapelTree = .ok chapel := rfl
  have hreport : (Lint.report chapel).isEmpty = true := chapel_clean
  have hsaved : ∀ p ∈ some (⟨"", .empty, ["candle"], [], []⟩ : Progress),
      p.node = "" ∨ chapel.nodes.contains p.node = true := by
    rintro p ⟨⟩
    exact Or.inl rfl
  obtain ⟨t₀, h, hlast, hrun⟩ := clean_report_kept (.tree hread) hreport hsaved {} (.ofSeed 7)
  obtain ⟨-, node, scene, hn, hview, himage, haudio, -, -⟩ := hrun []
  have hstart : start chapel (some ⟨"", .empty, ["candle"], [], []⟩) {} (.ofSeed 7) =
    .ok (begun chapel {} ⟨"", .empty, ["candle"], [], []⟩ "nave" nave (.ofSeed 7)) :=
    start_of_some rfl
  obtain rfl := Except.ok.inj (h.symm.trans hstart)
  obtain rfl : nave = node := Except.ok.inj hn
  exact ⟨hread, hreport, _, scene, h, hlast, hview, himage, haudio, (hrun [.choose "climb"]).1⟩

end Playthrough

end Gamebook
