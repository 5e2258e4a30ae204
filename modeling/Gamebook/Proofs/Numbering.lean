import Gamebook.Proofs.Instant
import Gamebook.Proofs.Mirroring
import Gamebook.Proofs.Offering

namespace Gamebook

/-- The line is a number, perhaps with blanks around it or with a plus sign or zeros in front. -/
def Command.Types (line : String) (n : Nat) : Prop :=
  ∃ text k, Command.ofLine line = .other text ∧ wordOf? text.toList = some k ∧ k.toNat = n

section Digits

theorem trimStart_digits {ds : List Char} (h : AllDigits ds) : trimStart ds = ds := by
  cases ds with
  | nil => rfl
  | cons c cs => exact Instant.trimStart_cons (Instant.isBlank_of_isDigit (h c List.mem_cons_self)) cs

theorem trim_digits {ds : List Char} (h : AllDigits ds) : trim ds = ds := by
  have hreverse : AllDigits ds.reverse := fun c hc => h c (List.mem_reverse.mp hc)
  rw [trim, trimStart_digits h, trimStart_digits hreverse, List.reverse_reverse]

theorem toLower_digit {c : Char} (h : c.isDigit = true) : c.toLower = c := by
  simp only [Char.isDigit, Bool.and_eq_true, decide_eq_true_eq] at h
  refine dif_neg fun hupper => ?_
  have hhigh : c.toNat ≤ 57 := h.2
  have hlow : 65 ≤ c.toNat := hupper.1
  omega

theorem lower_digits {ds : List Char} (h : AllDigits ds) : lower ds = ds :=
  (List.map_congr_left fun c hc => toLower_digit (h c hc)).trans (List.map_id ds)

theorem wordOf?_numerals {n : Nat} (h : n < UInt64.size) :
    wordOf? (Decimal.numerals n) = some n.toUInt64 := by
  have hdigits := Decimal.numerals_allDigits n
  have hall : (Decimal.numerals n).all Char.isDigit = true := List.all_eq_true.mpr hdigits
  rw [wordOf?]
  · simp [Decimal.numerals_ne_nil, hall, naturalValue_numerals, h]
  · intro r hr
    have hplus : Char.isDigit '+' = true := hdigits '+' (by simp [hr])
    cases hplus

/-- What is written with digits alone is no word that commands anything. -/
theorem types_toString {n : Nat} (h : n < UInt64.size) : Command.Types (toString n) n := by
  have htext : toString n = String.ofList (Decimal.numerals n) := rfl
  have hdigits := Decimal.numerals_allDigits n
  have hlower : lower (Decimal.numerals n) = Decimal.numerals n := lower_digits hdigits
  have hword : ∀ (word : String) (c : Char), c ∈ word.toList → c.isDigit = false →
      String.ofList (Decimal.numerals n) ≠ word := by
    rintro _ c hc hdigit rfl
    rw [String.toList_ofList] at hc
    exact isDigit_ne (hdigits c hc) hdigit rfl
  refine ⟨toString n, n.toUInt64, ?_, ?_, ?_⟩
  · have hquit := hword "quit" 'q' (by simp) rfl
    have hq := hword "q" 'q' (by simp) rfl
    have hrestart := hword "restart" 'r' (by simp) rfl
    rw [Command.ofLine, htext, String.toList_ofList, trim_digits hdigits]
    simp [Decimal.numerals_ne_nil, hlower, hquit, hq, hrestart]
  · rw [htext, String.toList_ofList]
    exact wordOf?_numerals h
  · simpa using Nat.mod_eq_of_lt h

end Digits

/-- Both gates of a choice let it pass. -/
def Gates.Open (gates : Gates) (p : Progress) (g : Generator) : Prop :=
  gates.shows p g = true ∧ gates.enables p g = true

instance (gates : Gates) (p : Progress) (g : Generator) : Decidable (gates.Open p g) :=
  inferInstanceAs (Decidable (_ ∧ _))

namespace Session

/-- The choice is paid for and takes effect, its target is entered, and the new scene is shown. -/
def Takes (s : Session) (line : String) (c : Choice) (target : Node) : Prop :=
  ∃ next events scene, s.turn line = .stepped next events scene ∧
    next.game.progress = c.consequence target s.game.progress

/-- The fault is told; nothing but the generator changes. -/
def Refuses (s : Session) (line : String) (fault : Fault) : Prop :=
  ∃ g, s.turn line = .refused ⟨{ s.game with generator := g }, s.scene⟩ (fault.message ++ "\n\n")

/-- The line takes the choice, unless it leads nowhere. -/
def GoesTo (s : Session) (line : String) (c : Choice) : Prop :=
  match s.game.story.nodes.get? c.target with
  | some target => s.Takes line c target
  | none => s.Refuses line (.nodeNotFound c.target)

variable {s : Session} {line : String}

theorem offerLines_numbered {offers : List Offer} {i : Nat} {o : Offer} (h : offers[i]? = some o)
    (first : Nat) : ∃ before after,
      offerLines first offers = before ++ offerLine (first + i) o ++ after := by
  induction offers generalizing i first with
  | nil => simp at h
  | cons other offers ih =>
    cases i with
    | zero =>
      obtain rfl : other = o := by simpa using h
      exact ⟨"", offerLines (first + 1) offers, by simp [offerLines]⟩
    | succ i =>
      obtain ⟨before, after, heq⟩ := ih (by simpa using h) (first + 1)
      refine ⟨offerLine first other ++ before, after, ?_⟩
      rw [offerLines, heq, Nat.add_right_comm, Nat.add_assoc]
      simp only [String.append_assoc]

/-- What is printed of a scene lists each option under its number. -/
theorem sceneText_numbered {scene : Scene} {n : Nat} {o : Offer} (hended : scene.isEnding = false)
    (ho : scene.numbered? n = some o) :
    ∃ before after, sceneText scene = before ++ offerLine n o ++ after := by
  cases n with
  | zero => cases ho
  | succ k =>
    obtain ⟨before, after, heq⟩ := offerLines_numbered ho 1
    rw [Nat.add_comm] at heq
    obtain ⟨head, hhead⟩ : ∃ head, sceneText scene = head ++
        if scene.isEnding then "  The End.\n\n" else offerLines 1 scene.offers ++ "\n" := ⟨_, rfl⟩
    refine ⟨head ++ before, after ++ "\n", ?_⟩
    rw [hhead, hended, heq]
    simp only [Bool.false_eq_true, if_false, String.append_assoc]

theorem call?_of_types {n : Nat} {o : Offer} (h : Command.Types line n)
    (hended : s.scene.isEnding = false) (ho : s.scene.numbered? n = some o) :
    s.call? line = some (.choose o.id) := by
  obtain ⟨text, k, hline, hk, rfl⟩ := h
  simp [call?, hline, hended, hk, ho]

theorem refuses_of_error {id : String} {fault : Fault} (h : s.call? line = some (.choose id))
    (hc : (s.game.choose id).1 = .error fault) : s.Refuses line fault := by
  obtain ⟨g, hnext⟩ := Playthrough.choose_failed hc
  have hperform : s.game.perform (.choose id) =
      (.moved (.error fault), { s.game with generator := g }) := by
    rw [Playthrough.perform, hc, hnext]
  exact ⟨g, turn_of_call h hperform⟩

theorem takes_of_moved {story : Story} {ch : Chronicle} (hs : Playthrough.Sound story ch s.game)
    {id : String} {m : Move} (h : s.call? line = some (.choose id))
    (hc : (s.game.choose id).1 = .ok m) {c : Choice} {target : Node}
    (hprogress : (s.game.choose id).2.progress = c.consequence target s.game.progress) :
    s.Takes line c target := by
  have hperform : s.game.perform (.choose id) = (.moved (.ok m), (s.game.choose id).2) := by
    rw [Playthrough.perform, hc]
  obtain ⟨_, _, hturn, hfollow, -⟩ := shown_of_moved hs h hperform
  refine ⟨_, _, _, hturn, ?_⟩
  rw [hfollow]
  exact hprogress

theorem goesTo_of_actsOn {story : Story} {ch : Chronicle} (hs : Playthrough.Sound story ch s.game)
    {id : String} (h : s.call? line = some (.choose id)) {c : Choice}
    (hacts : s.game.ActsOn c (s.game.choose id)) : s.GoesTo line c := by
  unfold Playthrough.ActsOn at hacts
  unfold GoesTo
  split at hacts
  next hn =>
    simp only [hn]
    exact refuses_of_error h hacts
  next target hn =>
    obtain ⟨m, hm, -, hprogress⟩ := hacts
    simp only [hn]
    exact takes_of_moved hs h hm hprogress

end Session

namespace Program

open Playthrough

/-- The sessions, with the files beside them, that a game on a terminal comes through. -/
inductive InPlay (now : Instant) (entropy : UInt64) (start : Disk) (options : PlayOptions) :
    Session → Disk → Prop
  | opened {s : Session} {out : String} {disk : Disk}
    (h : openPlay now entropy start options = .playing s out disk) :
    InPlay now entropy start options s disk
  | typed {s next : Session} {disk disk' : Disk} {line out : String}
    (h : InPlay now entropy start options s disk)
    (hstep : step now options disk s line = .next next out disk') :
    InPlay now entropy start options next disk'

variable {now : Instant} {entropy : UInt64} {start disk disk' : Disk} {options : PlayOptions}
  {story : Story} {ch : Chronicle} {s next : Session} {line out : String}

theorem ok_of_mapError {ε ε' α : Type} {f : ε → ε'} {x : Except ε α} {a : α}
    (h : x.mapError f = .ok a) : x = .ok a := by
  cases x with
  | error => cases h
  | ok => cases h; rfl

theorem sound_begin {saved : Option String} {settings : Settings} {game : Playthrough}
    (h : begin story saved settings entropy = .ok game) : ∃ ch, Sound story ch game := by
  have hgame := ok_of_mapError h
  cases saved with
  | none => exact ⟨_, sound_start hgame⟩
  | some text => exact sound_restore hgame

/-- A session that shows its first scene. -/
theorem shown_ofGame {game : Playthrough} (hs : Sound story ch game)
    (h : Session.ofGame game = .ok s) : Sound story ch s.game ∧ s.Shown := by
  obtain ⟨scene, g, hview⟩ := hs.view_eq
  rw [Session.ofGame, hview] at h
  cases h
  exact ⟨hs.redraw g, Session.shown_of_view hview⟩

theorem begun_of_openPlay (h : openPlay now entropy start options = .playing s out disk) :
    ∃ story saved settings game, begin story saved settings entropy = .ok game ∧
      Session.ofGame game = .ok s := by
  unfold openPlay at h
  extract_lets loaded at h
  clear_value loaded
  cases loaded with
  | error message => cases h
  | ok found =>
    obtain ⟨story, settings, saved⟩ := found
    cases hgame : begin story saved settings entropy with
    | error message => simp [hgame] at h
    | ok game =>
      cases hsession : Session.ofGame game with
      | error fault =>
        simp only [hgame, openGame, hsession] at h
        split at h <;> cases h
      | ok session =>
        simp only [hgame, openGame, hsession] at h
        split at h
        next => cases h
        next =>
          cases h
          exact ⟨story, saved, settings, game, hgame, hsession⟩

/-- A line that does not end the game leads to a session that shows its newest scene. -/
theorem shown_step (hs : Sound story ch s.game) (hshown : s.Shown)
    (h : step now options disk s line = .next next out disk') :
    next.Shown ∧ ∃ ch', Sound story ch' next.game := by
  rcases s.quits_or_skipped_or_moved line with hquit | hskipped | ⟨c, m, moved, hc, hmoved⟩
  · rw [step, Session.turn_of_quit hquit] at h
    cases h
  · obtain ⟨more, hturn⟩ := Session.turn_of_skipped hskipped
    rw [step, hturn] at h
    cases h
    exact ⟨hshown.skip hskipped, ch, hskipped.sound hs⟩
  · obtain ⟨scene, -, hturn, -, hnext⟩ := Session.shown_of_moved hs hc hmoved
    rw [step, hturn] at h
    simp only at h
    split at h
    next => cases h
    next =>
      cases h
      exact hnext

/-- A game that is played stands on a node of its story, and the scene shown last is one of it. -/
theorem InPlay.sound (h : InPlay now entropy start options s disk) :
    s.Shown ∧ ∃ story ch, Sound story ch s.game := by
  induction h with
  | opened h =>
    obtain ⟨story, saved, settings, game, hgame, hsession⟩ := begun_of_openPlay h
    obtain ⟨ch, hs⟩ := sound_begin hgame
    obtain ⟨hsound, hshown⟩ := shown_ofGame hs hsession
    exact ⟨hshown, story, ch, hsound⟩
  | typed _ hstep ih =>
    obtain ⟨hshown, story, ch, hs⟩ := ih
    obtain ⟨hshown', hs'⟩ := shown_step hs hshown hstep
    exact ⟨hshown', story, hs'⟩

/-- The option under a number is made for the choice at its place among those that are shown, and it is
enabled just when this choice can be taken. -/
theorem made_of_numbered {node : Node} (hn : s.game.currentNode = .ok node) (hshown : s.Shown)
    (hcertain : ∀ c ∈ node.choices, c.gates.IsCertain) {n : Nat} {o : Offer}
    (ho : s.scene.numbered? n = some o) (g : Generator) :
    s.scene.isEnding = false ∧ node.isEnding = false ∧ ∃ c,
      (node.choices.filter fun c => c.gates.shows s.game.progress g)[n - 1]? = some c ∧
      o.id = c.id ∧ o.enabled = c.gates.enables s.game.progress g := by
  obtain ⟨g', hview⟩ := hshown
  have hn' : ({ s.game with generator := g' } : Playthrough).currentNode = .ok node := hn
  rw [view_of_currentNode hn'] at hview
  have hscene := Except.ok.inj hview
  cases he : node.isEnding with
  | true =>
    have hnone : s.scene.offers = [] := by
      rw [← hscene]
      simp [sceneOf, he]
    cases n with
    | zero => cases ho
    | succ k => simp [Scene.numbered?, hnone] at ho
  | false =>
    have hended : s.scene.isEnding = false := by
      rw [← hscene]
      simp [sceneOf, Scene.isEnding, phaseOf, he]
    obtain ⟨made, hoffers, hmade⟩ := offers_made s.game.settings.stripMarkers hcertain
      s.game.progress (Markup.render s.game.settings.stripMarkers node.content.text s.game.progress g').2
    obtain ⟨hchoices, hall⟩ := hmade g
    have hshown : s.scene.offers = made.map Prod.snd := by
      rw [hoffers, ← hscene]
      simp [sceneOf, he]
    cases n with
    | zero => cases ho
    | succ k =>
      rw [Scene.numbered?, hshown, List.getElem?_map, Option.map_eq_some_iff] at ho
      obtain ⟨⟨c, o⟩, hk, rfl⟩ := ho
      obtain ⟨hid, henabled⟩ := hall _ (List.mem_of_getElem? hk)
      refine ⟨hended, rfl, c, ?_, hid, henabled⟩
      rw [← hchoices, List.getElem?_map, Nat.add_sub_cancel, hk]
      rfl

/-- The options are printed under their numbers. A number that is typed takes the first choice with the id
of the one that its option is made for, as far as both gates of this choice let it pass; that is the one
shown under the number unless an earlier choice of the node has its id. -/
theorem number_takes_first (h : InPlay now entropy start options s disk) :
    (∀ n < UInt64.size, Command.Types (toString n) n) ∧
    ∃ node, s.game.currentNode = .ok node ∧ ((∀ c ∈ node.choices, c.gates.IsCertain) →
      ∀ n o line, Command.Types line n → s.scene.numbered? n = some o → o.enabled = true →
        let p := s.game.progress
        let g := s.game.generator
        (∃ before after, Session.sceneText s.scene = before ++ Session.offerLine n o ++ after) ∧
        ∃ c, (node.choices.filter fun c => c.gates.shows p g)[n - 1]? = some c ∧ o.id = c.id ∧
          c.gates.Open p g ∧
          (node.FirstChoice c.id c → ∀ target, s.game.story.nodes.get? c.target = some target →
            s.Takes line c target) ∧
          ∃ first, node.FirstChoice c.id first ∧
            (first.gates.Open p g → s.GoesTo line first) ∧
            (¬first.gates.Open p g → s.Refuses line (.choiceUnavailable c.id))) := by
  refine ⟨fun n => types_toString, ?_⟩
  obtain ⟨hshown, story, ch, hs⟩ := h.sound
  obtain ⟨node, hget⟩ := Option.isSome_iff_exists.mp hs.present
  have hn : s.game.currentNode = .ok node := currentNode_eq_ok_iff.mpr (hs.story_eq ▸ hget)
  refine ⟨node, hn, ?_⟩
  intro hcertain n o line hline ho henabled p g
  obtain ⟨hended, he, c, hplace, hid, hsame⟩ := made_of_numbered hn hshown hcertain ho g
  have hcall : s.call? line = some (.choose c.id) := hid ▸ Session.call?_of_types hline hended ho
  obtain ⟨hc, hshows⟩ := List.mem_filter.mp (List.mem_of_getElem? hplace)
  have hopen : c.gates.Open p g := ⟨hshows, hsame ▸ henabled⟩
  have hacts : ∀ first, node.FirstChoice c.id first →
      (first.gates.Open p g → s.GoesTo line first) ∧
      (¬first.gates.Open p g → s.Refuses line (.choiceUnavailable c.id)) := by
    intro first hfirst
    obtain ⟨hclosed, hfail⟩ | ⟨hacts, hpasses⟩ :=
      choose_of_certain hn he hfirst (hcertain first hfirst.mem) g
    · exact ⟨fun hpasses => absurd hpasses hfail, fun _ => Session.refuses_of_error hcall hclosed⟩
    · exact ⟨fun _ => Session.goesTo_of_actsOn hs hcall hacts, fun hfail => absurd hpasses hfail⟩
  refine ⟨Session.sceneText_numbered hended ho, c, hplace, hid, hopen, fun hfirst target ht => ?_, ?_⟩
  · have hgoes := (hacts c hfirst).1 hopen
    rwa [Session.GoesTo, ht] at hgoes
  · have hsome : (node.choice? c.id).isSome = true := List.find?_isSome.mpr ⟨c, hc, by simp⟩
    obtain ⟨first, hfirst⟩ := Option.isSome_iff_exists.mp hsome
    rw [Node.choice?_eq_some_iff] at hfirst
    exact ⟨first, hfirst, hacts first hfirst⟩

def leftPath : Choice := ⟨"go", "Take the left path", "weir", ⟨[], []⟩, none, none⟩

def rightPath : Choice := ⟨"go", "Take the right path", "grove", ⟨[], []⟩, none, none⟩

/-- A fork with two paths under one id and a stone to sit on. -/
def fork : Node :=
  ⟨"fork", none, ⟨"A fork.", none, none⟩,
    [leftPath, rightPath, ⟨"sit", "Sit down", "fork", ⟨[], []⟩, none, none⟩], none, false⟩

def weir : Node := ⟨"weir", none, ⟨"A weir.", none, none⟩, [], none, true⟩

def grove : Node := ⟨"grove", none, ⟨"A grove.", none, none⟩, [], none, true⟩

def paths : Story :=
  ⟨"fork", ((Dictionary.empty.insert "fork" fork).insert "weir" weir).insert "grove" grove,
    .empty, .empty, .empty, .empty⟩

def pathsText : String :=
  let path (id text target : String) := Json.object
    [("id", .text id), ("text", .text text), ("target", .text target)]
  let ending (text : String) := Json.object
    [("content", .object [("text", .text text)]), ("ending", .flag true)]
  let fork := Json.object
    [("content", .object [("text", .text "A fork.")]),
      ("choices", .array [path "go" "Take the left path" "weir",
        path "go" "Take the right path" "grove", path "sit" "Sit down" "fork"])]
  (Json.object [("start_node", .text "fork"), ("nodes", .object
    [("fork", fork), ("weir", ending "A weir."), ("grove", ending "A grove.")])]).toText

theorem ofText_pathsText : Story.ofText pathsText = .ok paths := by
  rw [Story.ofText, pathsText, Json.ofText?_toText]
  rfl

def pathsDisk : Disk := ⟨Dictionary.ofList [("paths.json", pathsText)], []⟩

def pathsOptions : PlayOptions := ⟨"paths.json", none, none, some 7, false⟩

def pathsGame : Playthrough := begun paths { seed := some 7 } paths.opening "fork" fork (.ofSeed 7)

def pathsSession : Session := ⟨pathsGame.view.2, (pathsGame.sceneOf fork).1⟩

theorem inPlay_paths : InPlay .epoch 0 pathsDisk pathsOptions pathsSession pathsDisk := by
  have hread : pathsDisk.read pathsOptions.story = .ok pathsText := rfl
  have hstory := loadStory_of_read hread ofText_pathsText
  have hsettings : loadSettings pathsDisk pathsOptions = .ok { seed := some 7 } := rfl
  have hsaved : loadSave pathsDisk pathsOptions = .ok none := rfl
  have hgame : begin paths none { seed := some 7 } 0 = .ok pathsGame := rfl
  obtain ⟨out, hopen⟩ := openPlay_of_loaded hstory hsettings hsaved .epoch 0
  have hwrite : writeSave .epoch pathsDisk pathsOptions pathsGame = .ok pathsDisk := rfl
  have hsession : Session.ofGame pathsGame = .ok pathsSession := rfl
  simp only [hgame, openGame, hwrite, hsession] at hopen
  exact .opened hopen

/-- After a rest at the fork either path is offered, and the number of either takes the left one. -/
theorem number_takes_first_paths : ∃ s : Session,
    InPlay .epoch 0 pathsDisk pathsOptions s pathsDisk ∧
    s.game.progress.history = ["fork", "fork"] ∧
    s.scene.offers.map (fun o => (o.id, o.enabled)) = [("go", true), ("go", true), ("sit", true)] ∧
    s.Takes "1" leftPath weir ∧ s.Takes " +02 " leftPath weir := by
  have hstep : ∃ out, step .epoch pathsOptions pathsDisk pathsSession "3" =
      .next (pathsSession.follow "3") out pathsDisk := ⟨_, rfl⟩
  obtain ⟨out, hstep⟩ := hstep
  have hplay := inPlay_paths.typed hstep
  obtain ⟨-, node, hn, hrule⟩ := number_takes_first hplay
  obtain rfl : fork = node := Except.ok.inj hn
  have hfirst : fork.FirstChoice "go" leftPath := ⟨rfl, [], _, rfl, by simp⟩
  have hweir : (pathsSession.follow "3").game.story.nodes.get? leftPath.target = some weir := rfl
  have htakes : ∀ n o line, Command.Types line n →
      (pathsSession.follow "3").scene.numbered? n = some o → o.enabled = true → o.id = "go" →
      (pathsSession.follow "3").Takes line leftPath weir := by
    intro n o line hline ho henabled hid
    obtain ⟨-, c, -, hc, -, -, first, hc', hgoes, -⟩ :=
      hrule (by decide +kernel) n o line hline ho henabled
    obtain rfl := hfirst.unique (hid ▸ hc ▸ hc')
    have hopen := hgoes (by decide +kernel)
    rwa [Session.GoesTo, hweir] at hopen
  refine ⟨_, hplay, rfl, rfl, ?_, ?_⟩
  · exact htakes 1 _ "1" ⟨"1", 1, rfl, rfl, rfl⟩ rfl rfl rfl
  · exact htakes 2 _ " +02 " ⟨"+02", 2, rfl, rfl, rfl⟩ rfl rfl rfl

/-- The right path is offered, and the left one is taken. -/
theorem number_mistaken :
    InPlay .epoch 0 pathsDisk pathsOptions pathsSession pathsDisk ∧ paths.IsCertain ∧
    pathsSession.game.currentNode = .ok fork ∧ Command.Types "2" 2 ∧
    ∃ o c target, pathsSession.scene.numbered? 2 = some o ∧ o.enabled = true ∧
      (fork.choices.filter fun c => c.gates.shows pathsSession.game.progress
        pathsSession.game.generator)[1]? = some c ∧
      pathsSession.game.story.nodes.get? c.target = some target ∧
      ¬pathsSession.Takes "2" c target := by
  have hcertain : paths.IsCertain := by decide +kernel
  have hturn : ∃ events scene,
      pathsSession.turn "2" = .stepped (pathsSession.follow "2") events scene := ⟨_, _, rfl⟩
  have hweir : (pathsSession.follow "2").game.progress.node = "weir" := rfl
  refine ⟨inPlay_paths, hcertain, rfl, ⟨"2", 2, rfl, rfl, rfl⟩, _, _, _, rfl, rfl, rfl, rfl, ?_⟩
  rintro ⟨next, events, scene, htaken, hprogress⟩
  obtain ⟨events', scene', hturn⟩ := hturn
  rw [hturn] at htaken
  obtain ⟨rfl, -, -⟩ := Session.Turn.stepped.inj htaken
  have hgrove : (pathsSession.follow "2").game.progress.node = "grove" :=
    congrArg Progress.node hprogress
  exact absurd (hweir.symm.trans hgrove) (by decide)

end Program

end Gamebook
