import Gamebook.Program
import Gamebook.Proofs.Disk
import Gamebook.Proofs.Json.Rereading
import Gamebook.Proofs.Loading
import Gamebook.Proofs.Sessions

namespace Gamebook

namespace Playthrough

variable {story : Story} {ch : Chronicle} {t : Playthrough}

theorem sound_restore {text : String} {settings : Settings} {g : Generator}
    (h : restore story text settings g = .ok t) : ∃ ch, Sound story ch t := by
  unfold restore at h
  split at h
  next => cases h
  next s _ => exact ⟨_, sound_start h⟩

end Playthrough

namespace Program

open Playthrough

/-- Why a game with a save file cannot be begun. -/
inductive FailsToStart (disk : Disk) (options : PlayOptions) (path : String) : Prop
  | storyUnreadable {fault : DiskFault} (h : disk.read options.story = .error fault)
  | storyInvalid {text : String} {fault : Fault} (h : disk.read options.story = .ok text)
    (hstory : Story.ofText text = .error fault)
  | settingsUnreadable {place : String} {fault : DiskFault} (hplace : options.settings = some place)
    (h : disk.read place = .error fault)
  | settingsInvalid {place text : String} (hplace : options.settings = some place)
    (h : disk.read place = .ok text) (hsettings : Settings.ofText? text = none)
  | saveUnreadable {fault : DiskFault} (hpresent : disk.isPresent path = true)
    (h : disk.read path = .error fault)
  | saveInvalid {text : String} (h : disk.read path = .ok text) (hsave : Save.ofText? text = none)
  | saveLost {text saved : String} {story : Story} {s : Save}
    (hstory : disk.read options.story = .ok text) (hread : Story.ofText text = .ok story)
    (h : disk.read path = .ok saved) (hsave : Save.ofText? saved = some s)
    (hnode : story.nodes.get? (story.entry s.progress) = none)
  /-- The story, the settings and the save may all be in order here. What stops the game is that its first save
  cannot be written. -/
  | saveUnwritable {text : String} {fault : DiskFault} (h : disk.write path text = .error fault)

/-- A new game where there is no save, else one that goes on from it, and its first scene. -/
inductive Opens (entropy : UInt64) (disk : Disk) (options : PlayOptions) (path : String) :
    Session → Prop
  | anew {text : String} {story : Story} {settings : Settings} {game shown : Playthrough}
    {scene : Scene} (hstory : disk.read options.story = .ok text)
    (hread : Story.ofText text = .ok story) (hsettings : loadSettings disk options = .ok settings)
    (habsent : disk.isPresent path = false)
    (hgame : start story none settings (settings.generator entropy) = .ok game)
    (hview : game.view = (.ok scene, shown)) : Opens entropy disk options path ⟨shown, scene⟩
  | resumed {text saved : String} {story : Story} {settings : Settings} {game shown : Playthrough}
    {scene : Scene} (hstory : disk.read options.story = .ok text)
    (hread : Story.ofText text = .ok story) (hsettings : loadSettings disk options = .ok settings)
    (hsave : disk.read path = .ok saved)
    (hgame : restore story saved settings (settings.generator entropy) = .ok game)
    (hview : game.view = (.ok scene, shown)) : Opens entropy disk options path ⟨shown, scene⟩

variable {disk : Disk} {options : PlayOptions} {path : String}

section Opening

theorem isPresent_of_read {text : String} (h : disk.read path = .ok text) :
    disk.isPresent path = true := by
  rw [Disk.isPresent, h]

theorem loadStory_cases (disk : Disk) (options : PlayOptions) (path : String) :
    (∃ text story, disk.read options.story = .ok text ∧ Story.ofText text = .ok story ∧
      loadStory disk options.story = .ok story) ∨
    (FailsToStart disk options path ∧ ∃ message, loadStory disk options.story = .error message) := by
  unfold loadStory
  cases hread : disk.read options.story with
  | error fault => exact .inr ⟨.storyUnreadable hread, _, rfl⟩
  | ok text =>
    cases hstory : Story.ofText text with
    | error fault => exact .inr ⟨.storyInvalid hread hstory, _, by simp only [hstory]; rfl⟩
    | ok story => exact .inl ⟨text, story, rfl, hstory, by simp only [hstory]⟩

theorem loadSettings_cases (disk : Disk) (options : PlayOptions) (path : String) :
    (∃ settings, loadSettings disk options = .ok settings) ∨
    (FailsToStart disk options path ∧ ∃ message, loadSettings disk options = .error message) := by
  unfold loadSettings
  cases hplace : options.settings with
  | none => exact .inl ⟨_, rfl⟩
  | some place =>
    cases hread : disk.read place with
    | error fault => exact .inr ⟨.settingsUnreadable hplace hread, _, by simp only [hread]; rfl⟩
    | ok text =>
      cases hsettings : Settings.ofText? text with
      | none =>
        exact .inr ⟨.settingsInvalid hplace hread hsettings, _, by simp only [hread, hsettings]; rfl⟩
      | some settings => exact .inl ⟨_, by simp only [hread, hsettings]; rfl⟩

theorem loadSave_cases (hsave : options.save = some path) (disk : Disk) :
    (disk.isPresent path = false ∧ loadSave disk options = .ok none) ∨
    (∃ saved, disk.read path = .ok saved ∧ loadSave disk options = .ok (some saved)) ∨
    (FailsToStart disk options path ∧ ∃ message, loadSave disk options = .error message) := by
  unfold loadSave
  rw [hsave]
  cases hpresent : disk.isPresent path with
  | false => exact .inl ⟨rfl, by simp [hpresent]⟩
  | true =>
    cases hread : disk.read path with
    | error fault =>
      exact .inr (.inr ⟨.saveUnreadable hpresent hread, _, by simp only [hpresent, hread]; rfl⟩)
    | ok saved => exact .inr (.inl ⟨saved, rfl, by simp only [hpresent, hread]; rfl⟩)

theorem begin_anew {text : String} {story : Story} (hread : Story.ofText text = .ok story)
    (settings : Settings) (entropy : UInt64) :
    ∃ game, start story none settings (settings.generator entropy) = .ok game ∧
      begin story none settings entropy = .ok game := by
  obtain ⟨n, hn⟩ := Option.isSome_iff_exists.mp (Story.Loaded.text hread).start_defined
  have hstart : start story none settings (settings.generator entropy) = .ok _ := start_of_some hn
  exact ⟨_, hstart, by rw [begin, hstart]; rfl⟩

theorem begin_resumed {text saved : String} {story : Story}
    (hstory : disk.read options.story = .ok text) (hread : Story.ofText text = .ok story)
    (hsaved : disk.read path = .ok saved) (settings : Settings) (entropy : UInt64) :
    (∃ game, restore story saved settings (settings.generator entropy) = .ok game ∧
      begin story (some saved) settings entropy = .ok game) ∨
    (FailsToStart disk options path ∧
      ∃ message, begin story (some saved) settings entropy = .error message) := by
  cases hsave : Save.ofText? saved with
  | none =>
    have hrestore : restore story saved settings (settings.generator entropy) = .error .invalidSave := by
      rw [restore, hsave]
    exact .inr ⟨.saveInvalid hsaved hsave, _, by rw [begin, hrestore]; rfl⟩
  | some s =>
    have hrestore : restore story saved settings (settings.generator entropy) =
        start story (some s.progress) settings (settings.generator entropy) := by rw [restore, hsave]
    cases hn : story.nodes.get? (story.entry s.progress) with
    | none =>
      rw [start_of_none hn] at hrestore
      exact .inr ⟨.saveLost hstory hread hsaved hsave hn, _, by rw [begin, hrestore]; rfl⟩
    | some n =>
      rw [start_of_some hn] at hrestore
      exact .inl ⟨_, hrestore, by rw [begin, hrestore]; rfl⟩

theorem writeSave_of_ok (hsave : options.save = some path) {now : Instant} {d : Disk}
    {game : Playthrough} (h : disk.write path (game.save now) = .ok d) :
    writeSave now disk options game = .ok d := by
  simp only [writeSave, hsave, h]

theorem writeSave_of_error (hsave : options.save = some path) {now : Instant} {fault : DiskFault}
    {game : Playthrough} (h : disk.write path (game.save now) = .error fault) :
    ∃ message, writeSave now disk options game = .error message :=
  ⟨_, by simp only [writeSave, hsave, h]; rfl⟩

/-- The first save is written before the first scene is shown. -/
theorem openGame_cases (hsave : options.save = some path) {story : Story} {ch : Chronicle}
    {game : Playthrough} {entropy : UInt64} (hs : Sound story ch game)
    (hopens : ∀ scene shown, game.view = (.ok scene, shown) →
      Opens entropy disk options path ⟨shown, scene⟩) (now : Instant) (out : String) :
    (∃ s out' d, Opens entropy disk options path s ∧ Sound story ch s.game ∧
      disk.write path (s.game.save now) = .ok d ∧
      openGame now disk options game out = .playing s out' d) ∨
    (FailsToStart disk options path ∧
      ∃ message, openGame now disk options game out = .failed (failure disk out message)) := by
  obtain ⟨scene, g, hview⟩ := hs.view_eq
  cases hwrite : disk.write path (game.save now) with
  | error fault =>
    obtain ⟨message, hmessage⟩ := writeSave_of_error hsave hwrite
    exact .inr ⟨.saveUnwritable hwrite, message, by rw [openGame, hmessage]⟩
  | ok d =>
    have hofGame : Session.ofGame game = .ok ⟨{ game with generator := g }, scene⟩ := by
      rw [Session.ofGame, hview]
    have hplaying : openGame now disk options game out =
        .playing ⟨{ game with generator := g }, scene⟩
          (out ++ Session.welcome ++ Session.sceneText scene ++ Session.prompt) d := by
      rw [openGame, writeSave_of_ok hsave hwrite]
      simp only [hofGame, String.append_assoc]
    exact .inl ⟨_, _, d, hopens _ _ hview, hs.redraw g, hwrite, hplaying⟩

theorem openPlay_of_loaded {story : Story} {settings : Settings} {saved : Option String}
    (hstory : loadStory disk options.story = .ok story)
    (hsettings : loadSettings disk options = .ok settings)
    (hsaved : loadSave disk options = .ok saved) (now : Instant) (entropy : UInt64) :
    ∃ out, openPlay now entropy disk options = match begin story saved settings entropy with
      | .error message => .failed (failure disk out message)
      | .ok game => openGame now disk options game out := by
  rw [openPlay]
  simp only [hstory, hsettings, hsaved, bind, Except.bind, pure, Except.pure]
  exact ⟨_, rfl⟩

/-- A game opens on a disk that holds its first save, or there is a reason why it does not. -/
theorem openPlay_cases (hsave : options.save = some path) (now : Instant) (entropy : UInt64)
    (disk : Disk) :
    (∃ s out d story ch, Opens entropy disk options path s ∧ Sound story ch s.game ∧
      disk.write path (s.game.save now) = .ok d ∧
      openPlay now entropy disk options = .playing s out d) ∨
    (FailsToStart disk options path ∧
      ∃ out message, openPlay now entropy disk options = .failed (failure disk out message)) := by
  obtain ⟨text, story, hread, hstory, hload⟩ | ⟨hfails, message, hload⟩ :=
    loadStory_cases disk options path
  case inr =>
    refine .inr ⟨hfails, "", message, ?_⟩
    simp [openPlay, hload, bind, Except.bind]
  obtain ⟨settings, hsettings⟩ | ⟨hfails, message, hsettings⟩ := loadSettings_cases disk options path
  case inr =>
    refine .inr ⟨hfails, "", message, ?_⟩
    simp [openPlay, hload, hsettings, bind, Except.bind]
  obtain ⟨habsent, hsaved⟩ | ⟨saved, hpresent, hsaved⟩ | ⟨hfails, message, hsaved⟩ :=
    loadSave_cases hsave disk
  case inr.inr =>
    refine .inr ⟨hfails, "", message, ?_⟩
    simp [openPlay, hload, hsettings, hsaved, bind, Except.bind]
  · obtain ⟨out, hopen⟩ := openPlay_of_loaded hload hsettings hsaved now entropy
    obtain ⟨game, hgame, hbegin⟩ := begin_anew hstory settings entropy
    have hopens : ∀ scene shown, game.view = (.ok scene, shown) →
        Opens entropy disk options path ⟨shown, scene⟩ :=
      fun scene shown hview => .anew hread hstory hsettings habsent hgame hview
    simp only [hopen, hbegin]
    exact (openGame_cases hsave (sound_start hgame) hopens now out).imp
      (fun ⟨s, out', d, h⟩ => ⟨s, out', d, story, _, h⟩) (fun ⟨hfails, h⟩ => ⟨hfails, out, h⟩)
  · obtain ⟨out, hopen⟩ := openPlay_of_loaded hload hsettings hsaved now entropy
    obtain ⟨game, hgame, hbegin⟩ | ⟨hfails, message, hbegin⟩ :=
      begin_resumed hread hstory hpresent settings entropy
    · obtain ⟨ch, hs⟩ := sound_restore hgame
      have hopens : ∀ scene shown, game.view = (.ok scene, shown) →
          Opens entropy disk options path ⟨shown, scene⟩ :=
        fun scene shown hview => .resumed hread hstory hsettings hpresent hgame hview
      simp only [hopen, hbegin]
      exact (openGame_cases hsave hs hopens now out).imp
        (fun ⟨s, out', d, h⟩ => ⟨s, out', d, story, ch, h⟩) (fun ⟨hfails, h⟩ => ⟨hfails, out, h⟩)
    · simp only [hopen, hbegin]
      exact .inr ⟨hfails, out, message, rfl⟩

theorem Opens.shown {entropy : UInt64} {s : Session} (h : Opens entropy disk options path s) :
    s.Shown := by
  cases h with
  | anew _ _ _ _ _ hview | resumed _ _ _ _ _ hview => exact Session.shown_of_view hview

/-- No reason against a game holds where it opens. -/
theorem Opens.not_fails {entropy : UInt64} {s : Session} {text : String} {d : Disk}
    (h : Opens entropy disk options path s) (hwrite : disk.write path text = .ok d) :
    ¬FailsToStart disk options path := by
  obtain ⟨content, story, settings, hstory, hread, hsettings⟩ : ∃ content story settings,
      disk.read options.story = .ok content ∧ Story.ofText content = .ok story ∧
        loadSettings disk options = .ok settings := by
    cases h with
    | anew hstory hread hsettings | resumed hstory hread hsettings =>
      exact ⟨_, _, _, hstory, hread, hsettings⟩
  intro hfails
  cases hfails with
  | storyUnreadable h => cases hstory.symm.trans h
  | storyInvalid h hinvalid =>
    cases hstory.symm.trans h
    cases hread.symm.trans hinvalid
  | settingsUnreadable hplace h => simp [loadSettings, hplace, h, Except.map] at hsettings
  | settingsInvalid hplace h hinvalid => simp [loadSettings, hplace, h, hinvalid, Except.map] at hsettings
  | saveUnreadable hpresent hunreadable =>
    cases h with
    | anew _ _ _ habsent => cases habsent.symm.trans hpresent
    | resumed _ _ _ hsave => cases hsave.symm.trans hunreadable
  | saveInvalid hpresent hinvalid =>
    cases h with
    | anew _ _ _ habsent => cases habsent.symm.trans (isPresent_of_read hpresent)
    | resumed _ _ _ hsave hgame =>
      cases hsave.symm.trans hpresent
      simp [restore, hinvalid] at hgame
  | saveLost hstory' hread' hpresent hsaved hnode =>
    cases hstory.symm.trans hstory'
    cases hread.symm.trans hread'
    cases h with
    | anew _ _ _ habsent => cases habsent.symm.trans (isPresent_of_read hpresent)
    | resumed hstory'' hread'' _ hsave hgame =>
      cases hstory.symm.trans hstory''
      cases hread.symm.trans hread''
      cases hsave.symm.trans hpresent
      rw [restore, hsaved] at hgame
      cases (start_of_none hnode).symm.trans hgame
  | saveUnwritable hunwritable =>
    obtain ⟨_, hwritable, -⟩ := Disk.write_write hwrite _
    cases hwritable.symm.trans hunwritable

end Opening

section Playing

variable {story : Story} {ch : Chronicle} {s : Session} {first : Disk} {now : Instant}

/-- The file that a line leaves is the one that would have been written at once. -/
theorem step_mirrors (hsave : options.save = some path) (hs : Sound story ch s.game) (hshown : s.Shown)
    (hdisk : first.write path (s.game.save now) = .ok disk) {line : String}
    (hline : Command.ofLine line ≠ .quit) : ∃ out d ch',
      step now options disk s line = .next (s.follow line) out d ∧
      first.write path ((s.follow line).game.save now) = .ok d ∧
      Sound story ch' (s.follow line).game ∧ (s.follow line).Shown := by
  rcases s.quits_or_skipped_or_moved line with hquit | hskipped | ⟨c, m, next, hc, hmoved⟩
  · exact absurd hquit hline
  · obtain ⟨out, hturn⟩ := Session.turn_of_skipped hskipped
    obtain ⟨g, hfollow⟩ := hskipped.follow_eq
    refine ⟨out ++ Session.prompt, disk, ch, by rw [step, hturn], ?_, hskipped.sound hs,
      hshown.skip hskipped⟩
    rw [hfollow]
    exact hdisk
  · obtain ⟨scene, -, hturn, -, hshown', ch', hs'⟩ := Session.shown_of_moved hs hc hmoved
    obtain ⟨d, hfirst, hwrite⟩ := Disk.write_write hdisk ((s.follow line).game.save now)
    have hstep : step now options disk s line = .next (s.follow line)
        (Session.eventsText m ++ Session.sceneText scene ++ Session.prompt) d := by
      rw [step, hturn]
      simp only [writeSave_of_ok hsave hwrite]
    exact ⟨_, d, ch', hstep, hfirst, hs', hshown'⟩

theorem playLines_mirrors (hsave : options.save = some path) (hs : Sound story ch s.game)
    (hshown : s.Shown) (hdisk : first.write path (s.game.save now) = .ok disk) (out : String)
    (lines : List String) : (playLines now options disk out s lines).code = 0 ∧
      (s.followAll lines).Shown ∧ first.write path ((s.followAll lines).game.save now) =
        .ok (playLines now options disk out s lines).disk := by
  induction lines generalizing s disk ch out with
  | nil => exact ⟨rfl, hshown, hdisk⟩
  | cons line lines ih =>
    rw [playLines]
    by_cases hline : Command.ofLine line = .quit
    · rw [step, Session.turn_of_quit hline, Session.followAll_quit hline]
      exact ⟨rfl, hshown, hdisk⟩
    · obtain ⟨more, d, ch', hstep, hd, hs', hshown'⟩ := step_mirrors hsave hs hshown hdisk hline
      rw [hstep, Session.followAll_cons hline]
      exact ih hs' hshown' hd (out ++ more)

theorem play_mirrors (hsave : options.save = some path) (now : Instant) (entropy : UInt64)
    (disk : Disk) :
    (FailsToStart disk options path ∧ ∀ lines, (play now entropy disk options lines).code = 1 ∧
      (play now entropy disk options lines).disk = disk) ∨
    ∃ opening, ¬FailsToStart disk options path ∧ Opens entropy disk options path opening ∧
      ∀ lines, (play now entropy disk options lines).code = 0 ∧ (opening.followAll lines).Shown ∧
        disk.write path ((opening.followAll lines).game.save now) =
          .ok (play now entropy disk options lines).disk := by
  obtain ⟨s, out, d, story, ch, hopens, hs, hwrite, hopen⟩ | ⟨hfails, out, message, hopen⟩ :=
    openPlay_cases hsave now entropy disk
  · refine .inr ⟨s, hopens.not_fails hwrite, hopens, fun lines => ?_⟩
    rw [play, hopen]
    exact playLines_mirrors hsave hs hopens.shown hwrite out lines
  · refine .inl ⟨hfails, fun lines => ?_⟩
    rw [play, hopen]
    exact ⟨rfl, rfl⟩

/-- A game that cannot be begun ends with an error and touches no file. Any other ends well, and then
the save file holds the progress that the lines before the first `quit` lead to, the scene shown last
belongs to it, and nothing else has changed on the disk. No line that is skipped changes the progress or
the file. -/
theorem run_mirrors {arguments : List String}
    (hplay : Arguments.request? arguments = some (.play options)) (hsave : options.save = some path)
    (now : Instant) (entropy : UInt64) (disk : Disk) (input : String) :
    let o := run now entropy disk input arguments
    (FailsToStart disk options path → o.code = 1 ∧ o.disk = disk) ∧
    (¬FailsToStart disk options path → ∃ opening, Opens entropy disk options path opening ∧
      let last := opening.followAll (linesOf input)
      o.code = 0 ∧ last.Shown ∧ disk.write path (last.game.save now) = .ok o.disk ∧
      o.disk.read path = .ok (last.game.save now) ∧
      ∀ before line, (opening.followAll before).Skipped line →
        (opening.followAll (before ++ [line])).game.progress =
          (opening.followAll before).game.progress ∧
        (play now entropy disk options (before ++ [line])).disk =
          (play now entropy disk options before).disk) := by
  intro o
  have ho : o = play now entropy disk options (linesOf input) := by
    simp only [o, run, hplay]
  rw [ho]
  obtain ⟨hfails, hall⟩ | ⟨opening, hstarts, hopens, hall⟩ := play_mirrors hsave now entropy disk
  · exact ⟨fun _ => hall _, fun h => absurd hfails h⟩
  · obtain ⟨hcode, hshown, hwrite⟩ := hall (linesOf input)
    refine ⟨fun h => absurd h hstarts, fun _ => ⟨opening, hopens, hcode, hshown, hwrite,
      Disk.read_write hwrite, fun before line hskipped => ?_⟩⟩
    have hprogress : (opening.followAll (before ++ [line])).game.progress =
        (opening.followAll before).game.progress := by
      rcases opening.followAll_one before line with hsame | hfollow
      · rw [hsame]
      · obtain ⟨g, hg⟩ := hskipped.follow_eq
        rw [hfollow, hg]
    have hfile := (hall (before ++ [line])).2.2
    rw [save, hprogress] at hfile
    exact ⟨hprogress, Except.ok.inj (hfile.symm.trans (hall before).2.2)⟩

/-- The text of a story with a gate and a yard behind it. -/
def walkText : String :=
  let into := Json.object [("id", .text "in"), ("text", .text "Go in"), ("target", .text "yard")]
  let gate := Json.object [("choices", .array [into])]
  let nodes := Json.object [("gate", gate), ("yard", .object [("ending", .flag true)])]
  (Json.object [("start_node", .text "gate"), ("nodes", nodes)]).toText

theorem ofText_walkText : Story.ofText walkText = .ok walk := by
  rw [Story.ofText, walkText, Json.ofText?_toText]
  rfl

def shelf : Disk := ⟨Dictionary.ofList [("walk.json", walkText)], []⟩

def walkOptions : PlayOptions := ⟨"walk.json", some "save.json", none, some 7, false⟩

def walkGame : Playthrough := begun walk { seed := some 7 } walk.opening "gate" gate (.ofSeed 7)

theorem opens_shelf {s : Session} : Opens 0 shelf walkOptions "save.json" s ↔
    s = ⟨walkGame.view.2, (walkGame.sceneOf gate).1⟩ := by
  have habsent : shelf.isPresent "save.json" = false := rfl
  have hstory : shelf.read walkOptions.story = .ok walkText := rfl
  have hsettings : loadSettings shelf walkOptions = .ok { seed := some 7 } := rfl
  have hgame : start walk none { seed := some 7 } (.ofSeed 7) = .ok walkGame := start_of_some rfl
  have hview : walkGame.view = (.ok (walkGame.sceneOf gate).1, walkGame.view.2) := rfl
  constructor
  · intro h
    cases h with
    | anew hstory' hread hsettings' _ hgame' hview' =>
      cases hstory.symm.trans hstory'
      cases ofText_walkText.symm.trans hread
      cases hsettings.symm.trans hsettings'
      cases hgame.symm.trans hgame'
      cases hview.symm.trans hview'
      rfl
    | resumed _ _ _ hsave => cases (isPresent_of_read hsave).symm.trans habsent
  · rintro rfl
    exact .anew hstory ofText_walkText hsettings habsent hgame hview

theorem run_mirrors_walk :
    let arguments := ["play", "--seed", "7", "walk.json", "-s", "save.json"]
    let o := run .epoch 0 shelf "hello\n1\nquit\n1\n" arguments
    Arguments.request? arguments = some (.play walkOptions) ∧
      ¬FailsToStart shelf walkOptions "save.json" ∧ o.code = 0 ∧
      ∃ t : Playthrough, t.progress.history = ["gate", "yard"] ∧
        o.disk.read "save.json" = .ok (t.save .epoch) := by
  intro arguments o
  have hplay : Arguments.request? arguments = some (.play walkOptions) := by decide +kernel
  have hwrite : shelf.write "save.json" "" = .ok _ := rfl
  have hstarts : ¬FailsToStart shelf walkOptions "save.json" := (opens_shelf.mpr rfl).not_fails hwrite
  obtain ⟨opening, hopens, hcode, -, -, hread, -⟩ :=
    (run_mirrors hplay rfl .epoch 0 shelf "hello\n1\nquit\n1\n").2 hstarts
  obtain rfl := opens_shelf.mp hopens
  exact ⟨hplay, hstarts, hcode, _, by rfl, hread⟩

end Playing

end Program

end Gamebook
