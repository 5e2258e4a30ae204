import Gamebook.Proofs.Events

namespace Gamebook

theorem Choice.consequence_achievements (c : Choice) (target : Node) (p : Progress) :
    (c.consequence target p).achievements = p.achievements ++ fresh p.achievements
      (Effects.unlocksOf c.effects ++ Effects.unlocksOf target.effects) := by
  rw [consequence, Effects.applied_achievements, Progress.visit, Effects.applied_achievements,
    Cost.paid_achievements, List.append_assoc, ← fresh_append]

namespace Story

variable {s : Story} {settings : Settings} {p next : Progress} {d : Deed} {m : Move}

/-- A deed adds to the progress what its move tells. -/
theorem after?_posted (hp : s.after? p d = some next) (hm : s.move? settings p d = some m) :
    next.history = (s.base p d).history ++ m.entered ∧
      next.achievements = (s.base p d).achievements ++ m.unlocked := by
  have htells := move?_tells hm
  have hentered := htells.entered
  obtain ⟨n, hn, hquiet⟩ := htells
  rw [hentered, m.unlocked_eq_quiet, hquiet, news_unlocked]
  cases d with
  | choose id =>
    obtain ⟨node, hnode, hp⟩ := Option.bind_eq_some_iff.mp hp
    obtain ⟨c, hc, hp⟩ := Option.bind_eq_some_iff.mp hp
    obtain ⟨target, ht, hp⟩ := Option.bind_eq_some_iff.mp hp
    have hmove : m.destination = c.target := by
      simp only [move?, hnode, hc, ht, Option.bind_eq_bind, Option.bind_some] at hm
      cases hm
      rfl
    obtain rfl : target = n := Option.some.inj ((hmove ▸ ht).symm.trans hn)
    have heffects : s.effectsOf p (.choose id) = c.effects := by simp [effectsOf, hnode, hc]
    cases hp
    rw [heffects, Choice.consequence_achievements]
    exact ⟨by rw [hmove]; exact c.consequence_history target p, rfl⟩
  | reset =>
    obtain ⟨target, ht, hp⟩ := Option.bind_eq_some_iff.mp hp
    obtain ⟨target', ht', hm⟩ := Option.bind_eq_some_iff.mp hm
    cases hp; cases hm
    obtain rfl : target = n := Option.some.inj (ht.symm.trans hn)
    exact ⟨Effects.applied_history _ _, Effects.applied_achievements _ _⟩
  | resume chosen =>
    obtain ⟨values, hv, hp⟩ := Option.bind_eq_some_iff.mp hp
    obtain ⟨target, ht, hp⟩ := Option.bind_eq_some_iff.mp hp
    obtain ⟨values', hv', hm⟩ := Option.bind_eq_some_iff.mp hm
    obtain ⟨target', ht', hm⟩ := Option.bind_eq_some_iff.mp hm
    cases hp; cases hm
    obtain rfl : target = n := Option.some.inj (ht.symm.trans hn)
    exact ⟨Effects.applied_history _ _, Effects.applied_achievements _ _⟩

end Story

/-- What was visited and held before, and the moves since then. -/
structure Ledger where
  history : List String
  achievements : List String
  moves : List Move

namespace Ledger

def add (l : Ledger) (m : Move) : Ledger := { l with moves := l.moves ++ [m] }

/-- A reset opens a new ledger, in which nothing stands but its own move. -/
def post (l : Ledger) (d : Deed) (m : Move) : Ledger :=
  match d with
  | .reset => add ⟨[], [], []⟩ m
  | _ => l.add m

def postAll (l : Ledger) (done : List (Deed × Move)) : Ledger :=
  done.foldl (fun l e => l.post e.1 e.2) l

theorem postAll_append (l : Ledger) (ds es : List (Deed × Move)) :
    l.postAll (ds ++ es) = (l.postAll ds).postAll es := List.foldl_append

/-- Without a reset all moves stand in one ledger. -/
theorem postAll_of_no_reset (l : Ledger) {done : List (Deed × Move)}
    (h : .reset ∉ done.map Prod.fst) :
    l.postAll done = { l with moves := l.moves ++ done.map Prod.snd } := by
  induction done generalizing l with
  | nil => simp [postAll]
  | cons e done ih =>
    obtain ⟨d, m⟩ := e
    obtain ⟨hd, hdone⟩ := not_or.mp (mt List.mem_cons.mpr h)
    have hpost : l.post d m = l.add m := by
      cases d with
      | reset => exact absurd rfl hd
      | _ => rfl
    have hrest := ih (l.add m) hdone
    change (l.post d m).postAll done = _
    rw [hpost, hrest]
    simp [add]

theorem postAll_nodup {l : Ledger} (h : l.achievements.Nodup) (done : List (Deed × Move)) :
    (l.postAll done).achievements.Nodup := by
  induction done generalizing l with
  | nil => exact h
  | cons e done ih =>
    refine ih (l := l.post e.1 e.2) ?_
    cases e.1 with
    | reset => exact List.nodup_nil
    | _ => exact h

/-- The ledger agrees with the progress that the player has made. -/
structure Balances (l : Ledger) (story : Story) (p : Progress) : Prop where
  history : p.history = l.history ++ l.moves.flatMap Move.entered
  achievements : p.achievements = l.achievements ++ l.moves.flatMap Move.unlocked
  entered : ∀ m ∈ l.moves, m.entered = [m.destination]
  named : ∀ m ∈ l.moves, ∀ id name, .achievementUnlocked id name ∈ m.events → story.Named id name
  once : (l.moves.flatMap Move.unlocked).Nodup
  new : ∀ id ∈ l.moves.flatMap Move.unlocked, id ∉ l.achievements

namespace Balances

variable {l : Ledger} {story : Story} {settings : Settings} {p next : Progress} {m : Move}

theorem opened (story : Story) (p : Progress) :
    (Ledger.mk p.history p.achievements []).Balances story p where
  history := by simp
  achievements := by simp
  entered := by simp
  named := by simp
  once := List.nodup_nil
  new := by simp

theorem add (h : l.Balances story p) {chosen : Option Effects}
    (ht : m.Tells story p.achievements chosen)
    (hhistory : next.history = p.history ++ m.entered)
    (hachievements : next.achievements = p.achievements ++ m.unlocked) :
    (l.add m).Balances story next := by
  obtain ⟨ids, hids⟩ := ht.unlocked
  have hnew : ∀ id ∈ m.unlocked, id ∉ p.achievements := fun id hid =>
    notMem_of_mem_fresh (hids ▸ hid)
  rw [h.achievements] at hnew
  refine ⟨?_, ?_, ?_, ?_, ?_, ?_⟩
  · simp [hhistory, h.history, Ledger.add]
  · simp [hachievements, h.achievements, Ledger.add]
  · exact List.forall_mem_append.mpr ⟨h.entered, by simpa using ht.entered⟩
  · exact List.forall_mem_append.mpr ⟨h.named, by simpa using fun id name => ht.named⟩
  · simp only [Ledger.add, List.flatMap_append, List.flatMap_singleton, List.nodup_append]
    refine ⟨h.once, hids ▸ fresh_nodup _ _, fun id hid id' hid' heq => ?_⟩
    exact hnew id' hid' (List.mem_append_right _ (heq ▸ hid))
  · simp only [Ledger.add, List.flatMap_append, List.flatMap_singleton]
    refine List.forall_mem_append.mpr ⟨h.new, fun id hid hheld => ?_⟩
    exact hnew id hid (List.mem_append_left _ hheld)

theorem post (h : l.Balances story p) {d : Deed} (hp : story.after? p d = some next)
    (hm : story.move? settings p d = some m) : (l.post d m).Balances story next := by
  obtain ⟨hhistory, hachievements⟩ := Story.after?_posted hp hm
  have htells := Story.move?_tells hm
  cases d with
  | reset => exact (opened story story.opening).add htells hhistory hachievements
  | _ => exact h.add htells hhistory hachievements

theorem nodup (h : l.Balances story p) (hl : l.achievements.Nodup) : p.achievements.Nodup := by
  rw [h.achievements, List.nodup_append]
  exact ⟨hl, h.once, fun id hheld id' hid heq => h.new id' hid (heq ▸ hheld)⟩

end Balances

end Ledger

namespace Playthrough

variable {story : Story} {settings : Settings} {g : Generator}

theorem begun_quiet (p : Progress) (id : String) (n : Node) :
    (begun story settings p id n g).last.quiet = story.news p.achievements none id n :=
  Move.quiet_eq_news (entryEvents_eq story settings id n p)

theorem begun_tells {id : String} {n : Node} (hn : story.nodes.get? id = some n) (p : Progress) :
    (begun story settings p id n g).last.Tells story p.achievements none :=
  ⟨n, hn, begun_quiet p id n⟩

theorem begun_achievements (p : Progress) (id : String) (n : Node) :
    (begun story settings p id n g).progress.achievements =
      p.achievements ++ (begun story settings p id n g).last.unlocked := by
  rw [Move.unlocked_eq_quiet, begun_quiet, Story.news_unlocked]
  exact Effects.applied_achievements n.effects (p.visit id)

/-- One call keeps the ledger balanced, whether what it asks for is done or not. -/
theorem balances_perform {l : Ledger} {t : Playthrough} (h : l.Balances t.story t.progress)
    (c : Call) :
    (t.perform c).2.story = t.story ∧
      (l.postAll (deedsDone [c] [(t.perform c).1])).Balances t.story (t.perform c).2.progress := by
  rw [deedsDone_cons]
  cases hd : c.deed? with
  | none =>
    obtain ⟨g, hg⟩ := perform_of_no_deed (t := t) hd
    rw [hg]
    exact ⟨rfl, h⟩
  | some d =>
    have hdoing := doing_perform (t := t) hd
    generalize (t.perform c).1 = a at *
    generalize (t.perform c).2 = next at *
    cases hdoing with
    | hindered g hf => exact ⟨rfl, h⟩
    | done g hf hp hm => exact ⟨rfl, h.post hp hm⟩

theorem balances_run {l : Ledger} {t : Playthrough} (h : l.Balances t.story t.progress)
    (calls : List Call) :
    (t.run calls).2.story = t.story ∧
      (l.postAll (deedsDone calls (t.run calls).1)).Balances t.story (t.run calls).2.progress := by
  induction calls generalizing l t with
  | nil => exact ⟨rfl, h⟩
  | cons c cs ih =>
    obtain ⟨hstory, hnext⟩ := balances_perform h c
    rw [← hstory] at hnext
    obtain ⟨hstory', hlast⟩ := ih hnext
    rw [run, deedsDone_split, Ledger.postAll_append, ← hstory]
    exact ⟨hstory', hlast⟩

theorem balances_start {saved : Option Progress} {t₀ : Playthrough}
    (h : start story saved settings g = .ok t₀) :
    t₀.story = story ∧ t₀.last.Tells story (saved.getD story.opening).achievements none ∧
      Ledger.Balances ⟨(saved.getD story.opening).history, (saved.getD story.opening).achievements,
        [t₀.last]⟩ story t₀.progress := by
  obtain ⟨n, hn, rfl⟩ := start_eq_ok_iff.mp h
  have htells : (begun story settings (saved.getD story.opening) _ n g).last.Tells story _ none :=
    begun_tells hn _
  refine ⟨rfl, htells, (Ledger.Balances.opened story (saved.getD story.opening)).add htells ?_ ?_⟩
  · rw [begun_history, htells.entered]
    rfl
  · exact begun_achievements ..

/-- A reset opens a ledger of its own. -/
theorem balances_reset {t : Playthrough} {m : Move} (hm : t.reset.1 = .ok m) :
    Ledger.Balances ⟨[], [], [m]⟩ t.story t.reset.2.progress := by
  have hb := (balances_perform (.opened t.story t.progress) .reset).2
  simp only [perform, hm] at hb
  exact hb

/-- What was unlocked stays unlocked until a reset. -/
theorem run_unlocked (t : Playthrough) {calls : List Call}
    (hreset : .reset ∉ (deedsDone calls (t.run calls).1).map Prod.fst) {id : String}
    (h : id ∈ t.progress.achievements) : id ∈ (t.run calls).2.progress.achievements := by
  have hb := (balances_run (.opened t.story t.progress) calls).2
  rw [Ledger.postAll_of_no_reset _ hreset] at hb
  rw [hb.achievements]
  exact List.mem_append_left _ h

/-- The moves of a game are a complete ledger of it. The history and the achievements are the ones that
were there when the game began and what the moves tell since then, or since the last reset what they tell
from nothing on. A move tells what its choice unlocks, then the one node that it enters, then what that
node unlocks, each achievement under its name and never twice. -/
theorem run_ledger {saved : Option Progress} {t₀ : Playthrough}
    (h : start story saved settings g = .ok t₀) (calls : List Call) :
    let p₀ := saved.getD story.opening
    let t := (t₀.run calls).2
    let done := deedsDone calls (t₀.run calls).1
    let ledger := Ledger.postAll ⟨p₀.history, p₀.achievements, [t₀.last]⟩ done
    ledger.Balances story t.progress ∧
    (.reset ∉ done.map Prod.fst →
      ledger = ⟨p₀.history, p₀.achievements, t₀.last :: done.map Prod.snd⟩) ∧
    t₀.last.Tells story p₀.achievements none ∧
    (∀ c d m, c.deed? = some d → (t.perform c).1.move? = some m →
      m.Tells story (story.base t.progress d).achievements (story.effectsOf t.progress d)) ∧
    (∀ m, t.reset.1 = .ok m → t.reset.2.progress.history = m.entered ∧
      t.reset.2.progress.achievements = m.unlocked) ∧
    (p₀.achievements.Nodup → t.progress.achievements.Nodup) ∧
    (∀ more id g₁ g₂, .reset ∉ (deedsDone more (t.run more).1).map Prod.fst →
      ((Condition.unlocked id).evaluate t.progress g₁).1 = true →
      ((Condition.unlocked id).evaluate (t.run more).2.progress g₂).1 = true) := by
  intro p₀ t done ledger
  obtain ⟨hstory₀, hopening, hb₀⟩ := balances_start h
  rw [← hstory₀] at hb₀
  obtain ⟨hstory, hb⟩ := balances_run hb₀ calls
  obtain rfl : t.story = story := hstory.trans hstory₀
  rw [hstory₀] at hb
  refine ⟨hb, fun hreset => Ledger.postAll_of_no_reset _ hreset, hopening, ?_, ?_, ?_, ?_⟩
  · intro c d m hd hm
    exact Story.move?_tells (move?_of_perform hd hm)
  · intro m hm
    have hreset := balances_reset hm
    exact ⟨by simpa using hreset.history, by simpa using hreset.achievements⟩
  · intro hnodup
    exact hb.nodup (Ledger.postAll_nodup hnodup done)
  · intro more id g₁ g₂ hreset hpassed
    have hheld : id ∈ t.progress.achievements := by
      simpa [Condition.evaluate, Progress.hasAchievement] using hpassed
    simpa [Condition.evaluate, Progress.hasAchievement] using run_unlocked t hreset hheld

/-- To go ashore is an achievement with a name, and so is to put to sea again and again, but without
one. -/
def quay : Node :=
  ⟨"quay", none, ⟨"", none, none⟩,
    [⟨"sail", "Put to sea", "sea", ⟨[], []⟩,
      some ⟨.empty, .empty, [], [], ["sailor", "landfall", "sailor"]⟩, none⟩],
    some ⟨.empty, .empty, [], [], ["landfall"]⟩, false⟩

def sea : Node :=
  ⟨"sea", none, ⟨"", none, none⟩, [⟨"land", "Go ashore", "quay", ⟨[], []⟩, none, none⟩],
    some ⟨.empty, .empty, [], [], ["storm"]⟩, false⟩

def voyage : Story :=
  ⟨"quay", (Dictionary.empty.insert "quay" quay).insert "sea" sea, .empty,
    (Dictionary.empty.insert "landfall" ⟨"Landfall", none, none⟩).insert "sailor" ⟨"", none, none⟩,
    .empty, .empty⟩

theorem run_ledger_voyage : ∃ t₀, start voyage none {} (.ofSeed 7) = .ok t₀ ∧
    t₀.last.entered = ["quay"] ∧
    (t₀.run [.choose "sail", .choose "swim", .choose "land", .choose "sail"]).2.progress.history =
      ["quay", "sea", "quay", "sea"] ∧
    (t₀.run [.choose "sail", .choose "swim", .choose "land", .choose "sail"]).2.progress.achievements =
      ["landfall", "sailor", "storm"] := by
  have h : start voyage none {} (.ofSeed 7) =
      .ok (begun voyage {} voyage.opening "quay" quay (.ofSeed 7)) :=
    start_of_some rfl
  have hledger := run_ledger h [.choose "sail", .choose "swim", .choose "land", .choose "sail"]
  exact ⟨_, h, (run_ledger h []).1.entered _ (by decide +kernel), hledger.1.history,
    hledger.1.achievements⟩

end Playthrough

end Gamebook
