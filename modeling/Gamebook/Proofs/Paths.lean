import Mathlib.Data.List.Nodup
import Mathlib.Logic.Relation
import Gamebook.Proofs.Dictionary
import Gamebook.Proofs.Lint

namespace Gamebook

namespace Story

/-- A choice of the one node leads to the other, which need not exist. -/
def Leads (s : Story) (a b : String) : Prop :=
  ∃ n, s.nodes.get? a = some n ∧ ∃ c ∈ n.choices, c.target = b

/-- Finitely many choices lead from the one node to the other, or it is the same. -/
def Reaches (s : Story) : String → String → Prop := Relation.ReflTransGen s.Leads

end Story

namespace Lint

/-- A search under way: the nodes that were looked at and the ids that wait. -/
structure Search where
  seen : List String
  waiting : List String

namespace Search

/-- One id is looked at. It is dropped if it was seen before or is no node; the targets of a new node
wait behind all others. -/
def next (s : Story) (q : Search) : Search :=
  match q.waiting with
  | [] => q
  | id :: rest =>
    match s.nodes.get? id with
    | none => ⟨q.seen, rest⟩
    | some n =>
      if id ∈ q.seen then ⟨q.seen, rest⟩ else ⟨id :: q.seen, rest ++ n.choices.map (·.target)⟩

/-- What can become of a search when one id is looked at. -/
inductive Looks (s : Story) : Search → Search → Prop
  | done (seen : List String) : Looks s ⟨seen, []⟩ ⟨seen, []⟩
  | dropped {seen rest : List String} {id : String}
    (h : s.nodes.get? id = none ∨ id ∈ seen) : Looks s ⟨seen, id :: rest⟩ ⟨seen, rest⟩
  | found {seen rest : List String} {id : String} {n : Node} (hn : s.nodes.get? id = some n)
    (hnew : id ∉ seen) :
    Looks s ⟨seen, id :: rest⟩ ⟨id :: seen, rest ++ n.choices.map (·.target)⟩

theorem looks_next (s : Story) (q : Search) : Looks s q (q.next s) := by
  obtain ⟨seen, waiting⟩ := q
  cases waiting with
  | nil => exact .done seen
  | cons id rest =>
    simp only [next]
    split
    next hn => exact .dropped (.inl hn)
    next n hn =>
      split
      next hseen => exact .dropped (.inr hseen)
      next hnew => exact .found hn hnew

section Work

variable {s : Story}

/-- How many ids wait when the node of an id is looked at. -/
def fanOut (s : Story) (id : String) : Nat := (s.nodes.get? id).elim 0 fun n => n.choices.length

/-- The ids that wait and all that may still come to wait. -/
def work (s : Story) (q : Search) : Nat :=
  q.waiting.length + ((unseen s q.seen).map (fanOut s)).sum

theorem unseen_perm {seen : List String} {id : String} {n : Node} (hn : s.nodes.get? id = some n)
    (hnew : id ∉ seen) : (unseen s seen).Perm (id :: unseen s (id :: seen)) := by
  have hmem : id ∈ unseen s seen :=
    List.mem_filter.mpr ⟨Dictionary.mem_names_iff.mpr (by simp [hn]), by simpa using hnew⟩
  have hnodup : (unseen s seen).Nodup := s.nodes.entries_nodup.filter _
  have herase : (unseen s seen).erase id = unseen s (id :: seen) := by
    rw [hnodup.erase_eq_filter, unseen, List.filter_filter, unseen]
    refine List.filter_congr fun other _ => ?_
    simp [bne, beq_eq_decide]
  rw [← herase]
  exact List.perm_cons_erase hmem

/-- Every look takes one from the work. -/
theorem work_next {q : Search} (h : q.waiting ≠ []) : q.work s = (q.next s).work s + 1 := by
  have hlooks := looks_next s q
  generalize q.next s = r at hlooks ⊢
  cases hlooks with
  | done => exact absurd rfl h
  | dropped => simp only [work, List.length_cons]; omega
  | found hn hnew =>
    have hsum := ((unseen_perm hn hnew).map (fanOut s)).sum_eq
    simp only [work, List.length_cons, List.length_append, List.length_map, hsum, List.map_cons,
      List.sum_cons, fanOut, hn, Option.elim_some]
    omega

theorem explore_next (q : Search) :
    explore s (q.next s).seen (q.next s).waiting = explore s q.seen q.waiting := by
  have hlooks := looks_next s q
  generalize q.next s = r at hlooks ⊢
  cases hlooks with
  | done => rfl
  | dropped h =>
    conv => rhs; rw [explore]
    split
    next => rfl
    next n hn => rw [dif_pos (by simpa [hn] using h)]
  | found hn hnew =>
    conv => rhs; rw [explore]
    split
    next hnone => cases hn.symm.trans hnone
    next m hm =>
      cases hn.symm.trans hm
      rw [dif_neg (by simpa using hnew)]

/-- Once all the work is done nothing waits, and what was seen is what is explored. -/
theorem next_iterate_work (q : Search) :
    (next s)^[q.work s] q = ⟨explore s q.seen q.waiting, []⟩ := by
  induction hw : q.work s generalizing q with
  | zero =>
    obtain ⟨seen, waiting⟩ := q
    obtain rfl : waiting = [] := List.length_eq_zero_iff.mp (by simp only [work] at hw; omega)
    rw [explore]
    rfl
  | succ k ih =>
    by_cases h : q.waiting = []
    · obtain ⟨seen, waiting⟩ := q
      obtain rfl : waiting = [] := h
      rw [Function.iterate_fixed rfl, explore]
    · rw [Function.iterate_succ_apply, ih (q.next s) (by have := work_next (s := s) h; omega),
        explore_next]

end Work

section Invariant

variable {s : Story} {q : Search}

/-- An id that was found or still waits. -/
def Notes (q : Search) (id : String) : Prop := id ∈ q.seen ∨ id ∈ q.waiting

/-- What is noted can be reached, and what choices lead to from a node that was seen is noted if it is
a node. -/
structure Sound (s : Story) (q : Search) : Prop where
  defined : ∀ id ∈ q.seen, s.nodes.contains id = true
  once : q.seen.Nodup
  reached : ∀ id, q.Notes id → s.Reaches s.start id
  begun : s.nodes.contains s.start = true → q.Notes s.start
  closed : ∀ a ∈ q.seen, ∀ b, s.Leads a b → s.nodes.contains b = true → q.Notes b

theorem sound_begun (s : Story) : Sound s ⟨[], [s.start]⟩ where
  defined := by simp
  once := List.nodup_nil
  reached := by
    intro id h
    obtain rfl : id = s.start := by simpa [Notes] using h
    exact .refl
  begun := by simp [Notes]
  closed := by simp

/-- Only what is no node is ever dropped without having been seen. -/
theorem Notes.next {id : String} (h : q.Notes id) (hid : s.nodes.contains id = true) :
    (q.next s).Notes id := by
  have hlooks := looks_next s q
  generalize q.next s = r at hlooks ⊢
  cases hlooks with
  | done => exact h
  | @dropped seen rest first hdropped =>
    rcases h with hseen | hwaiting
    · exact .inl hseen
    · rcases List.mem_cons.mp hwaiting with rfl | hrest
      · have hnone : s.nodes.get? id ≠ none := Option.isSome_iff_ne_none.mp hid
        exact .inl (hdropped.resolve_left hnone)
      · exact .inr hrest
  | found =>
    rcases h with hseen | hwaiting
    · exact .inl (List.mem_cons_of_mem _ hseen)
    · rcases List.mem_cons.mp hwaiting with rfl | hrest
      · exact .inl List.mem_cons_self
      · exact .inr (List.mem_append_left _ hrest)

theorem Sound.next (hq : Sound s q) : Sound s (q.next s) := by
  have hnotes : ∀ id, q.Notes id → s.nodes.contains id = true → (q.next s).Notes id :=
    fun id h hid => h.next hid
  have hlooks := looks_next s q
  generalize q.next s = r at hnotes hlooks ⊢
  cases hlooks with
  | done => exact hq
  | dropped =>
    refine ⟨hq.defined, hq.once, fun id h => hq.reached id ?_, fun hstart => ?_, ?_⟩
    · exact h.imp_right (List.mem_cons_of_mem _)
    · exact hnotes _ (hq.begun hstart) hstart
    · intro a ha b hb hdefined
      exact hnotes b (hq.closed a ha b hb hdefined) hdefined
  | @found seen rest id n hn hnew =>
    have hreached : s.Reaches s.start id := hq.reached id (.inr List.mem_cons_self)
    refine ⟨?_, List.nodup_cons.mpr ⟨hnew, hq.once⟩, ?_, fun hstart => ?_, ?_⟩
    · refine List.forall_mem_cons.mpr ⟨?_, hq.defined⟩
      simp [Dictionary.contains, hn]
    · intro other h
      rcases h with hseen | hwaiting
      · rcases List.mem_cons.mp hseen with rfl | hseen
        · exact hreached
        · exact hq.reached other (.inl hseen)
      · rcases List.mem_append.mp hwaiting with hrest | htarget
        · exact hq.reached other (.inr (List.mem_cons_of_mem _ hrest))
        · obtain ⟨c, hc, rfl⟩ := List.mem_map.mp htarget
          exact hreached.tail ⟨n, hn, c, hc, rfl⟩
    · exact hnotes _ (hq.begun hstart) hstart
    · intro a ha b hb hdefined
      rcases List.mem_cons.mp ha with rfl | ha
      · obtain ⟨m, hm, c, hc, rfl⟩ := hb
        cases hn.symm.trans hm
        exact .inr (List.mem_append_right _ (List.mem_map_of_mem hc))
      · exact hnotes b (hq.closed a ha b hb hdefined) hdefined

theorem Sound.iterate (hq : Sound s q) (k : Nat) : Sound s ((Search.next s)^[k] q) := by
  induction k generalizing q with
  | zero => exact hq
  | succ k ih => exact ih hq.next

/-- A search in which nothing waits has found all nodes that can be reached. -/
theorem Sound.mem_iff {seen : List String} (hq : Sound s ⟨seen, []⟩) (id : String) :
    id ∈ seen ↔ s.nodes.contains id = true ∧ s.Reaches s.start id := by
  have hnoted : ∀ b, Notes ⟨seen, []⟩ b → b ∈ seen := fun b h => h.resolve_right List.not_mem_nil
  constructor
  · intro h
    exact ⟨hq.defined id h, hq.reached id (.inl h)⟩
  · rintro ⟨hdefined, hreached⟩
    induction hreached with
    | refl => exact hnoted _ (hq.begun hdefined)
    | @tail a b _ hleads ih =>
      have ⟨n, hn, _⟩ := hleads
      have ha : a ∈ seen := ih (by simp [Dictionary.contains, hn])
      exact hnoted b (hq.closed a ha b hleads hdefined)

end Invariant

end Search

variable (s : Story)

/-- All choices of a story. -/
def choiceCount : Nat := (s.nodes.values.map fun n => n.choices.length).sum

theorem work_begun : Search.work s ⟨[], [s.start]⟩ = choiceCount s + 1 := by
  have hfan : s.nodes.names.map (Search.fanOut s) =
      s.nodes.values.map fun n => n.choices.length := by
    rw [Dictionary.names, Dictionary.values, List.map_map, List.map_map]
    refine List.map_congr_left fun e he => ?_
    simp [Search.fanOut, Dictionary.get?_eq_some_iff.mpr he]
  have hall : unseen s [] = s.nodes.names := by simp [unseen]
  rw [Search.work, hall, hfan, choiceCount, Nat.add_comm]
  rfl

/-- One look for each choice and one for the start node are enough. -/
theorem search_over :
    (Search.next s)^[choiceCount s + 1] ⟨[], [s.start]⟩ = ⟨reachable s, []⟩ := by
  rw [← work_begun, Search.next_iterate_work]
  rfl

theorem sound_reachable : Search.Sound s ⟨reachable s, []⟩ :=
  search_over s ▸ (Search.sound_begun s).iterate (choiceCount s + 1)

theorem mem_reachable_iff (id : String) :
    id ∈ reachable s ↔ s.nodes.contains id = true ∧ s.Reaches s.start id :=
  (sound_reachable s).mem_iff id

section Report

variable {s : Story} {id start : String}

theorem unreachable_notMem_nodeProblems (n : Node) : .unreachable start ∉ nodeProblems s n := by
  simp [nodeProblems, missingTargets, duplicates, deadEnd, undefinedImage, undefinedAudio,
    undefinedAchievements]

theorem flagged_iff_mem_unreachable :
    ⟨id, .unreachable start⟩ ∈ (report s).issues ↔ ⟨id, .unreachable start⟩ ∈ unreachable s := by
  rw [mem_report_iff]
  refine or_iff_right ?_
  rintro ⟨n, _, p, hp, heq⟩
  cases heq
  exact unreachable_notMem_nodeProblems n hp

theorem flagged_iff : ⟨id, .unreachable start⟩ ∈ (report s).issues ↔
    start = s.start ∧ s.nodes.contains id = true ∧ ¬s.Reaches s.start id := by
  have hname : id ∈ s.nodes.names ↔ s.nodes.contains id = true := Dictionary.mem_names_iff
  rw [flagged_iff_mem_unreachable]
  simp only [unreachable, List.mem_map, List.mem_filter, Issue.mk.injEq, Problem.unreachable.injEq,
    Bool.not_eq_true', List.contains_eq_mem, decide_eq_false_iff_not, mem_reachable_iff]
  grind

theorem unreachable_nodup (s : Story) : (unreachable s).Nodup := by
  refine List.Nodup.map (fun a b h => congrArg Issue.node h) ?_
  exact s.nodes.entries_nodup.filter _

theorem count_flagged (h : ⟨id, .unreachable start⟩ ∈ (report s).issues) :
    (report s).issues.count ⟨id, .unreachable start⟩ = 1 := by
  have hnone : (s.nodes.values.flatMap (nodeIssues s)).count ⟨id, .unreachable start⟩ = 0 := by
    rw [List.count_eq_zero]
    intro hmem
    obtain ⟨n, _, hissue⟩ := List.mem_flatMap.mp hmem
    obtain ⟨p, hp, heq⟩ := List.mem_map.mp hissue
    cases heq
    exact unreachable_notMem_nodeProblems n hp
  rw [report, (List.mergeSort_perm _ _).count_eq, List.count_append, hnone, Nat.zero_add]
  exact List.count_eq_one_of_mem (unreachable_nodup s) (flagged_iff_mem_unreachable.mp h)

end Report

end Lint

namespace Story

/-- The player stands on a node, and has come through nodes, that can be reached. -/
structure Explores (s : Story) (p : Progress) : Prop where
  standing : s.Reaches s.start p.node
  history : ∀ id ∈ p.history, s.Reaches s.start id

theorem Explores.opening (s : Story) : ∀ id ∈ s.opening.history, s.Reaches s.start id := by
  simp [Story.opening, Progress.empty]

theorem explores_visit {s : Story} {p : Progress} {id : String}
    (hp : ∀ id ∈ p.history, s.Reaches s.start id) (hid : s.Reaches s.start id) :
    s.Explores (p.visit id) :=
  ⟨hid, List.forall_mem_append.mpr ⟨hp, by simpa using hid⟩⟩

theorem Explores.applied {s : Story} {p : Progress} (h : s.Explores p) (effects : Option Effects) :
    s.Explores (Effects.applied effects p) :=
  ⟨by simpa using h.standing, by simpa using h.history⟩

theorem Explores.entry {s : Story} {p : Progress} (h : s.Explores p) :
    s.Reaches s.start (s.entry p) := by
  unfold Story.entry
  split
  next => exact .refl
  next => exact h.standing

end Story

namespace Playthrough

variable {story : Story} {settings : Settings} {g : Generator}

theorem Step.explores {t next : Playthrough} {c : Call} {a : Answer} (h : Step t c a next)
    (ht : t.story = story ∧ story.Explores t.progress) :
    next.story = story ∧ story.Explores next.progress := by
  obtain ⟨rfl, ht⟩ := ht
  refine ⟨by cases h <;> rfl, ?_⟩
  cases h with
  | failed => exact ht
  | seen => exact ht
  | @chosen _ node target c _ _ hn _ hc =>
    have hleads : t.story.Leads t.progress.node c.target :=
      ⟨node, currentNode_eq_ok_iff.mp hn, c, hc.mem, rfl⟩
    have hhistory : ∀ id ∈ (Effects.applied c.effects (Cost.paid c.cost t.progress)).history,
        t.story.Reaches t.story.start id := by simpa using ht.history
    exact (Story.explores_visit hhistory (ht.standing.tail hleads)).applied target.effects
  | @reset n =>
    exact (Story.explores_visit (Story.Explores.opening t.story) .refl).applied n.effects
  | @resumed _ _ _ values n =>
    have hhistory : ∀ id ∈ ({ t.progress with values } : Progress).history,
        t.story.Reaches t.story.start id := ht.history
    exact (Story.explores_visit hhistory ht.entry).applied n.effects

/-- A new game keeps to the nodes that can be reached. -/
theorem explores_run {t₀ : Playthrough} (h : start story none settings g = .ok t₀)
    (calls : List Call) : story.Explores (t₀.run calls).2.progress := by
  obtain ⟨n, hn, rfl⟩ := start_eq_ok_iff.mp h
  have hbegun : story.Explores (begun story settings story.opening story.start n g).progress :=
    (Story.explores_visit (Story.Explores.opening story) .refl).applied n.effects
  have hkept := run_keeps (P := fun t => t.story = story ∧ story.Explores t.progress)
    Step.explores ⟨rfl, hbegun⟩ calls
  exact hkept.2

/-- The search for what can be reached comes to an end and finds the nodes to which a path of choices
leads, each once. The nodes that are reported are the others, once each, and no game that begins anew
ever comes to one of them. -/
theorem unreachable_exact (s : Story) :
    (Lint.Search.next s)^[Lint.choiceCount s + 1] ⟨[], [s.start]⟩ = ⟨Lint.reachable s, []⟩ ∧
    (Lint.reachable s).Nodup ∧
    (∀ id, id ∈ Lint.reachable s ↔ s.nodes.contains id = true ∧ s.Reaches s.start id) ∧
    (∀ id start, ⟨id, .unreachable start⟩ ∈ (Lint.report s).issues ↔
      start = s.start ∧ s.nodes.contains id = true ∧ ¬s.Reaches s.start id) ∧
    (∀ id start, ⟨id, .unreachable start⟩ ∈ (Lint.report s).issues →
      (Lint.report s).issues.count ⟨id, .unreachable start⟩ = 1) ∧
    (∀ settings g t₀, start s none settings g = .ok t₀ → ∀ calls : List Call,
      ∀ id ∈ (t₀.run calls).2.progress.history, ∀ start,
        ⟨id, .unreachable start⟩ ∉ (Lint.report s).issues) := by
  refine ⟨Lint.search_over s, (Lint.sound_reachable s).once, Lint.mem_reachable_iff s,
    fun id start => Lint.flagged_iff, fun id start => Lint.count_flagged, ?_⟩
  intro settings g t₀ h calls id hid start hflagged
  exact (Lint.flagged_iff.mp hflagged).2.2 ((explores_run h calls).history id hid)

def way (id target : String) : Choice := ⟨id, "", target, ⟨[], []⟩, none, none⟩

def harbour : Node :=
  ⟨"harbour", none, ⟨"", none, none⟩, [way "row" "reef", way "sail" "cape"], none, false⟩

def cape : Node :=
  ⟨"cape", none, ⟨"", none, none⟩, [way "wait" "cape", way "return" "harbour"], none, false⟩

def islet : Node := ⟨"islet", none, ⟨"", none, none⟩, [way "sail" "harbour"], none, false⟩

/-- There are ways round and round, but none to the islet; and the reef is no node. -/
def bay : Story :=
  ⟨"harbour", ((Dictionary.empty.insert "harbour" harbour).insert "cape" cape).insert "islet" islet,
    .empty, .empty, .empty, .empty⟩

theorem unreachable_exact_bay : ∃ t₀, start bay none {} (.ofSeed 7) = .ok t₀ ∧
    Lint.reachable bay = ["cape", "harbour"] ∧
    (Lint.report bay).issues.count ⟨"islet", .unreachable "harbour"⟩ = 1 ∧
    ∀ id ∈ (t₀.run [.choose "sail", .choose "wait", .choose "return", .choose "row"]).2.progress.history,
      ⟨id, .unreachable "harbour"⟩ ∉ (Lint.report bay).issues := by
  obtain ⟨hover, -, hreachable, hflagged, honce, hplay⟩ := unreachable_exact bay
  have hstart : start bay none {} (.ofSeed 7) =
      .ok (begun bay {} bay.opening "harbour" harbour (.ofSeed 7)) :=
    start_of_some rfl
  have hfound : Lint.reachable bay = ["cape", "harbour"] := by
    have hsearch : (Lint.Search.next bay)^[Lint.choiceCount bay + 1] ⟨[], [bay.start]⟩ =
      ⟨["cape", "harbour"], []⟩ := rfl
    exact congrArg Lint.Search.seen (hover.symm.trans hsearch)
  have hislet : ¬bay.Reaches "harbour" "islet" := by
    intro hreaches
    have hmem := (hreachable "islet").mpr ⟨rfl, hreaches⟩
    rw [hfound] at hmem
    exact absurd hmem (by decide)
  exact ⟨_, hstart, hfound, honce _ _ ((hflagged _ _).mpr ⟨rfl, rfl, hislet⟩),
    fun id hid => hplay {} (.ofSeed 7) _ hstart _ id hid "harbour"⟩

end Playthrough

end Gamebook
