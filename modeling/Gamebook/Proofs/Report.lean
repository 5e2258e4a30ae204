import Gamebook.Proofs.CleanReport
import Gamebook.Proofs.Paths
import Gamebook.Proofs.Provenance
import Gamebook.Proofs.Sorting

namespace Gamebook

namespace Lint

namespace Issue

variable {a b : Issue}

theorem precedes_iff : a.precedes b = true ↔
    (a.severity = .error ∧ b.severity = .warning) ∨ (a.severity = b.severity ∧ a.node ≤ b.node) := by
  unfold precedes
  cases a.severity <;> cases b.severity <;> simp

theorem precedes_trans (a b c : Issue) (hab : a.precedes b = true) (hbc : b.precedes c = true) :
    a.precedes c = true := by
  rw [precedes_iff] at *
  rcases hab with ⟨herror, hb⟩ | ⟨hseverity, hab⟩
  · exact Or.inl ⟨herror, by grind⟩
  · rcases hbc with ⟨herror, hc⟩ | ⟨hseverity', hbc⟩
    · exact Or.inl ⟨hseverity.trans herror, hc⟩
    · exact Or.inr ⟨hseverity.trans hseverity', String.le_trans hab hbc⟩

theorem precedes_total (a b : Issue) : (a.precedes b || b.precedes a) = true := by
  rw [Bool.or_eq_true, precedes_iff, precedes_iff]
  rcases String.le_total a.node b.node with h | h <;>
    cases a.severity <;> cases b.severity <;> simp [h]

theorem tied_precedes_iff :
    tied precedes a b = true ↔ a.severity = b.severity ∧ a.node = b.node := by
  have hnode : a.node = b.node ↔ a.node ≤ b.node ∧ b.node ≤ a.node :=
    ⟨fun h => ⟨h ▸ String.le_refl _, h ▸ String.le_refl _⟩, fun h => String.le_antisymm h.1 h.2⟩
  rw [tied_iff, precedes_iff, precedes_iff, hnode]
  cases a.severity <;> cases b.severity <;> simp

end Issue

section Walk

variable {names order : List String} {f g errors warnings : String → List Issue}

/-- What is found at a node bears its name. -/
def Local (f : String → List Issue) : Prop := ∀ id, ∀ i ∈ f id, i.node = id

theorem filter_tied_walk (hf : Local f) (h : order.Nodup) (a : Issue) :
    (order.flatMap f).filter (tied Issue.precedes a) =
      if a.node ∈ order then (f a.node).filter fun i => a.severity = i.severity else [] := by
  induction order with
  | nil => simp
  | cons id order ih =>
    obtain ⟨hid, hnodup⟩ := List.nodup_cons.mp h
    rw [List.flatMap_cons, List.filter_append, ih hnodup]
    by_cases hnode : a.node = id
    · subst hnode
      rw [if_neg hid, List.append_nil, if_pos List.mem_cons_self]
      refine List.filter_congr fun i hi => ?_
      rw [Bool.eq_iff_iff, Issue.tied_precedes_iff, hf _ i hi]
      simp
    · have hnone : (f id).filter (tied Issue.precedes a) = [] := by
        refine List.filter_eq_nil_iff.mpr fun i hi htied => hnode ?_
        exact (Issue.tied_precedes_iff.mp htied).2.trans (hf id i hi)
      simp [hnone, hnode]

theorem ascending_walk (hf : Local f) (h : names.Pairwise (· < ·)) :
    (names.flatMap f).Pairwise fun a b => a.node ≤ b.node := by
  refine List.pairwise_flatMap.mpr ⟨fun id _ => ?_, h.imp fun hlt a ha b hb => ?_⟩
  · refine List.pairwise_of_forall_mem_list fun a ha b hb => ?_
    have hsame : a.node = b.node := (hf id a ha).trans (hf id b hb).symm
    exact hsame ▸ String.le_refl a.node
  · rw [hf _ a ha, hf _ b hb]
    exact Std.le_of_lt hlt

/-- In which order the nodes are walked through does not show, nor does it when a problem of a node is
found: the errors come first and then the warnings, both as the names ascend. -/
theorem sorted_walk (horder : order.Perm names) (hnames : names.Pairwise (· < ·)) (hf : Local f)
    (hg : Local g) (herrors : Local errors) (hwarnings : Local warnings)
    (herror : ∀ i ∈ names.flatMap errors, i.severity = .error)
    (hwarning : ∀ i ∈ names.flatMap warnings, i.severity = .warning)
    (hsame : ∀ id ∈ names, f id ++ g id = errors id ++ warnings id) :
    (order.flatMap f ++ order.flatMap g).mergeSort Issue.precedes =
      names.flatMap errors ++ names.flatMap warnings := by
  have hnodup : names.Nodup := hnames.imp String.ne_of_lt
  refine mergeSort_eq Issue.precedes_trans Issue.precedes_total ?_ fun a => ?_
  · refine List.pairwise_append.mpr ⟨?_, ?_, fun a ha b hb => ?_⟩
    · refine (ascending_walk herrors hnames).imp_of_mem fun {a b} ha hb hle => ?_
      exact Issue.precedes_iff.mpr (Or.inr ⟨(herror a ha).trans (herror b hb).symm, hle⟩)
    · refine (ascending_walk hwarnings hnames).imp_of_mem fun {a b} ha hb hle => ?_
      exact Issue.precedes_iff.mpr (Or.inr ⟨(hwarning a ha).trans (hwarning b hb).symm, hle⟩)
    · exact Issue.precedes_iff.mpr (Or.inl ⟨herror a ha, hwarning b hb⟩)
  · simp only [List.filter_append, filter_tied_walk hf (horder.nodup_iff.mpr hnodup),
      filter_tied_walk hg (horder.nodup_iff.mpr hnodup), filter_tied_walk herrors hnodup,
      filter_tied_walk hwarnings hnodup, horder.mem_iff]
    split
    next hmem => rw [← List.filter_append, hsame _ hmem, List.filter_append]
    next => rfl

end Walk

/-- The names that occur among those before or earlier in the list, each time that they do. -/
def againAfter (before ids : List String) : List String :=
  (ids.zipIdx.filter fun e => decide (e.1 ∈ before ∨ e.1 ∈ ids.take e.2)).map Prod.fst

/-- The names that occur earlier in the list, each time that they occur again. -/
def again (ids : List String) : List String :=
  (ids.zipIdx.filter fun e => decide (e.1 ∈ ids.take e.2)).map Prod.fst

theorem againAfter_cons (before : List String) (id : String) (ids : List String) :
    againAfter before (id :: ids) =
      if id ∈ before then id :: againAfter before ids else againAfter (id :: before) ids := by
  have hrest : ∀ seen, (∀ x, x ∈ seen ↔ x ∈ before ∨ x = id) →
      ((ids.zipIdx 1).filter fun e => decide (e.1 ∈ before ∨ e.1 ∈ (id :: ids).take e.2)).map
        Prod.fst = againAfter seen ids := by
    intro seen hseen
    rw [List.zipIdx_succ, List.filter_map, List.map_map, againAfter]
    congr 1
    refine List.filter_congr fun e _ => ?_
    simp [hseen, or_assoc]
  rw [againAfter, List.zipIdx_cons, List.filter_cons, List.take_zero]
  by_cases hid : id ∈ before
  · rw [if_pos (by simpa using hid), if_pos hid, List.map_cons, hrest before (by grind)]
  · rw [if_neg (by simpa using hid), if_neg hid, hrest (id :: before) (by grind)]

theorem repeated_eq (seen ids : List String) : repeated seen ids = againAfter seen ids := by
  induction ids generalizing seen with
  | nil => rfl
  | cons id ids ih =>
    rw [repeated, againAfter_cons, ih, ih]
    simp

theorem duplicates_eq (n : Node) :
    duplicates n = (again (n.choices.map (·.id))).map .duplicateChoice := by
  simp [duplicates, repeated_eq, againAfter, again]

/-- The achievements that a node or one of its choices unlocks and the story does not define. -/
def undefinedUnlocks (s : Story) (n : Node) : List String :=
  ascendingDistinct ((unlocks n).filter fun id => !s.achievements.contains id)

/-- The warning that no path leads to a node. -/
def lost (s : Story) (id : String) : List Problem :=
  if id ∈ reachable s then [] else [.unreachable s.start]

/-- The problems of a node that are no errors. -/
def warningsOf (s : Story) (id : String) (n : Node) : List Problem :=
  (again (n.choices.map (·.id))).map .duplicateChoice ++
  (if n.choices = [] ∧ n.ending = false then [.deadEnd] else []) ++
  (n.content.image.toList.filter fun image => !s.images.contains image).map .undefinedImage ++
  (n.content.audio.toList.filter fun audio => !s.audio.contains audio).map .undefinedAudio ++
  (undefinedUnlocks s n).map .undefinedAchievement ++
  lost s id

/-- One error for each choice that leads nowhere. -/
def errors (s : Story) : List Issue :=
  s.nodes.entries.flatMap fun e => (missingTargets s e.2).map (Issue.mk e.1)

def warnings (s : Story) : List Issue :=
  s.nodes.entries.flatMap fun e => (warningsOf s e.1 e.2).map (Issue.mk e.1)

theorem nodeProblems_eq (s : Story) (id : String) (n : Node) :
    nodeProblems s n ++ lost s id = missingTargets s n ++ warningsOf s id n := by
  have hend : deadEnd n = if n.choices = [] ∧ n.ending = false then [.deadEnd] else [] := by
    simp [deadEnd]
  have himage : undefinedImage s n =
      (n.content.image.toList.filter fun image => !s.images.contains image).map .undefinedImage := by
    simp [undefinedImage, Option.toList_filter]
  have haudio : undefinedAudio s n =
      (n.content.audio.toList.filter fun audio => !s.audio.contains audio).map .undefinedAudio := by
    simp [undefinedAudio, Option.toList_filter]
  rw [nodeProblems, duplicates_eq, hend, himage, haudio]
  simp only [warningsOf, undefinedAchievements, undefinedUnlocks, List.append_assoc]

theorem severity_of_mem_missingTargets {s : Story} {n : Node} {p : Problem}
    (h : p ∈ missingTargets s n) : p.severity = .error := by
  obtain ⟨c, _, rfl⟩ := List.mem_map.mp h
  rfl

theorem severity_of_mem_warningsOf {s : Story} {id : String} {n : Node} {p : Problem}
    (h : p ∈ warningsOf s id n) : p.severity = .warning := by
  cases p with
  | missingTarget choice target => simp [warningsOf, lost] at h
  | _ => rfl

/-- The report made of the nodes as they are walked through in some order. -/
def reportFrom (s : Story) (order : List String) : Report :=
  let found := order.flatMap fun id => (s.nodes.get? id).elim [] (nodeIssues s)
  let lost := (order.filter fun id => !(reachable s).contains id).map fun id =>
    ⟨id, .unreachable s.start⟩
  ⟨(found ++ lost).mergeSort Issue.precedes⟩

theorem report_eq (s : Story) : report s = reportFrom s s.nodes.names := by
  rw [report, reportFrom, Dictionary.values, List.flatMap_map, unreachable]
  simp only [← Dictionary.flatMap_entries s.nodes fun _ n => nodeIssues s n]

theorem local_elim (d : Dictionary Node) (f : String → Node → List Problem) :
    Local fun id => (d.get? id).elim [] fun n => (f id n).map (Issue.mk id) := by
  intro id i hi
  cases hn : d.get? id with
  | none => simp [hn] at hi
  | some n =>
    obtain ⟨p, _, rfl⟩ := List.mem_map.mp (by simpa only [hn, Option.elim_some] using hi)
    rfl

section Report

variable {s : Story}

theorem errors_eq (s : Story) : errors s = s.nodes.names.flatMap fun id =>
    (s.nodes.get? id).elim [] fun n => (missingTargets s n).map (Issue.mk id) :=
  Dictionary.flatMap_entries s.nodes fun id n => (missingTargets s n).map (Issue.mk id)

theorem warnings_eq (s : Story) : warnings s = s.nodes.names.flatMap fun id =>
    (s.nodes.get? id).elim [] fun n => (warningsOf s id n).map (Issue.mk id) :=
  Dictionary.flatMap_entries s.nodes fun id n => (warningsOf s id n).map (Issue.mk id)

theorem errors_ascending (s : Story) : (errors s).Pairwise fun a b => a.node ≤ b.node :=
  errors_eq s ▸ ascending_walk (local_elim s.nodes fun _ => missingTargets s) s.nodes.names_ascending

theorem warnings_ascending (s : Story) : (warnings s).Pairwise fun a b => a.node ≤ b.node :=
  warnings_eq s ▸ ascending_walk (local_elim s.nodes (warningsOf s)) s.nodes.names_ascending

theorem severity_of_mem_errors {i : Issue} (h : i ∈ errors s) : i.severity = .error := by
  obtain ⟨e, _, hi⟩ := List.mem_flatMap.mp h
  obtain ⟨p, hp, rfl⟩ := List.mem_map.mp hi
  exact severity_of_mem_missingTargets hp

theorem severity_of_mem_warnings {i : Issue} (h : i ∈ warnings s) : i.severity = .warning := by
  obtain ⟨e, _, hi⟩ := List.mem_flatMap.mp h
  obtain ⟨p, hp, rfl⟩ := List.mem_map.mp hi
  exact severity_of_mem_warningsOf hp

theorem flatMap_nodeIssues (hl : s.Loaded) (order : List String) :
    (order.flatMap fun id => (s.nodes.get? id).elim [] (nodeIssues s)) =
      order.flatMap fun id =>
        (s.nodes.get? id).elim [] fun n => (nodeProblems s n).map (Issue.mk id) := by
  refine List.flatMap_congr fun id _ => ?_
  cases hn : s.nodes.get? id with
  | none => rfl
  | some n => simp only [Option.elim_some, nodeIssues, hl.id_eq hn]

theorem map_unreachable (order : List String) :
    ((order.filter fun id => !(reachable s).contains id).map fun id =>
      (⟨id, .unreachable s.start⟩ : Issue)) =
        order.flatMap fun id => (lost s id).map (Issue.mk id) := by
  induction order with
  | nil => rfl
  | cons id order ih =>
    by_cases hid : id ∈ reachable s
    · simpa [lost, hid] using ih
    · simpa [lost, hid] using ih

/-- However the nodes are come by, the report lists the errors and then the warnings. -/
theorem issues_reportFrom (hl : s.Loaded) {order : List String} (h : order.Perm s.nodes.names) :
    (reportFrom s order).issues = errors s ++ warnings s := by
  rw [reportFrom, flatMap_nodeIssues hl, map_unreachable, errors_eq, warnings_eq]
  refine sorted_walk h s.nodes.names_ascending (local_elim s.nodes fun _ => nodeProblems s) ?_
    (local_elim s.nodes fun _ => missingTargets s) (local_elim s.nodes (warningsOf s)) ?_ ?_ ?_
  · intro id i hi
    obtain ⟨p, _, rfl⟩ := List.mem_map.mp hi
    rfl
  · exact fun i hi => severity_of_mem_errors (errors_eq s ▸ hi)
  · exact fun i hi => severity_of_mem_warnings (warnings_eq s ▸ hi)
  · intro id hid
    obtain ⟨n, hn⟩ := Option.isSome_iff_exists.mp (Dictionary.mem_names_iff.mp hid)
    simp only [hn, Option.elim_some, ← List.map_append]
    rw [nodeProblems_eq]

theorem undefinedUnlocks_ascending (s : Story) (n : Node) :
    (undefinedUnlocks s n).Pairwise (· < ·) := Dictionary.names_ascending _

theorem mem_undefinedUnlocks_iff {n : Node} {id : String} : id ∈ undefinedUnlocks s n ↔
    (∃ e ∈ n.effectSets, id ∈ e.unlocks) ∧ s.achievements.contains id = false := by
  have hunlocks : unlocks n = n.effectSets.flatMap (·.unlocks) := rfl
  rw [undefinedUnlocks, mem_ascendingDistinct, List.mem_filter, hunlocks, List.mem_flatMap,
    Bool.not_eq_true']

theorem count_of_issues {r : Report} (h : r.issues = errors s ++ warnings s) :
    r.count .error = (errors s).length ∧ r.count .warning = (warnings s).length := by
  have herrors : ∀ i ∈ errors s, i.severity = .error := fun i => severity_of_mem_errors
  have hwarnings : ∀ i ∈ warnings s, i.severity = .warning := fun i => severity_of_mem_warnings
  simp only [Report.count, h, List.filter_append]
  constructor
  · rw [List.filter_eq_self.mpr (by simpa using herrors), List.filter_eq_nil_iff.mpr, List.append_nil]
    exact fun i hi => by simp [hwarnings i hi]
  · rw [List.filter_eq_nil_iff.mpr, List.filter_eq_self.mpr (by simpa using hwarnings), List.nil_append]
    exact fun i hi => by simp [herrors i hi]

theorem Report.hasErrors_iff_count (r : Report) : r.hasErrors = true ↔ r.count .error ≠ 0 := by
  rw [hasErrors, count, List.any_eq_true, ne_eq, List.length_eq_zero_iff, List.filter_eq_nil_iff]
  simp

/-- A report is settled by the story. It lists an error for each choice that leads nowhere and then the
warnings, both by node, and within one node in the order of the rules (`warningsOf`). The order in which
the nodes are come by leaves no trace in it, and what it is asked for agrees with the lists. -/
theorem report_exact (hl : s.Loaded) :
    (report s).issues = errors s ++ warnings s ∧
    (∀ i ∈ errors s, i.severity = .error) ∧ (∀ i ∈ warnings s, i.severity = .warning) ∧
    ((errors s).Pairwise fun a b => a.node ≤ b.node) ∧
    ((warnings s).Pairwise fun a b => a.node ≤ b.node) ∧
    (∀ n, (undefinedUnlocks s n).Pairwise (· < ·) ∧ ∀ id, id ∈ undefinedUnlocks s n ↔
      (∃ e ∈ n.effectSets, id ∈ e.unlocks) ∧ s.achievements.contains id = false) ∧
    (∀ id, id ∈ reachable s ↔ s.nodes.contains id = true ∧ s.Reaches s.start id) ∧
    (∀ order : List String, order.Perm s.nodes.names → reportFrom s order = report s) ∧
    (report s).count .error = (errors s).length ∧
    (report s).count .warning = (warnings s).length ∧
    ((report s).hasErrors = true ↔ errors s ≠ []) ∧
    ((report s).isEmpty = true ↔ errors s = [] ∧ warnings s = []) := by
  have hreport : (report s).issues = errors s ++ warnings s := by
    rw [report_eq]
    exact issues_reportFrom hl (.refl _)
  obtain ⟨herrors, hwarnings⟩ := count_of_issues hreport
  refine ⟨hreport, fun i => severity_of_mem_errors, fun i => severity_of_mem_warnings,
    errors_ascending s, warnings_ascending s,
    fun n => ⟨undefinedUnlocks_ascending s n, fun id => mem_undefinedUnlocks_iff⟩,
    mem_reachable_iff s, fun order h => ?_, herrors, hwarnings, ?_, ?_⟩
  · exact congrArg Report.mk ((issues_reportFrom hl h).trans hreport.symm)
  · rw [Report.hasErrors_iff_count, herrors, ne_eq, List.length_eq_zero_iff]
  · simp [Report.isEmpty, hreport]

end Report

/-- A quay with fog, gulls and rowing boats; all ways out of it end on a reef that is no node. -/
def quayTree : Json :=
  let row (target : String) (unlocked : List String) : Json :=
    .object [("id", .text "row"), ("target", .text target),
      ("effects", .object [("unlock_achievements", .array (unlocked.map .text))])]
  .object [("start_node", .text "quay"),
    ("nodes", .object
      [("quay", .object
        [("content", .object [("image", .text "fog"), ("audio", .text "gulls")]),
          ("effects", .object [("unlock_achievements", .array [.text "landed"])]),
          ("choices", .array
            [row "reef" [], row "quay" ["wet", "rower", "ashore", "landed"], row "reef" []])]),
        ("attic", .object [])]),
    ("game_state", .object [("achievements", .object [("rower", .object [])])])]

def quayNode : Node :=
  let row (target : String) (unlocked : List String) : Choice :=
    ⟨"row", "", target, ⟨[], []⟩, some ⟨.empty, .empty, [], [], unlocked⟩, none⟩
  ⟨"quay", none, ⟨"", some "fog", some "gulls"⟩,
    [row "reef" [], row "quay" ["wet", "rower", "ashore", "landed"], row "reef" []],
    some ⟨.empty, .empty, [], [], ["landed"]⟩, false⟩

def quay : Story :=
  ⟨"quay", (Dictionary.empty.insert "quay" quayNode).insert "attic"
      ⟨"attic", none, ⟨"", none, none⟩, [], none, false⟩, .empty,
    Dictionary.empty.insert "rower" ⟨"", none, none⟩, .empty, .empty⟩

theorem report_exact_quay : Story.read Json.depthLimit quayTree = .ok quay ∧
    (report quay).issues =
      [⟨"quay", .missingTarget "row" "reef"⟩, ⟨"quay", .missingTarget "row" "reef"⟩,
        ⟨"attic", .deadEnd⟩, ⟨"attic", .unreachable "quay"⟩,
        ⟨"quay", .duplicateChoice "row"⟩, ⟨"quay", .duplicateChoice "row"⟩,
        ⟨"quay", .undefinedImage "fog"⟩, ⟨"quay", .undefinedAudio "gulls"⟩,
        ⟨"quay", .undefinedAchievement "ashore"⟩, ⟨"quay", .undefinedAchievement "landed"⟩,
        ⟨"quay", .undefinedAchievement "wet"⟩] ∧
    (report quay).count .error = 2 ∧ (report quay).count .warning = 9 ∧
    reportFrom quay ["quay", "attic"] = report quay := by
  have hread : Story.read Json.depthLimit quayTree = .ok quay := rfl
  have hsearch : (Search.next quay)^[choiceCount quay + 1] ⟨[], [quay.start]⟩ =
    ⟨["quay"], []⟩ := rfl
  have hreachable : reachable quay = ["quay"] :=
    congrArg Search.seen ((search_over quay).symm.trans hsearch)
  obtain ⟨hissues, -, -, -, -, -, -, horder, herrors, hwarnings, -⟩ :=
    report_exact (.tree hread)
  have hwarned : warnings quay =
      [⟨"attic", .deadEnd⟩, ⟨"attic", .unreachable "quay"⟩,
        ⟨"quay", .duplicateChoice "row"⟩, ⟨"quay", .duplicateChoice "row"⟩,
        ⟨"quay", .undefinedImage "fog"⟩, ⟨"quay", .undefinedAudio "gulls"⟩,
        ⟨"quay", .undefinedAchievement "ashore"⟩, ⟨"quay", .undefinedAchievement "landed"⟩,
        ⟨"quay", .undefinedAchievement "wet"⟩] := by
    simp only [warnings, warningsOf, lost, hreachable]
    decide +kernel
  rw [hwarned] at hissues hwarnings
  exact ⟨hread, hissues, herrors, hwarnings, horder _ (.swap _ _ _)⟩

end Lint

end Gamebook
