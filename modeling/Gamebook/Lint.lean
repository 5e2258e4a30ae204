import Gamebook.Story

namespace Gamebook

namespace Lint

inductive Severity
  | error
  | warning
deriving DecidableEq

def Severity.word : Severity → String
  | error => "error"
  | warning => "warning"

inductive Problem
  | missingTarget (choice target : String)
  | duplicateChoice (id : String)
  | deadEnd
  | undefinedImage (id : String)
  | undefinedAudio (id : String)
  | undefinedAchievement (id : String)
  | unreachable (start : String)
deriving DecidableEq

namespace Problem

def severity : Problem → Severity
  | missingTarget .. => .error
  | _ => .warning

def message : Problem → String
  | missingTarget choice target => "choice '" ++ choice ++ "' targets missing node '" ++ target ++ "'"
  | duplicateChoice id => "duplicate choice id '" ++ id ++ "'"
  | deadEnd => "dead end: no choices and not marked as an ending"
  | undefinedImage id => "image asset '" ++ id ++ "' is not defined"
  | undefinedAudio id => "audio asset '" ++ id ++ "' is not defined"
  | undefinedAchievement id => "achievement '" ++ id ++ "' is not defined"
  | unreachable start => "unreachable from start node '" ++ start ++ "'"

end Problem

structure Issue where
  node : String
  problem : Problem
deriving DecidableEq

namespace Issue

def severity (i : Issue) : Severity := i.problem.severity

def message (i : Issue) : String :=
  i.severity.word ++ ": " ++ i.node ++ ": " ++ i.problem.message

/-- Errors stand before warnings, and among themselves issues ascend by node. -/
def precedes (a b : Issue) : Bool :=
  match a.severity, b.severity with
  | .error, .warning => true
  | .warning, .error => false
  | _, _ => decide (a.node ≤ b.node)

end Issue

def missingTargets (s : Story) (n : Node) : List Problem :=
  (n.choices.filter fun c => !s.nodes.contains c.target).map fun c => .missingTarget c.id c.target

/-- The ids that occur earlier in the list or among those seen before. -/
def repeated (seen : List String) : List String → List String
  | [] => []
  | id :: ids => if seen.contains id then id :: repeated seen ids else repeated (id :: seen) ids

def duplicates (n : Node) : List Problem :=
  (repeated [] (n.choices.map (·.id))).map .duplicateChoice

def deadEnd (n : Node) : List Problem := if n.choices.isEmpty && !n.ending then [.deadEnd] else []

def undefinedImage (s : Story) (n : Node) : List Problem :=
  (n.content.image.filter fun id => !s.images.contains id).toList.map .undefinedImage

def undefinedAudio (s : Story) (n : Node) : List Problem :=
  (n.content.audio.filter fun id => !s.audio.contains id).toList.map .undefinedAudio

/-- What entering the node or taking one of its choices unlocks. -/
def unlocks (n : Node) : List String :=
  (n.effects.toList ++ n.choices.filterMap (·.effects)).flatMap (·.unlocks)

def ascendingDistinct (ids : List String) : List String :=
  (Dictionary.ofList (ids.map fun id => (id, ()))).names

def undefinedAchievements (s : Story) (n : Node) : List Problem :=
  (ascendingDistinct ((unlocks n).filter fun id => !s.achievements.contains id)).map
    .undefinedAchievement

def nodeProblems (s : Story) (n : Node) : List Problem :=
  missingTargets s n ++ duplicates n ++ deadEnd n ++ undefinedImage s n ++ undefinedAudio s n ++
    undefinedAchievements s n

/-- The names that are not among those seen. -/
def unseen (s : Story) (seen : List String) : List String :=
  s.nodes.names.filter fun id => !seen.contains id

theorem filter_length_lt {α : Type u} {p q : α → Bool} {xs : List α} {x : α} (hx : x ∈ xs)
    (hp : p x = false) (hq : q x = true) (h : ∀ y ∈ xs, p y = true → q y = true) :
    (xs.filter p).length < (xs.filter q).length := by
  induction xs with
  | nil => simp at hx
  | cons y ys ih =>
    have hle : (ys.filter p).length ≤ (ys.filter q).length := by
      rw [← List.countP_eq_length_filter, ← List.countP_eq_length_filter]
      exact List.countP_mono_left fun z hz => h z (List.mem_cons_of_mem _ hz)
    rcases List.mem_cons.mp hx with rfl | hm
    · simp only [List.filter_cons, hp, hq, Bool.false_eq_true, ↓reduceIte, List.length_cons]
      omega
    · have hh := ih hm fun z hz => h z (List.mem_cons_of_mem _ hz)
      by_cases hy : p y = true
      · have hqy := h y (by simp) hy
        simp only [List.filter_cons, hy, hqy, ↓reduceIte, List.length_cons]
        omega
      · by_cases hqy : q y = true <;> simp [hy, hqy] <;> omega

theorem unseen_cons_length {s : Story} {seen : List String} {id : String} {n : Node}
    (hn : s.nodes.get? id = some n) (hs : seen.contains id = false) :
    (unseen s (id :: seen)).length < (unseen s seen).length := by
  refine filter_length_lt (x := id) (Dictionary.mem_names_iff.mpr (by simp [hn])) ?_ ?_ ?_
  · simp
  · simp only [hs, Bool.not_false]
  · intro y _ hy
    simp only [List.contains_cons, Bool.not_or, Bool.and_eq_true] at hy
    exact hy.2

/-- The nodes seen so far and all that choices lead to from the nodes that wait. -/
def explore (s : Story) (seen waiting : List String) : List String :=
  match waiting with
  | [] => seen
  | id :: rest =>
    match _hn : s.nodes.get? id with
    | none => explore s seen rest
    | some n =>
      if _hs : seen.contains id then explore s seen rest
      else explore s (id :: seen) (rest ++ n.choices.map (·.target))
termination_by ((unseen s seen).length, waiting.length)
decreasing_by
  · exact Prod.Lex.right _ (Nat.lt_succ_self _)
  · exact Prod.Lex.right _ (Nat.lt_succ_self _)
  · exact Prod.Lex.left _ _ (unseen_cons_length _hn (by simpa using _hs))

def reachable (s : Story) : List String := explore s [] [s.start]

def unreachable (s : Story) : List Issue :=
  (s.nodes.names.filter fun id => !(reachable s).contains id).map fun id =>
    ⟨id, .unreachable s.start⟩

structure Report where
  issues : List Issue

namespace Report

def hasErrors (r : Report) : Bool := r.issues.any fun i => i.severity == .error

def count (r : Report) (severity : Severity) : Nat :=
  (r.issues.filter fun i => i.severity == severity).length

def isEmpty (r : Report) : Bool := r.issues.isEmpty

end Report

def nodeIssues (s : Story) (n : Node) : List Issue := (nodeProblems s n).map fun p => ⟨n.id, p⟩

/-- Issues of one severity and one node keep the order in which they are found. -/
def report (s : Story) : Report :=
  ⟨((s.nodes.values.flatMap (nodeIssues s)) ++ unreachable s).mergeSort Issue.precedes⟩

end Lint

end Gamebook
