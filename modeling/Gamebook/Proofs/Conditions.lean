import Gamebook.Proofs.Json.Kept
import Gamebook.Story.Reading

namespace Gamebook

open Json

namespace Condition

theorem ofJson_settle (j : Json) : ofJson j.settle = ofJson j := by
  rw [ofJson, ofJson, ofJson?, ofJson?, settle_settle]

def kinds : List String := ["variable", "inventory", "achievement", "random"]

/-- There is no kind of condition that the tree could be read as. -/
def Unreadable (j : Json) : Prop :=
  ∀ kind ∈ kinds, ∀ body, kind? j.settle = some (kind, body) → ofFields kind body = none

theorem ofFields_of_notMem {kind : String} (h : kind ∉ kinds) (body : Json) :
    ofFields kind body = none := by
  unfold ofFields
  split
  · exact absurd (by decide) h
  · exact absurd (by decide) h
  · exact absurd (by decide) h
  · exact absurd (by decide) h
  · rfl

theorem ofFields_ne_unknown (kind : String) (body : Json) : ofFields kind body ≠ some unknown := by
  intro h
  unfold ofFields at h
  split at h <;> simp [Option.bind_eq_some_iff] at h

theorem ofJson_of_kind {j body : Json} {kind : String} (h : kind? j.settle = some (kind, body)) :
    ofJson j = (ofFields kind body).getD unknown := by
  rw [ofJson, ofJson?, h]
  rfl

theorem ofJson_eq_unknown_iff {j : Json} : ofJson j = unknown ↔ Unreadable j := by
  constructor
  · intro h kind _ body hbody
    rw [ofJson_of_kind hbody] at h
    cases hfields : ofFields kind body with
    | none => rfl
    | some c =>
      rw [hfields, Option.getD_some] at h
      exact absurd (h ▸ hfields) (ofFields_ne_unknown kind body)
  · intro h
    cases hkind : kind? j.settle with
    | none => rw [ofJson, ofJson?, hkind]; rfl
    | some shape =>
      obtain ⟨kind, body⟩ := shape
      have hnone : ofFields kind body = none := by
        by_cases hmem : kind ∈ kinds
        · exact h kind hmem body hkind
        · exact ofFields_of_notMem hmem body
      rw [ofJson_of_kind hkind, hnone, Option.getD_none]

section Operators

/-- The operator is left out, or it is a text that is none of the words for one. -/
def Unasked (words : List String) (fs : Fields) : Prop :=
  fs.lookup "operator" = none ∨ ∃ word, fs.lookup "operator" = some (text word) ∧ word ∉ words

def comparisonWords : List String := ["==", "!=", "<", ">", "<=", ">=", "contains"]

def holdingWords : List String := ["has", "not_has"]

theorem ofSymbol_of_notMem {word : String} (h : word ∉ comparisonWords) :
    Comparison.ofSymbol word = .unknown := by
  unfold Comparison.ofSymbol
  split <;> first | rfl | exact absurd (by decide) h

theorem ofWord_of_notMem {word : String} (h : word ∉ holdingWords) :
    Holding.ofWord word = .unknown := by
  unfold Holding.ofWord
  split <;> first | rfl | exact absurd (by decide) h

theorem get_of_unasked {α : Type} {words : List String} {fs : Fields} (h : Unasked words fs)
    {ofWord : String → α} {unknown : α} (hwords : ∀ word, word ∉ words → ofWord word = unknown) :
    fs.get "operator" (fun j => (j.word? isHollow).map ofWord) unknown = some unknown := by
  unfold Fields.get
  rcases h with hnone | ⟨word, hword, hmem⟩
  · rw [hnone]
  · rw [hword]
    exact congrArg some (hwords word hmem)

/-- A comparison or a look into the inventory that does not say what it asks. -/
inductive Idle (j : Json) : Prop
  | compares {body : Json} {fs : Fields} (hkind : kind? j.settle = some ("variable", body))
    (hfs : body.fields? ["variable", "operator", "value"] = some fs) (h : Unasked comparisonWords fs)
  | carries {body : Json} {fs : Fields} (hkind : kind? j.settle = some ("inventory", body))
    (hfs : body.fields? ["operator", "item"] = some fs) (h : Unasked holdingWords fs)

end Operators

section Passing

def Passes (c : Condition) : Prop := ∀ p g, c.evaluate p g = (true, g)

theorem passes_unknown : unknown.Passes := fun _ _ => rfl

theorem passes_getD {o : Option Condition} (h : ∀ c, o = some c → c.Passes) :
    (o.getD unknown).Passes := by
  cases o with
  | none => exact passes_unknown
  | some c => exact h c rfl

/-- What is read in an idle condition asks with no operator. -/
theorem Idle.passes {j : Json} (h : Idle j) : (ofJson j).Passes := by
  cases h with
  | compares hkind hfs h =>
    rw [ofJson_of_kind hkind]
    refine passes_getD fun c hc => ?_
    simp only [ofFields, hfs, get_of_unasked h fun _ => ofSymbol_of_notMem, Option.bind_eq_bind,
      Option.bind_some, Option.bind_eq_some_iff] at hc
    obtain ⟨name, -, literal, -, hc⟩ := hc
    cases hc
    exact fun _ _ => rfl
  | carries hkind hfs h =>
    rw [ofJson_of_kind hkind]
    refine passes_getD fun c hc => ?_
    simp only [ofFields, hfs, get_of_unasked h fun _ => ofWord_of_notMem, Option.bind_eq_bind,
      Option.bind_some, Option.bind_eq_some_iff] at hc
    obtain ⟨item, -, hc⟩ := hc
    cases hc
    exact fun _ _ => rfl

theorem evaluateAll_eraseIdx {gate : List Condition} {i : Nat} {c : Condition}
    (hget : gate[i]? = some c) (hc : c.Passes) (p : Progress) (g : Generator) :
    evaluateAll (gate.eraseIdx i) p g = evaluateAll gate p g := by
  induction gate generalizing i g with
  | nil => cases hget
  | cons d ds ih =>
    cases i with
    | zero =>
      cases hget
      rw [List.eraseIdx_cons_zero, evaluateAll, hc p g]
    | succ i =>
      rw [List.eraseIdx_cons_succ, evaluateAll, evaluateAll]
      split
      next g' _ => exact ih hget g'
      next => rfl

end Passing

end Condition

section Gates

namespace Gates

theorem ofJson?_array {room : Nat} {items : List Json} (h : (array items).sound room = true) :
    ofJson? room (array items) =
      ((array items).list? fun j => some (Condition.ofJson j)).map fun enabled => ⟨[], enabled⟩ := by
  have hread : items.mapM (fun j => some (Condition.ofJson j)) = some (items.map Condition.ofJson) :=
    List.mapM_pure
  rw [list?, hread]
  exact if_pos h

theorem ofJson?_object {room : Nat} {members : List (String × Json)}
    (h : (object members).sound room = true) :
    ofJson? room (object members) = (object members).fields? ["show_if", "enable_if"] >>= fun fs => do
      let conditions := list? fun j => some (Condition.ofJson j)
      return ⟨← fs.get "show_if" conditions [], ← fs.get "enable_if" conditions []⟩ :=
  if_pos h

end Gates

end Gates

end Gamebook
