import Gamebook.Proofs.Markup.Directive

namespace Gamebook

namespace Markup

/-- What a directive gives, how many characters of the text it takes, and the generator behind it. -/
structure Expansion where
  out : List Char
  taken : Nat
  next : Generator

/-- The text between a pair of braces expanded; none where it stands for nothing. -/
def expand? (strip : Bool) (p : Progress) (inner : List Char) (g : Generator) :
    Option (List Char × Generator) :=
  if randomWord.isPrefixOf inner then
    let (first, others) := split '|' (inner.drop randomWord.length)
    some (optionText first others g)
  else if strip ∧ (inner = typewriter ∨ inner = '/' :: typewriter) then some ([], g)
  else if isIdentifier inner then
    match p.valueOf? (String.ofList inner) with
    | some v => some (v.display.toList, g)
    | none =>
      if inner = inventoryCount then some (Decimal.numerals p.inventory.length, g) else none
  else none

/-- The directive at the head of a tail that begins with a brace. A block is one only where bodies are
rendered, which they are not inside of a block. -/
def directive? (strip : Bool) (p : Progress)
    (renderBody? : Option (List Char → Generator → List Char × Generator)) (tail : List Char)
    (g : Generator) : Option Expansion :=
  match cut? ['}'] (tail.drop 1) with
  | none => none
  | some (inner, after) =>
    if ifWord.isPrefixOf inner then
      match renderBody?, isIdentifier (inner.drop ifWord.length), cut? endMark after with
      | some renderBody, true, some (body, _) =>
        let taken := inner.length + 2 + body.length + endMark.length
        if isSetTrue p (inner.drop ifWord.length) then
          some ⟨(renderBody body g).1, taken, (renderBody body g).2⟩
        else some ⟨[], taken, g⟩
      | _, _, _ => none
    else (expand? strip p inner g).map fun e => ⟨e.1, inner.length + 2, e.2⟩

/-- A directive takes at least its brace. -/
def scanWith (directive? : List Char → Generator → Option Expansion) (cs : List Char)
    (g : Generator) : List Char × Generator :=
  match cs with
  | [] => ([], g)
  | c :: cs =>
    let found := if c = '{' then directive? (c :: cs) g else none
    match found with
    | some e =>
      let rest := scanWith directive? (cs.drop (e.taken - 1)) e.next
      (e.out ++ rest.1, rest.2)
    | none =>
      let rest := scanWith directive? cs g
      (c :: rest.1, rest.2)
termination_by cs.length
decreasing_by
  · simp only [List.length_drop, List.length_cons]
    omega
  · exact Nat.lt_succ_self _

def scanBody (strip : Bool) (p : Progress) : List Char → Generator → List Char × Generator :=
  scanWith (directive? strip p none)

def scan (strip : Bool) (p : Progress) : List Char → Generator → List Char × Generator :=
  scanWith (directive? strip p (some (scanBody strip p)))

section ScanWith

variable {expand : List Char → Generator → Option Expansion}

theorem scanWith_nil (g : Generator) : scanWith expand [] g = ([], g) := by
  rw [scanWith]

theorem scanWith_taken {cs : List Char} {g : Generator} {e : Expansion}
    (h : expand ('{' :: cs) g = some e) : scanWith expand ('{' :: cs) g =
      (e.out ++ (scanWith expand (cs.drop (e.taken - 1)) e.next).1,
        (scanWith expand (cs.drop (e.taken - 1)) e.next).2) := by
  rw [scanWith]
  simp [h]

theorem scanWith_passed {c : Char} {cs : List Char} {g : Generator}
    (h : c = '{' → expand (c :: cs) g = none) : scanWith expand (c :: cs) g =
      (c :: (scanWith expand cs g).1, (scanWith expand cs g).2) := by
  rw [scanWith]
  by_cases hc : c = '{'
  · simp [hc, hc ▸ h hc]
  · simp [hc]

/-- Without a brace nothing happens. -/
theorem scanWith_append {xs : List Char} (h : '{' ∉ xs) (rest : List Char) (g : Generator) :
    scanWith expand (xs ++ rest) g =
      (xs ++ (scanWith expand rest g).1, (scanWith expand rest g).2) := by
  induction xs with
  | nil => rfl
  | cons c xs ih =>
    obtain ⟨hc, hxs⟩ := not_or.mp (mt List.mem_cons.mpr h)
    rw [List.cons_append, scanWith_passed fun he => absurd he.symm hc, ih hxs]
    rfl

variable {α : Type u} {parse : List Char → List α}

/-- What scanning makes of a directive: its rendering, or nothing, in which case it renders as it is
written and holds no further brace. -/
def Expands (source : α → List Char) (render : α → Generator → List Char × Generator) (a : α)
    (cs rest : List Char) (g : Generator) (found : Option Expansion) : Prop :=
  (∃ taken, found = some ⟨(render a g).1, taken, (render a g).2⟩ ∧ cs.drop (taken - 1) = rest) ∨
    (found = none ∧ render a g = (source a, g) ∧
      ∃ inner, source a = '{' :: inner ∧ '{' ∉ inner ∧ cs = inner ++ rest)

theorem scanWith_eq_renderAll (source : α → List Char) (literal : Char → α)
    (at? : List Char → Option (α × List Char)) (render : α → Generator → List Char × Generator)
    (renderAll : List α → Generator → List Char × Generator) (hnil : parse [] = [])
    (hcons : ∀ c cs, parse (c :: cs) = if c = '{' then
      match at? cs with
      | some (a, rest) => a :: parse rest
      | none => literal c :: parse cs
      else literal c :: parse cs)
    (hall : ∀ g, renderAll [] g = ([], g))
    (hrender : ∀ a as g, renderAll (a :: as) g =
      ((render a g).1 ++ (renderAll as (render a g).2).1, (renderAll as (render a g).2).2))
    (hlit : ∀ c g, render (literal c) g = ([c], g))
    (hnone : ∀ cs g, at? cs = none → expand ('{' :: cs) g = none)
    (hsome : ∀ cs g a rest, at? cs = some (a, rest) →
      rest.length ≤ cs.length ∧ Expands source render a cs rest g (expand ('{' :: cs) g))
    (cs : List Char) (g : Generator) : scanWith expand cs g = renderAll (parse cs) g := by
  induction hn : cs.length using Nat.strongRecOn generalizing cs g with
  | ind n ih =>
    cases cs with
    | nil => rw [scanWith_nil, hnil, hall]
    | cons c cs =>
      subst hn
      have hrest := ih cs.length (by simp) cs
      rw [hcons]
      by_cases hc : c = '{'
      · subst hc
        cases hat : at? cs with
        | none =>
          rw [scanWith_passed fun _ => hnone cs g hat, hrest g rfl]
          simp [hrender, hlit]
        | some found =>
          obtain ⟨a, rest⟩ := found
          obtain ⟨hlen, hexp⟩ := hsome cs g a rest hat
          have hih := ih rest.length (by simp; omega) rest
          simp only [if_true, hrender]
          rcases hexp with ⟨taken, he, hdrop⟩ | ⟨he, hr, inner, hs, hb, hcs⟩
          · rw [scanWith_taken he, hdrop, hih _ rfl]
          · rw [scanWith_passed fun _ => he, hcs, scanWith_append hb, hih g rfl, hr, hs]
            rfl
      · rw [scanWith_passed fun h => absurd h hc, hrest g rfl]
        simp [hc, hrender, hlit]

end ScanWith

end Markup

end Gamebook
