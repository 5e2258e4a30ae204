import Gamebook.Generator
import Gamebook.Progress
import Gamebook.Text.Parts

namespace Gamebook

namespace Markup

/-- What may stand anywhere, also inside of a block. -/
inductive Atom
  | literal (c : Char)
  | reference (name : List Char)
  | random (first : List Char) (others : List (List Char))
  | marker (closing : Bool)
deriving DecidableEq

/-- A block does not hold other blocks. -/
inductive Piece
  | atom (a : Atom)
  | block (name : List Char) (body : List Atom)
deriving DecidableEq

def ifWord : List Char := ['i', 'f', ':']

def endMark : List Char := ['{', '/', 'i', 'f', '}']

def randomWord : List Char := ['r', 'a', 'n', 'd', 'o', 'm', ':']

def typewriter : List Char := ['t', 'y', 'p', 'e', 'w', 'r', 'i', 't', 'e', 'r']

def inventoryCount : List Char :=
  ['i', 'n', 'v', 'e', 'n', 't', 'o', 'r', 'y', '_', 'c', 'o', 'u', 'n', 't']

def braced (inner : List Char) : List Char := '{' :: (inner ++ ['}'])

def Atom.source : Atom → List Char
  | literal c => [c]
  | reference name => braced name
  | random first others => braced (randomWord ++ join '|' first others)
  | marker false => braced typewriter
  | marker true => braced ('/' :: typewriter)

def Piece.source : Piece → List Char
  | atom a => a.source
  | block name body => braced (ifWord ++ name) ++ body.flatMap Atom.source ++ endMark

/-- Letters, digits and underscores of ASCII, at least one. -/
def isIdentifier (cs : List Char) : Bool :=
  !cs.isEmpty && cs.all fun c => c.isAlphanum || c == '_'

/-- The text before the first occurrence of a mark and the text behind it. -/
def cut? (mark : List Char) : List Char → Option (List Char × List Char)
  | [] => if mark.isEmpty then some ([], []) else none
  | c :: cs =>
    if mark.isPrefixOf (c :: cs) then some ([], (c :: cs).drop mark.length)
    else (cut? mark cs).map fun p => (c :: p.1, p.2)

theorem cut?_length {mark cs : List Char} {p : List Char × List Char}
    (h : cut? mark cs = some p) : p.1.length + mark.length + p.2.length = cs.length := by
  induction cs generalizing p with
  | nil =>
    rw [cut?] at h
    split at h
    next he => cases Option.some.inj h; simpa using he
    next => simp at h
  | cons c cs ih =>
    rw [cut?] at h
    split at h
    next hm =>
      cases Option.some.inj h
      have hl := (List.isPrefixOf_iff_prefix.mp hm).length_le
      simp only [List.length_nil, List.length_drop]
      omega
    next =>
      obtain ⟨q, hq, rfl⟩ := Option.map_eq_some_iff.mp h
      have := ih hq
      simp only [List.length_cons]
      omega

/-- What a pair of braces stands for, if it does. -/
def atomOf? (inner : List Char) : Option Atom :=
  if randomWord.isPrefixOf inner then
    let (first, others) := split '|' (inner.drop randomWord.length)
    some (.random first others)
  else if inner = typewriter then some (.marker false)
  else if inner = '/' :: typewriter then some (.marker true)
  else if isIdentifier inner then some (.reference inner)
  else none

/-- The directive behind an opening brace and the text behind the directive. -/
def atomAt? (cs : List Char) : Option (Atom × List Char) := do
  let (inner, rest) ← cut? ['}'] cs
  return (← atomOf? inner, rest)

theorem atomAt?_length {cs : List Char} {p : Atom × List Char} (h : atomAt? cs = some p) :
    p.2.length < cs.length := by
  obtain ⟨⟨inner, rest⟩, hc, h⟩ := Option.bind_eq_some_iff.mp h
  obtain ⟨a, _, h⟩ := Option.bind_eq_some_iff.mp h
  cases Option.some.inj h
  have := cut?_length hc
  simp only [List.length_cons, List.length_nil] at this ⊢
  omega

def atoms (cs : List Char) : List Atom :=
  match cs with
  | [] => []
  | c :: cs =>
    if c = '{' then
      match _h : atomAt? cs with
      | some (a, rest) => a :: atoms rest
      | none => .literal c :: atoms cs
    else .literal c :: atoms cs
termination_by cs.length
decreasing_by
  · exact Nat.lt_succ_of_lt (atomAt?_length _h)
  · exact Nat.lt_succ_self _
  · exact Nat.lt_succ_self _

/-- The block or other directive behind an opening brace and the text behind it. A block runs to the
first end mark; without one, or under a name that is no identifier, it is none. -/
def pieceAt? (cs : List Char) : Option (Piece × List Char) := do
  let (inner, rest) ← cut? ['}'] cs
  if ifWord.isPrefixOf inner then
    let name := inner.drop ifWord.length
    if isIdentifier name then
      let (body, rest) ← cut? endMark rest
      return (.block name (atoms body), rest)
    else none
  else return (.atom (← atomOf? inner), rest)

theorem pieceAt?_length {cs : List Char} {p : Piece × List Char} (h : pieceAt? cs = some p) :
    p.2.length < cs.length := by
  obtain ⟨⟨inner, rest⟩, hc, h⟩ := Option.bind_eq_some_iff.mp h
  have hl := cut?_length hc
  simp only [List.length_cons, List.length_nil] at hl
  simp only at h
  split at h
  · split at h
    · obtain ⟨⟨body, rest'⟩, hb, h⟩ := Option.bind_eq_some_iff.mp h
      cases Option.some.inj h
      have hl' := cut?_length hb
      simp only at hl' ⊢
      omega
    · simp at h
  · obtain ⟨a, _, h⟩ := Option.bind_eq_some_iff.mp h
    cases Option.some.inj h
    simp only
    omega

def pieces (cs : List Char) : List Piece :=
  match cs with
  | [] => []
  | c :: cs =>
    if c = '{' then
      match _h : pieceAt? cs with
      | some (p, rest) => p :: pieces rest
      | none => .atom (.literal c) :: pieces cs
    else .atom (.literal c) :: pieces cs
termination_by cs.length
decreasing_by
  · exact Nat.lt_succ_of_lt (pieceAt?_length _h)
  · exact Nat.lt_succ_self _
  · exact Nat.lt_succ_self _

/-- A variable's value, or the number of items held, or the reference as it is written. -/
def referenceText (p : Progress) (name : List Char) : List Char :=
  match p.valueOf? (String.ofList name) with
  | some v => v.display.toList
  | none => if name = inventoryCount then Decimal.numerals p.inventory.length else braced name

def optionText (first : List Char) (others : List (List Char)) (g : Generator) :
    List Char × Generator :=
  let (i, next) := g.choose (first :: others).length (Nat.zero_lt_succ _)
  ((first :: others)[i], next)

/-- A marker that is not stripped is kept, but an opening one gives way to a variable of its name. -/
def Atom.render (strip : Bool) (p : Progress) (g : Generator) : Atom → List Char × Generator
  | literal c => ([c], g)
  | reference name => (referenceText p name, g)
  | random first others => optionText first others g
  | marker closing =>
    if strip then ([], g)
    else if closing then ((marker closing).source, g)
    else (referenceText p typewriter, g)

def renderAtoms (strip : Bool) (p : Progress) (g : Generator) : List Atom → List Char × Generator
  | [] => ([], g)
  | a :: rest =>
    let (text, g) := a.render strip p g
    let (texts, g) := renderAtoms strip p g rest
    (text ++ texts, g)

def isSetTrue (p : Progress) (name : List Char) : Bool :=
  (p.valueOf? (String.ofList name)).any Value.isTrue

def Piece.render (strip : Bool) (p : Progress) (g : Generator) : Piece → List Char × Generator
  | atom a => a.render strip p g
  | block name body => if isSetTrue p name then renderAtoms strip p g body else ([], g)

def renderPieces (strip : Bool) (p : Progress) (g : Generator) : List Piece → List Char × Generator
  | [] => ([], g)
  | piece :: rest =>
    let (text, g) := piece.render strip p g
    let (texts, g) := renderPieces strip p g rest
    (text ++ texts, g)

def render (strip : Bool) (text : String) (p : Progress) (g : Generator) : String × Generator :=
  let (out, g) := renderPieces strip p g (pieces text.toList)
  (String.ofList out, g)

end Markup

end Gamebook
