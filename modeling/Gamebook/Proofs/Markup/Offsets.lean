import Gamebook.Markup
import Mathlib.Data.String.Basic

namespace Gamebook

namespace Markup

open String (utf8Len utf8Len_nil utf8Len_cons utf8Len_append)

/-- The slices before and behind an offset in bytes; none where it lies inside of a character or behind the
end. -/
def cutAt? : List Char → Nat → Option (List Char × List Char)
  | [], n => if n = 0 then some ([], []) else none
  | c :: cs, n =>
    if n = 0 then some ([], c :: cs)
    else if c.utf8Size ≤ n then (cutAt? cs (n - c.utf8Size)).map fun p => (c :: p.1, p.2)
    else none

/-- The slice from one offset to another. -/
def slice? (cs : List Char) (first last : Nat) : Option (List Char) :=
  if first ≤ last then
    (cutAt? cs first).bind fun p => (cutAt? p.2 (last - first)).map Prod.fst
  else none

/-- The offset of the first occurrence of a mark. -/
def find? (mark cs : List Char) : Option Nat :=
  (cut? mark cs).map fun p => utf8Len p.1

section Slices

variable {cs before rest : List Char}

theorem cutAt?_append (before rest : List Char) :
    cutAt? (before ++ rest) (utf8Len before) = some (before, rest) := by
  induction before with
  | nil => cases rest <;> rfl
  | cons c before ih =>
    have hpos := c.utf8Size_pos
    have hne : utf8Len (c :: before) ≠ 0 := by rw [utf8Len_cons]; omega
    have hle : c.utf8Size ≤ utf8Len (c :: before) := by rw [utf8Len_cons]; omega
    have hsub : utf8Len (c :: before) - c.utf8Size = utf8Len before := by rw [utf8Len_cons]; omega
    rw [List.cons_append, cutAt?, if_neg hne, if_pos hle, hsub, ih]
    rfl

theorem cutAt?_eq_some_iff {n : Nat} :
    cutAt? cs n = some (before, rest) ↔ cs = before ++ rest ∧ utf8Len before = n := by
  constructor
  · intro h
    induction cs generalizing n before with
    | nil =>
      rw [cutAt?] at h
      split at h
      next hn => cases h; exact ⟨rfl, hn.symm⟩
      next => cases h
    | cons c cs ih =>
      rw [cutAt?] at h
      split at h
      next hn => cases h; exact ⟨rfl, hn.symm⟩
      next =>
        split at h
        next hle =>
          obtain ⟨q, hq, hp⟩ := Option.map_eq_some_iff.mp h
          cases hp
          obtain ⟨rfl, hlen⟩ := ih hq
          refine ⟨rfl, ?_⟩
          rw [utf8Len_cons, hlen]
          omega
        next => cases h
  · rintro ⟨rfl, rfl⟩
    exact cutAt?_append before rest

/-- Offsets with a cut are those of characters in the text or its end. -/
theorem cutAt?_isSome_iff {s : String} {n : Nat} :
    (cutAt? s.toList n).isSome ↔ String.Pos.Raw.IsValid s ⟨n⟩ := by
  rw [Option.isSome_iff_exists, String.Pos.Raw.isValid_iff_exists_append]
  constructor
  · rintro ⟨⟨before, rest⟩, h⟩
    obtain ⟨hs, rfl⟩ := cutAt?_eq_some_iff.mp h
    refine ⟨String.ofList before, String.ofList rest, ?_, ?_⟩
    · rw [← String.ofList_append, ← hs, String.ofList_toList]
    · simp
  · rintro ⟨s₁, s₂, rfl, hn⟩
    refine ⟨(s₁.toList, s₂.toList), cutAt?_eq_some_iff.mpr ⟨String.toList_append, ?_⟩⟩
    simpa using (congrArg String.Pos.Raw.byteIdx hn).symm

example : cutAt? ['¡', '{'] 1 = none := by decide

theorem slice?_append (before cs rest : List Char) :
    slice? (before ++ cs ++ rest) (utf8Len before) (utf8Len before + utf8Len cs) = some cs := by
  rw [slice?, if_pos (Nat.le_add_right _ _), List.append_assoc, cutAt?_append, Option.bind_some,
    Nat.add_sub_cancel_left, cutAt?_append]
  rfl

theorem find?_of_cut? {mark : List Char} (h : cut? mark cs = some (before, rest)) :
    find? mark cs = some (utf8Len before) := by
  rw [find?, h]
  rfl

/-- The closing brace is not the one that a tail begins with. -/
theorem find?_close_cons (cs : List Char) : find? ['}'] ('{' :: cs) = (find? ['}'] cs).map (· + 1) := by
  rw [find?, find?, cut?, if_neg (by simp), Option.map_map, Option.map_map]
  rfl

theorem utf8Len_braced (inner : List Char) : utf8Len (braced inner) = utf8Len inner + 2 := by
  rw [braced, utf8Len_cons, utf8Len_append]
  rfl

theorem braced_append (inner left : List Char) :
    braced inner ++ left = '{' :: (inner ++ '}' :: left) := by
  simp [braced]

theorem cutAt?_braced (inner left : List Char) :
    cutAt? ('{' :: (inner ++ '}' :: left)) (utf8Len inner + 2) = some (braced inner, left) := by
  rw [← braced_append, ← utf8Len_braced]
  exact cutAt?_append _ _

theorem slice?_inner (inner left : List Char) :
    slice? ('{' :: (inner ++ '}' :: left)) 1 (utf8Len inner + 1) = some inner := by
  rw [Nat.add_comm]
  exact slice?_append ['{'] inner ('}' :: left)

/-- The slice from behind one brace to the next mark. -/
theorem slice?_body (inner body behind : List Char) :
    slice? ('{' :: (inner ++ '}' :: (body ++ behind))) (utf8Len inner + 2)
      (utf8Len inner + 2 + utf8Len body) = some body := by
  rw [← braced_append, ← utf8Len_braced, ← List.append_assoc]
  exact slice?_append (braced inner) body behind

end Slices

/-- A call for the directive at the start of a tail: the bytes that it takes, if there is one, and what is left
of the tail behind it. -/
structure DirectiveCall where
  tail : List Char
  taken? : Option Nat
  left : List Char

/-- A turn of the loop: the texts under rendering, the innermost first, the rest of that one, and the call for a
directive if there is a brace in it. -/
structure Turn where
  texts : List (List Char)
  rest : List Char
  call? : Option DirectiveCall

/-- What is written so far, and what was done for it: the turns, and the groups of options drawn from. -/
structure Draft where
  out : List Char
  next : Generator
  turns : List Turn
  groups : List (List (List Char))

namespace Draft

def write (d : Draft) (cs : List Char) : Draft := { d with out := d.out ++ cs }

def turn (d : Draft) (t : Turn) : Draft := { d with turns := d.turns ++ [t] }

/-- One of a group's options is written. There is none to draw from a group without options. -/
def draw? (d : Draft) (options : List (List Char)) : Option Draft :=
  if h : 0 < options.length then
    let drawn := d.next.choose options.length h
    some ⟨d.out ++ options[drawn.1], drawn.2, d.turns, d.groups ++ [options]⟩
  else none

end Draft

/-- The directive between braces other than a block. It ends at the given offset. -/
def takeInner? (strip : Bool) (p : Progress) (inner : List Char) (after : Nat) (d : Draft) :
    Option (Option Nat × Draft) :=
  if randomWord.isPrefixOf inner then
    (d.draw? ((inner.drop randomWord.length).splitOn '|')).map fun d => (some after, d)
  else if strip ∧ (inner = typewriter ∨ inner = '/' :: typewriter) then some (some after, d)
  else if isIdentifier inner then
    match p.valueOf? (String.ofList inner) with
    | some v => some (some after, d.write v.display.toList)
    | none =>
      if inner = inventoryCount then some (some after, d.write (Decimal.numerals p.inventory.length))
      else some (none, d)
  else some (none, d)

/-- How many bytes the directive at the start of a tail takes, if there is one. -/
def takeDirective? (strip : Bool) (p : Progress) (renderBody : List Char → Draft → Option Draft)
    (inBlock : Bool) (tail : List Char) (d : Draft) : Option (Option Nat × Draft) :=
  match find? ['}'] tail with
  | none => some (none, d)
  | some close => do
    let inner ← slice? tail 1 close
    let after := close + 1
    if ifWord.isPrefixOf inner then
      let name := inner.drop ifWord.length
      if inBlock || !isIdentifier name then some (none, d)
      else do
        let behind ← cutAt? tail after
        match find? endMark behind.2 with
        | none => some (none, d)
        | some offset =>
          let last := after + offset
          let d ←
            if isSetTrue p name then do
              let body ← slice? tail after last
              renderBody body d
            else some d
          some (some (last + utf8Len endMark), d)
    else takeInner? strip p inner after d

/-- The rest of the innermost text rendered. The limit is one of turns that follow from each other. -/
def renderRest? (strip : Bool) (p : Progress) :
    Nat → List (List Char) → Bool → List Char → Draft → Option Draft
  | 0, _, _, _, _ => none
  | limit + 1, texts, inBlock, rest, d =>
    match find? ['{'] rest with
    | none => some ((d.turn ⟨texts, rest, none⟩).write rest)
    | some opening => do
      let slices ← cutAt? rest opening
      let answer ← takeDirective? strip p
        (fun body d => renderRest? strip p limit (body :: texts) true body d) inBlock slices.2
        (d.write slices.1)
      match answer.1 with
      | some taken => do
        let left ← cutAt? slices.2 taken
        renderRest? strip p limit texts inBlock left.2
          (answer.2.turn ⟨texts, rest, some ⟨slices.2, some taken, left.2⟩⟩)
      | none => do
        let left ← cutAt? slices.2 1
        renderRest? strip p limit texts inBlock left.2
          ((answer.2.write ['{']).turn ⟨texts, rest, some ⟨slices.2, none, left.2⟩⟩)

/-- A text rendered by offsets, from nothing written. -/
def renderText? (limit : Nat) (strip : Bool) (text : List Char) (p : Progress) (g : Generator) :
    Option Draft :=
  renderRest? strip p limit [text] false text ⟨[], g, [], []⟩

end Markup

end Gamebook
