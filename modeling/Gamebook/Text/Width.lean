import Gamebook.Text.Ligature
import Gamebook.Text.Pictogram
import Gamebook.Text.Wide

namespace Gamebook

/-- The columns of a character that stands alone. -/
def columnsOf (c : Char) : Nat :=
  if c.toNat ≤ 0xA0 then 1
  else if c.toNat = 0x2D7F then 1
  else if c.toNat = 0x115F ∨ c.toNat = 0x17A4 then 2
  else if c.toNat = 0x17D8 then 3
  else if isMark c then 0
  else if isRegional c then 1
  else if isWide c then 2
  else 1

/-- A sign that chooses the form of the character before it. -/
inductive Selector
  | pictogram
  | text
  | fullWidth
  deriving DecidableEq, Repr

def Selector.of? (c : Char) : Option Selector :=
  if c.toNat = 0xFE0F then some pictogram
  else if c.toNat = 0xFE0E then some text
  else if c.toNat = 0xFE01 then some fullWidth
  else none

def alefRanges : Ranges :=
  [(0x622, 0x623), (0x625, 0x625), (0x627, 0x627), (0x671, 0x673), (0x675, 0x675), (0x773, 0x774),
    (0x870, 0x882)]

def isAlef (c : Char) : Bool := alefRanges.contains c

def lamRanges : Ranges :=
  [(0x644, 0x644), (0x6B5, 0x6B8), (0x76A, 0x76A), (0x8A6, 0x8A6), (0x8C7, 0x8C7)]

def isLam (c : Char) : Bool := lamRanges.contains c

def isJoiner (c : Char) : Bool := c.toNat == 0x200D

/-- What follows a place in a text, as far as it bears on the columns of the character before that place. -/
inductive Following
  | plain
  /-- An alef, on which a lam before it is set. -/
  | alef
  | ligature (l : Ligature) (linked : Bool)
  /-- The vowel sign e of Kirat Rai. -/
  | vowelE
  /-- The vowel sign ai of Kirat Rai, which two signs e make together. -/
  | vowelAi
  | skinColour
  /-- So many regional indicators in a row. -/
  | regional (count : Nat)
  | pictogram
  /-- A joiner with a pictogram after it. In the cases below such a joiner comes next. -/
  | joiner
  | joinedKeycap
  | joinedRegional (count : Nat)
  /-- The end of a tag, with so many letters or so many digits before it. -/
  | tag (letters digits : Nat)
  deriving DecidableEq, Repr

namespace Following

/-- What a character is to the one before it, where nothing joins it to what comes after. -/
def of (c : Char) : Following :=
  if c.toNat ≤ 0xA0 then plain
  else if isAlef c then alef
  else if c.toNat = 0x16D67 then vowelE
  else if c.toNat = 0x16D68 then vowelAi
  else if isRegional c then regional 1
  else if isSkinColour c then skinColour
  else if isPictogram c then pictogram
  else match Ligature.of? c with
    | some l => ligature l false
    | none => plain

/-- The columns that `c` adds where it joins with what follows it, and what the two are together. -/
def join? (f : Following) (c : Char) : Option (Int × Following) :=
  match f with
  | plain => none
  | alef =>
    if isLam c then some (0, plain)
    else if isTransparentMark c then some (0, alef)
    else none
  | ligature l linked =>
    if isJoiner c then some (0, ligature l true)
    else if Ligature.isTransparent c then some (0, ligature l linked)
    else (l.join? linked c).map fun (w, l) => (w, match l with
      | some l => ligature l false
      | none => plain)
  | vowelE =>
    if c.toNat = 0x16D63 ∨ c.toNat = 0x16D69 then some (0, plain)
    else if c.toNat = 0x16D67 then some (0, vowelAi)
    else if c.toNat = 0x16D68 then some (1, vowelE)
    else none
  | vowelAi => if c.toNat = 0x16D63 then some (0, plain) else none
  | skinColour =>
    if isPerson c then some (0, pictogram)
    else if isJoiner c then some (0, joiner)
    else none
  | regional n =>
    if isRegional c then some (1, regional (n + 1))
    else if isJoiner c && 2 ≤ n then some (0, joiner)
    else none
  | pictogram => if isJoiner c then some (0, joiner) else none
  | joiner =>
    if c.toNat = 0x20E3 then some (0, joinedKeycap)
    else if c.toNat = 0xE007F then some (0, tag 0 0)
    else if isRegional c then some (1, joinedRegional 1)
    else if isSkinColour c then some (0, skinColour)
    else if isPictogram c then some (0, pictogram)
    else none
  | joinedKeycap => none
  | joinedRegional n =>
    if isRegional c then some (if n % 2 = 0 then 3 else -1, joinedRegional (n + 1))
    else if isJoiner c && 2 ≤ n then some (0, joiner)
    else none
  | tag letters digits =>
    if 0xE0061 ≤ c.toNat ∧ c.toNat ≤ 0xE007A ∧ digits = 0 ∧ letters < 6 then some (0, tag (letters + 1) 0)
    else if 0xE0030 ≤ c.toNat ∧ c.toNat ≤ 0xE0039 ∧ digits < 3 ∧ letters < 5 then
      some (0, tag 0 (digits + 1))
    else if c.toNat = 0x1F3F4 ∧ (3 ≤ letters ∨ digits = 3) then some (0, pictogram)
    else none

/-- Letters of a joined script are joined across selectors, of whatever kind and number. -/
def isLasting (f : Following) : Bool :=
  match f with
  | alef | ligature .. => true
  | _ => false

/-- Whether a selector leaves what follows it open to be joined. -/
def keeps (f : Following) (s : Selector) : Bool :=
  match f with
  | joiner | joinedKeycap => s = .pictogram
  | _ => f.isLasting

end Following

/-- All that the columns of a character hang on: the selectors right after it, and what comes after those. -/
structure Context where
  selectors : List Selector := []
  following : Following := .plain

namespace Context

/-- The columns of a character that a selector after it gives another form, and what it then is to the
character before it. -/
def selected? (x : Context) (c : Char) : Option (Nat × Following) :=
  if .pictogram ∈ x.selectors ∧ mayBePictogram c then
    some (if x.following = .joiner ∨ x.following = .joinedKeycap then 0 else 2, .pictogram)
  else if .text ∈ x.selectors ∧ mayBeText c then some (1, .plain)
  else if .fullWidth ∈ x.selectors ∧ [0x2018, 0x2019, 0x201C, 0x201D].contains c.toNat then
    some (2, .plain)
  else none

/-- What follows a character that the selectors after it, if there are any, have no other form for. -/
def unselected (x : Context) : Following :=
  if x.selectors.isEmpty || x.following.isLasting then x.following else .plain

/-- The context before a further selector. The one for pictograms is in force right before it only. -/
def select (x : Context) (s : Selector) : Context :=
  if x.unselected.keeps s then
    { selectors := s :: x.selectors.filter (· ≠ .pictogram), following := x.unselected }
  else { selectors := [s] }

/-- The columns that `c` adds before `x`, and the context of what stands before `c`. -/
def step (x : Context) (c : Char) : Int × Context :=
  match x.selected? c with
  | some (w, f) => (w, { following := f })
  | none =>
    if c.toNat ≤ 0xA0 then (1, {})
    else match Selector.of? c with
      | some s => (0, x.select s)
      | none =>
        let (w, f) := (x.unselected.join? c).getD (columnsOf c, Following.of c)
        (w, { following := f })

end Context

/-- The columns of a text, and the context of what stands before it. A character that takes columns back
takes back only what those it joins with have added. -/
def measure : List Char → Int × Context
  | [] => (0, {})
  | c :: cs =>
    let (w, x) := measure cs
    let (v, x) := x.step c
    (w + v, x)

def columns (cs : List Char) : Nat := (measure cs).1.toNat

theorem measure_of_narrow {cs : List Char} (h : ∀ c ∈ cs, c.toNat ≤ 0xA0) :
    measure cs = ((cs.length : Int), ({} : Context)) := by
  induction cs with
  | nil => rfl
  | cons c cs ih =>
    have hc : c.toNat ≤ 0xA0 := h c (by simp)
    have hs : Context.step {} c = (1, {}) := by simp [Context.step, Context.selected?, hc]
    simp [measure, ih fun d hd => h d (List.mem_cons_of_mem c hd), hs]

theorem columns_of_narrow {cs : List Char} (h : ∀ c ∈ cs, c.toNat ≤ 0xA0) :
    columns cs = cs.length := by
  simp [columns, measure_of_narrow h]

end Gamebook
