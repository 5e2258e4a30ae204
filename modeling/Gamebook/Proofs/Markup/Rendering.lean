import Gamebook.Proofs.Markup.Expanding

namespace Gamebook

namespace Markup

/-- A reference shows the variable's value, the number of items held, or itself. -/
inductive ReferenceShown (p : Progress) : List Char → List Char → Prop
  | value {name : List Char} {v : Value} (hv : p.valueOf? (String.ofList name) = some v) :
    ReferenceShown p name v.display.toList
  | count (hv : p.valueOf? (String.ofList inventoryCount) = none) :
    ReferenceShown p inventoryCount (Decimal.numerals p.inventory.length)
  | source {name : List Char} (hv : p.valueOf? (String.ofList name) = none)
    (hname : name ≠ inventoryCount) : ReferenceShown p name (Atom.reference name).source

/-- Only a group of options draws, and it draws once. -/
inductive Atom.Shown (strip : Bool) (p : Progress) :
    Generator → Atom → List Char → Generator → Prop
  | literal (g : Generator) (c : Char) : Shown strip p g (.literal c) [c] g
  | reference {g : Generator} {name out : List Char} (h : ReferenceShown p name out) :
    Shown strip p g (.reference name) out g
  | random {g next : Generator} {first : List Char} {others : List (List Char)}
    {i : Fin (first :: others).length}
    (hdraw : g.choose (first :: others).length (Nat.zero_lt_succ _) = (i, next)) :
    Shown strip p g (.random first others) ((first :: others).get i) next
  | stripped {g : Generator} {closing : Bool} (hstrip : strip = true) :
    Shown strip p g (.marker closing) [] g
  | opening {g : Generator} {out : List Char} (hstrip : strip = false)
    (h : ReferenceShown p typewriter out) : Shown strip p g (.marker false) out g
  | closing {g : Generator} (hstrip : strip = false) :
    Shown strip p g (.marker true) (Atom.marker true).source g

section ShownAll

variable {α : Type u} (shown : Generator → α → List Char → Generator → Prop)

inductive ShownAll : Generator → List α → List Char → Generator → Prop
  | nil (g : Generator) : ShownAll g [] [] g
  | cons {g mid next : Generator} {a : α} {as : List α} {out outs : List Char}
    (h : shown g a out mid) (hs : ShownAll mid as outs next) :
    ShownAll g (a :: as) (out ++ outs) next

variable {shown}

/-- The generator left behind by one is the one that the next begins with. -/
theorem shownAll_iff {render : Generator → α → List Char × Generator}
    {renderAll : Generator → List α → List Char × Generator} (hall : ∀ g, renderAll g [] = ([], g))
    (hcons : ∀ g a as, renderAll g (a :: as) = ((render g a).1 ++ (renderAll (render g a).2 as).1,
      (renderAll (render g a).2 as).2))
    (hshown : ∀ g a out next, shown g a out next ↔ render g a = (out, next)) (g : Generator)
    (as : List α) (out : List Char) (next : Generator) :
    ShownAll shown g as out next ↔ renderAll g as = (out, next) := by
  constructor
  · intro h
    induction h with
    | nil => exact hall _
    | cons h _ ih => rw [hcons, (hshown _ _ _ _).mp h, ih]
  · intro h
    induction as generalizing g out with
    | nil =>
      rw [hall] at h
      cases h
      exact ShownAll.nil _
    | cons a as ih =>
      rw [hcons] at h
      cases h
      exact ShownAll.cons ((hshown _ _ _ _).mpr rfl) (ih _ _ rfl)

end ShownAll

/-- A block whose variable is not true shows nothing and draws nothing, whatever its body holds. -/
inductive Piece.Shown (strip : Bool) (p : Progress) :
    Generator → Piece → List Char → Generator → Prop
  | atom {g next : Generator} {a : Atom} {out : List Char} (h : a.Shown strip p g out next) :
    Shown strip p g (.atom a) out next
  | body {g next : Generator} {name out : List Char} {body : List Atom}
    (htrue : isSetTrue p name = true)
    (h : ShownAll (fun g a => Atom.Shown strip p g a) g body out next) :
    Shown strip p g (.block name body) out next
  | nothing {g : Generator} {name : List Char} {body : List Atom}
    (hfalse : isSetTrue p name = false) : Shown strip p g (.block name body) [] g

theorem referenceShown_iff (p : Progress) (name out : List Char) :
    ReferenceShown p name out ↔ referenceText p name = out := by
  unfold referenceText
  constructor
  · intro h
    cases h with
    | value hv => rw [hv]
    | count hv => rw [hv]; exact if_pos rfl
    | source hv hname => rw [hv]; exact if_neg hname
  · rintro rfl
    cases hv : p.valueOf? (String.ofList name) with
    | some v => exact .value hv
    | none =>
      by_cases hname : name = inventoryCount
      · subst hname
        exact .count hv
      · simp only [if_neg hname]
        exact .source hv hname

theorem Atom.shown_iff (strip : Bool) (p : Progress) (g : Generator) (a : Atom) (out : List Char)
    (next : Generator) : a.Shown strip p g out next ↔ a.render strip p g = (out, next) := by
  constructor
  · intro h
    cases h with
    | literal => rfl
    | reference h => rw [Atom.render, (referenceShown_iff p _ _).mp h]
    | random hdraw => rw [Atom.render, optionText, hdraw]; rfl
    | stripped hstrip => rw [hstrip]; rfl
    | opening hstrip h => rw [hstrip, ← (referenceShown_iff p _ _).mp h]; rfl
    | closing hstrip => rw [hstrip]; rfl
  · intro h
    cases a with
    | literal c => cases h; exact .literal g c
    | reference name => cases h; exact .reference ((referenceShown_iff p _ _).mpr rfl)
    | random first others => cases h; exact .random rfl
    | marker closing =>
      cases strip with
      | true => cases h; exact .stripped rfl
      | false =>
        cases closing with
        | false => cases h; exact .opening rfl ((referenceShown_iff p _ _).mpr rfl)
        | true => cases h; exact .closing rfl

theorem renderAtoms_iff (strip : Bool) (p : Progress) (g : Generator) (as : List Atom)
    (out : List Char) (next : Generator) :
    ShownAll (fun g a => Atom.Shown strip p g a) g as out next ↔
      renderAtoms strip p g as = (out, next) :=
  shownAll_iff (fun _ => rfl) (fun _ _ _ => rfl) (Atom.shown_iff strip p) g as out next

theorem Piece.shown_iff (strip : Bool) (p : Progress) (g : Generator) (piece : Piece)
    (out : List Char) (next : Generator) :
    piece.Shown strip p g out next ↔ piece.render strip p g = (out, next) := by
  constructor
  · intro h
    cases h with
    | atom h => exact (Atom.shown_iff strip p g _ out next).mp h
    | body htrue h => rw [Piece.render, if_pos htrue, (renderAtoms_iff strip p g _ out next).mp h]
    | nothing hfalse => rw [Piece.render, if_neg (by simp [hfalse])]
  · intro h
    cases piece with
    | atom a => exact .atom ((Atom.shown_iff strip p g a out next).mpr h)
    | block name body =>
      rw [Piece.render] at h
      cases htrue : isSetTrue p name with
      | true =>
        rw [if_pos htrue] at h
        exact .body htrue ((renderAtoms_iff strip p g body out next).mpr h)
      | false =>
        rw [if_neg (by simp [htrue])] at h
        cases h
        exact .nothing htrue

theorem renderPieces_iff (strip : Bool) (p : Progress) (g : Generator) (ps : List Piece)
    (out : List Char) (next : Generator) :
    ShownAll (fun g piece => Piece.Shown strip p g piece) g ps out next ↔
      renderPieces strip p g ps = (out, next) :=
  shownAll_iff (fun _ => rfl) (fun _ _ _ => rfl) (Piece.shown_iff strip p) g ps out next

def Atom.draws : Atom → Bool
  | random _ _ => true
  | _ => false

def Piece.draws : Piece → Bool
  | atom a => a.draws
  | block _ body => body.any Atom.draws

section Undrawn

variable {strip : Bool} {p : Progress} {g : Generator}

theorem Atom.render_next {a : Atom} (h : a.draws = false) : (a.render strip p g).2 = g := by
  cases a with
  | literal c => rfl
  | reference name => rfl
  | random first others => cases h
  | marker closing => cases strip <;> cases closing <;> rfl

theorem renderAtoms_next {as : List Atom} (h : as.any Atom.draws = false) :
    (renderAtoms strip p g as).2 = g := by
  induction as with
  | nil => rfl
  | cons a as ih =>
    rw [List.any_cons, Bool.or_eq_false_iff] at h
    simp only [renderAtoms, Atom.render_next h.1, ih h.2]

theorem Piece.render_next {piece : Piece} (h : piece.draws = false) :
    (piece.render strip p g).2 = g := by
  cases piece with
  | atom a => exact Atom.render_next h
  | block name body =>
    rw [Piece.render]
    split
    · exact renderAtoms_next h
    · rfl

theorem renderPieces_next {ps : List Piece} (h : ps.any Piece.draws = false) :
    (renderPieces strip p g ps).2 = g := by
  induction ps with
  | nil => rfl
  | cons piece ps ih =>
    rw [List.any_cons, Bool.or_eq_false_iff] at h
    simp only [renderPieces, Piece.render_next h.1, ih h.2]

/-- A text without groups of options leaves chance as it is. -/
theorem render_next {text : String} (h : (pieces text.toList).any Piece.draws = false) :
    (render strip text p g).2 = g :=
  renderPieces_next h

end Undrawn

/-- Each text has one reading. Its pieces are written as the text is, and whatever the progress, the flag
and the generator are, the text is rendered as its pieces are shown, also in a single pass over it. -/
theorem render_by_pieces (text : String) : ∃ ps : List Piece,
    (∀ qs, Piece.Reads text.toList qs ↔ qs = ps) ∧ ps.flatMap Piece.source = text.toList ∧
    ∀ (strip : Bool) (p : Progress) (g : Generator),
      (∀ (out : String) (next : Generator), render strip text p g = (out, next) ↔
        ShownAll (fun g piece => Piece.Shown strip p g piece) g ps out.toList next) ∧
      scan strip p text.toList g =
        ((render strip text p g).1.toList, (render strip text p g).2) := by
  refine ⟨pieces text.toList, reads_iff_eq_pieces _, pieces_source _, fun strip p g => ?_⟩
  have hrender : render strip text p g = (String.ofList (renderPieces strip p g
      (pieces text.toList)).1, (renderPieces strip p g (pieces text.toList)).2) := rfl
  constructor
  · intro out next
    rw [renderPieces_iff, hrender, Prod.ext_iff, Prod.ext_iff]
    exact and_congr_left fun _ => by rw [← String.toList_inj, String.toList_ofList]
  · rw [scan_eq_renderPieces, hrender, String.toList_ofList]

end Markup

end Gamebook
