import Gamebook.Proofs.Markup.Rendering

namespace Gamebook

namespace Markup

/-- How a block begins. -/
def opener : List Char := '{' :: ifWord

/-- Behind every opening brace there is a closing one. -/
def BracesClosed (cs : List Char) : Prop := ∀ rest, '{' :: rest <:+ cs → '}' ∈ rest

instance (cs : List Char) : Decidable (BracesClosed cs) :=
  decidable_of_iff (∀ s ∈ cs.tails, s.head? = some '{' → '}' ∈ s.tail)
    ⟨fun h rest hs => h _ ((List.mem_tails _ _).mpr hs) rfl, fun h s hs hhead => by
      obtain ⟨rest, rfl⟩ := List.head?_eq_some_iff.mp hhead
      exact h rest ((List.mem_tails _ _).mp hs)⟩

theorem BracesClosed.of_suffix {cs ds : List Char} (h : BracesClosed cs) (hs : ds <:+ cs) :
    BracesClosed ds := fun rest hrest => h rest (hrest.trans hs)

/-- A pair of braces that begins in front of a closing brace ends with it. -/
theorem braced_prefix_of_closed {inner cs rest : List Char} (hinner : '}' ∉ inner) (hcs : '}' ∈ cs)
    (h : braced inner <+: '{' :: (cs ++ rest)) : braced inner <+: '{' :: cs := by
  obtain ⟨before, after, rfl, hbefore⟩ := List.eq_append_cons_of_mem hcs
  obtain ⟨_, hbehind⟩ := h
  have hleft : cut? ['}'] (before ++ '}' :: after ++ rest) = some (before, after ++ rest) :=
    cut?_brace_iff.mpr ⟨by simp, hbefore⟩
  have hright : cut? ['}'] (before ++ '}' :: after ++ rest) = some (inner, _) :=
    cut?_brace_iff.mpr ⟨by simpa [braced] using hbehind.symm, hinner⟩
  obtain rfl : before = inner := congrArg Prod.fst (Option.some.inj (hleft.symm.trans hright))
  exact ⟨after, by simp [braced]⟩

/-- No piece that begins in a text with closed braces and without blocks ends behind the text. -/
theorem Piece.Directive.prefix_of_append {piece : Piece} (hd : piece.Directive) {c : Char}
    {cs rest : List Char} (hblock : ¬opener <:+: c :: cs) (hclosed : BracesClosed (c :: cs))
    (h : piece.source <+: c :: cs ++ rest) : piece.source <+: c :: cs := by
  have hbrace : ∀ inner, '}' ∉ inner → braced inner <+: c :: cs ++ rest → braced inner <+: c :: cs := by
    intro inner hinner hp
    obtain rfl : '{' = c := (List.cons_prefix_cons.mp hp).1
    exact braced_prefix_of_closed hinner (hclosed cs (List.suffix_refl _)) hp
  cases hd with
  | atom ha =>
    obtain ⟨inner, hs, hinner, -⟩ := ha.found
    have hsource : (Piece.atom _).source = braced inner := hs
    rw [hsource] at h ⊢
    exact hbrace inner hinner h
  | @block name _ body hname =>
    have hp : braced (ifWord ++ name) <+: (Piece.block name body).source := by simp [Piece.source]
    have hin := hbrace _ (brace_notMem_block hname) (hp.trans h)
    have hopener : opener <+: braced (ifWord ++ name) := by simp [braced, opener]
    exact absurd (hopener.trans hin).isInfix hblock

theorem Piece.Reads.append {as bs : List Piece} {cs ds : List Char} (hcs : Piece.Reads cs as)
    (hds : Piece.Reads ds bs) (hblock : ¬opener <:+: cs) (hclosed : BracesClosed cs) :
    Piece.Reads (cs ++ ds) (as ++ bs) := by
  induction hcs with
  | nil => exact hds
  | @directive a rest as ha _ ih =>
    have hsuffix : rest <:+ a.source ++ rest := List.suffix_append _ _
    rw [List.append_assoc]
    exact .directive ha (ih (fun h => hblock (h.trans hsuffix.isInfix)) (hclosed.of_suffix hsuffix))
  | @literal c rest as hc _ ih =>
    -- What stands behind could complete a directive here only if this brace were left open.
    refine .literal (fun piece hd hp => hc piece hd (hd.prefix_of_append hblock hclosed hp)) ?_
    exact ih (fun h => hblock (List.infix_cons h)) (hclosed.of_suffix (List.suffix_cons c rest))

theorem pieces_append {cs : List Char} (hblock : ¬opener <:+: cs) (hclosed : BracesClosed cs)
    (ds : List Char) : pieces (cs ++ ds) = pieces cs ++ pieces ds :=
  ((reads_iff_eq_pieces _ _).mp (((reads_iff_eq_pieces cs _).mpr rfl).append
    ((reads_iff_eq_pieces ds _).mpr rfl) hblock hclosed)).symm

/-- A block takes its body up to the end mark and nothing behind it. -/
theorem pieces_block {name body : List Char} (hname : isIdentifier name = true)
    (hend : ¬endMark <:+: body) (rest : List Char) :
    pieces (braced (ifWord ++ name) ++ body ++ endMark ++ rest) =
      .block name (atoms body) :: pieces rest := by
  have hsource : (Piece.block name (atoms body)).source ++ rest =
      braced (ifWord ++ name) ++ body ++ endMark ++ rest := by rw [Piece.source, atoms_source]
  have hreads : Piece.Reads _ (.block name (atoms body) :: pieces rest) :=
    .directive (.block hname ((reads_iff_eq_atoms body _).mpr rfl) hend)
      ((reads_iff_eq_pieces rest _).mpr rfl)
  rw [← hsource]
  exact ((reads_iff_eq_pieces _ _).mp hreads).symm

/-- What the body of a block is made of. The openers in it are kept as they are written. -/
inductive Part
  | atom (a : Atom)
  | opener
deriving DecidableEq

namespace Part

def source : Part → List Char
  | atom a => a.source
  | opener => Markup.opener

inductive Directive : Part → Prop
  | atom {a : Atom} (h : a.Directive) : Directive (.atom a)
  | opener : Directive .opener

/-- A body read from left to right, where an opener is a thing of its own. -/
abbrev Reads : List Char → List Part → Prop :=
  Markup.Reads source (fun c => .atom (.literal c)) Directive

def atoms : Part → List Atom
  | atom a => [a]
  | opener => Markup.opener.map .literal

end Part

theorem Part.exists_reads (cs : List Char) : ∃ parts, Part.Reads cs parts := by
  refine Markup.exists_reads (fun part hd => ?_) cs
  cases hd with
  | atom h =>
    obtain ⟨inner, hs, -⟩ := h.found
    exact fun hnil => List.cons_ne_nil _ _ (hs.symm.trans hnil)
  | opener => exact List.cons_ne_nil _ _

theorem Atom.Directive.not_prefix_opener {a : Atom} (ha : a.Directive) (rest : List Char) :
    ¬a.source <+: opener ++ rest := by
  intro hp
  obtain ⟨inner, hs, -, -, hif⟩ := ha.found
  rw [hs] at hp
  have hinner : inner ++ ['}'] <+: ifWord ++ rest := (List.cons_prefix_cons.mp hp).2
  -- The braces would have to close within the opener, or to hold it.
  rcases List.prefix_or_prefix_of_prefix hinner (List.prefix_append ifWord rest) with hshort | hlong
  · have hmem : '}' ∈ ifWord := hshort.subset (by simp)
    exact absurd hmem (by decide)
  · rcases List.prefix_concat_iff.mp hlong with heq | hprefix
    · have hmem : '}' ∈ ifWord := by rw [heq]; simp
      exact absurd hmem (by decide)
    · exact hif hprefix

theorem Atom.Reads.plain {c : Char} (hc : c ≠ '{') {cs : List Char} {as : List Atom}
    (h : Atom.Reads cs as) : Atom.Reads (c :: cs) (.literal c :: as) := by
  refine .literal (fun a ha hp => ?_) h
  obtain ⟨inner, hs, -⟩ := ha.found
  rw [hs] at hp
  exact hc (List.cons_prefix_cons.mp hp).1.symm

/-- Inside of a block an opener is so many characters. -/
theorem Atom.Reads.opener {rest : List Char} {as : List Atom} (h : Atom.Reads rest as) :
    Atom.Reads (opener ++ rest) (opener.map .literal ++ as) := by
  have hword : Atom.Reads (ifWord ++ rest) (ifWord.map .literal ++ as) :=
    ((h.plain (by decide)).plain (by decide)).plain (by decide)
  exact .literal (fun a ha => ha.not_prefix_opener rest) hword

theorem Part.Reads.atoms_eq {cs : List Char} {parts : List Part} (h : Part.Reads cs parts) :
    parts.flatMap Part.atoms = Markup.atoms cs := by
  refine (reads_iff_eq_atoms cs _).mp ?_
  induction h with
  | nil => exact .nil
  | @directive part _ _ hd _ ih =>
    cases hd with
    | atom ha => exact .directive ha ih
    | opener => exact ih.opener
  | literal hc _ ih => exact .literal (fun a ha => hc (.atom a) (.atom ha)) ih

/-- A text without openers is read alike inside of a block and outside. -/
theorem pieces_eq_atoms {cs : List Char} (h : ¬opener <:+: cs) :
    pieces cs = (atoms cs).map .atom := by
  refine ((reads_iff_eq_pieces cs _).mp ?_).symm
  have hreads : Atom.Reads cs (atoms cs) := (reads_iff_eq_atoms cs _).mpr rfl
  generalize atoms cs = as at hreads ⊢
  induction hreads with
  | nil => exact .nil
  | @directive a rest _ ha _ ih =>
    have hsuffix : rest <:+: a.source ++ rest := (List.suffix_append _ _).isInfix
    exact .directive (.atom ha) (ih fun hin => h (hin.trans hsuffix))
  | literal hc _ ih =>
    refine .literal (fun piece hd hp => ?_) (ih fun hin => h (List.infix_cons hin))
    cases hd with
    | atom ha => exact hc _ ha hp
    | @block name _ body =>
      have hopener : opener <+: (Piece.block name body).source := by
        simp [Piece.source, braced, opener]
      exact h (hopener.trans hp).isInfix

section Rendering

variable (strip : Bool) (p : Progress)

theorem renderPieces_append (xs ys : List Piece) (g : Generator) :
    renderPieces strip p g (xs ++ ys) = ((renderPieces strip p g xs).1 ++
      (renderPieces strip p (renderPieces strip p g xs).2 ys).1,
      (renderPieces strip p (renderPieces strip p g xs).2 ys).2) := by
  induction xs generalizing g with
  | nil => rfl
  | cons x xs ih => simp [renderPieces, ih]

theorem renderPieces_atoms (as : List Atom) (g : Generator) :
    renderPieces strip p g (as.map .atom) = renderAtoms strip p g as := by
  induction as generalizing g with
  | nil => rfl
  | cons a as ih => simp [renderPieces, renderAtoms, Piece.render, ih]

end Rendering

/-- A block as it is written. -/
def blockText (name body : String) : String := "\x7bif:" ++ name ++ "\x7d" ++ body ++ "\x7b/if\x7d"

theorem toList_blockText (name body : String) : (blockText name body).toList =
    braced (ifWord ++ name.toList) ++ body.toList ++ endMark := by
  simp [blockText, braced, ifWord, endMark]

def renderParts (strip : Bool) (p : Progress) (g : Generator) (parts : List Part) :
    String × Generator :=
  let (out, next) := renderAtoms strip p g (parts.flatMap Part.atoms)
  (String.ofList out, next)

/-- A block behind a text with closed braces and without blocks. Rendering goes through that text, then through the
body if its variable is true, and then through what stands behind the end mark; the openers in the body stay as
they are written, and whatever braces it leaves open nothing behind the end mark is read with it. -/
theorem render_block {a name body b : String} (hblock : ¬opener <:+: a.toList)
    (hclosed : BracesClosed a.toList) (hname : isIdentifier name.toList = true)
    (hend : ¬endMark <:+: body.toList) :
    (∃ parts, Part.Reads body.toList parts) ∧
    ∀ parts, Part.Reads body.toList parts → ∀ (strip : Bool) (p : Progress) (g : Generator),
      let before := render strip a p g
      let shown := if isSetTrue p name.toList then renderParts strip p before.2 parts
        else ("", before.2)
      let behind := render strip b p shown.2
      render strip (a ++ blockText name body ++ b) p g =
        (before.1 ++ shown.1 ++ behind.1, behind.2) ∧
      (¬opener <:+: body.toList → ∀ g, renderParts strip p g parts = render strip body p g) := by
  refine ⟨Part.exists_reads _, fun parts hparts strip p g => ?_⟩
  have htext : pieces (a ++ blockText name body ++ b).toList =
      pieces a.toList ++ .block name.toList (atoms body.toList) :: pieces b.toList := by
    rw [String.toList_append, String.toList_append, toList_blockText, List.append_assoc,
      pieces_append hblock hclosed, pieces_block hname hend]
  have hparts : ∀ g, renderParts strip p g parts =
      (String.ofList (renderAtoms strip p g (atoms body.toList)).1,
        (renderAtoms strip p g (atoms body.toList)).2) := by
    intro g
    rw [renderParts, hparts.atoms_eq]
  constructor
  · rw [render, htext, renderPieces_append, renderPieces, Piece.render]
    cases htrue : isSetTrue p name.toList with
    | true => simp [render, hparts, String.ofList_append, String.append_assoc]
    | false => simp [render, String.ofList_append]
  · intro hplain g
    rw [hparts, render, pieces_eq_atoms hplain, renderPieces_atoms]

def greeting : String := "Hail, \x7bname\x7d. "

/-- It leaves a brace open and has an opener in it. -/
def boast : String := "You \x7bwield \x7bif:sharp\x7d steel\x7b"

def farewell : String := "\x7b/if\x7d Farewell, \x7bname\x7d."

def knight : Progress where
  node := "hall"
  values := (Dictionary.empty.insert "name" (.text "Kay")).insert "armed" (.flag true)
  inventory := []
  history := ["hall"]
  achievements := []

theorem render_block_hail : ¬opener <:+: greeting.toList ∧ BracesClosed greeting.toList ∧
    isIdentifier "armed".toList = true ∧ ¬endMark <:+: boast.toList ∧
    render false (greeting ++ blockText "armed" boast ++ farewell) knight (.ofSeed 7) =
      ("Hail, Kay. You \x7bwield \x7bif:sharp\x7d steel\x7b\x7b/if\x7d Farewell, Kay.", .ofSeed 7) ∧
    render false (greeting ++ blockText "tired" boast ++ farewell) knight (.ofSeed 7) =
      ("Hail, Kay. \x7b/if\x7d Farewell, Kay.", .ofSeed 7) := by
  have hblock : ¬opener <:+: greeting.toList := by decide +kernel
  have hclosed : BracesClosed greeting.toList := by decide +kernel
  have harmed : isIdentifier "armed".toList = true := by decide
  have htired : isIdentifier "tired".toList = true := by decide
  have hend : ¬endMark <:+: boast.toList := by decide +kernel
  obtain ⟨⟨parts, hparts⟩, hshown⟩ := render_block (b := farewell) hblock hclosed harmed hend
  obtain ⟨-, hskipped⟩ := render_block (b := farewell) hblock hclosed htired hend
  have hgreeting : render false greeting knight (.ofSeed 7) = ("Hail, Kay. ", .ofSeed 7) :=
    Prod.ext (by decide +kernel) (render_next (by decide +kernel))
  have hfarewell : render false farewell knight (.ofSeed 7) =
      ("\x7b/if\x7d Farewell, Kay.", .ofSeed 7) :=
    Prod.ext (by decide +kernel) (render_next (by decide +kernel))
  have hbody : renderParts false knight (.ofSeed 7) parts =
      ("You \x7bwield \x7bif:sharp\x7d steel\x7b", .ofSeed 7) := by
    rw [renderParts, hparts.atoms_eq]
    exact Prod.ext (by decide +kernel) (renderAtoms_next (by decide +kernel))
  refine ⟨hblock, hclosed, harmed, hend, ?_, ?_⟩
  · rw [(hshown parts hparts false knight (.ofSeed 7)).1, hgreeting, if_pos (by decide +kernel), hbody,
      hfarewell]
    rfl
  · rw [(hskipped parts hparts false knight (.ofSeed 7)).1, hgreeting, if_neg (by decide +kernel),
      hfarewell]
    rfl

end Markup

end Gamebook
