import Gamebook.Proofs.Markup.Parse

namespace Gamebook

namespace Markup

inductive Atom.Directive : Atom → Prop
  | reference {name : List Char} (h : isIdentifier name = true) (hne : name ≠ typewriter) :
    Directive (.reference name)
  | random {first : List Char} {others : List (List Char)}
    (h : ∀ option ∈ first :: others, '|' ∉ option ∧ '}' ∉ option) :
    Directive (.random first others)
  | marker (closing : Bool) : Directive (.marker closing)

/-- The reading of a block's body, in which no block begins. -/
abbrev Atom.Reads : List Char → List Atom → Prop :=
  Markup.Reads Atom.source Atom.literal Atom.Directive

/-- A block's body holds no end mark, so the first one closes it. -/
inductive Piece.Directive : Piece → Prop
  | atom {a : Atom} (h : a.Directive) : Directive (.atom a)
  | block {name text : List Char} {body : List Atom} (hname : isIdentifier name = true)
    (hbody : Atom.Reads text body) (hend : ¬endMark <:+: text) : Directive (.block name body)

abbrev Piece.Reads : List Char → List Piece → Prop :=
  Markup.Reads Piece.source (fun c => .atom (.literal c)) Piece.Directive

theorem notMem_of_isIdentifier {name : List Char} (h : isIdentifier name = true) {c : Char}
    (hc : (c.isAlphanum || c == '_') = false) : c ∉ name := by
  intro hmem
  simp only [isIdentifier, Bool.and_eq_true, List.all_eq_true] at h
  simp [h.2 c hmem] at hc

theorem brace_notMem_block {name : List Char} (h : isIdentifier name = true) :
    '}' ∉ ifWord ++ name := fun hmem =>
  (List.mem_append.mp hmem).elim (by decide) (notMem_of_isIdentifier h (by decide))

theorem braced_inj {inner inner' : List Char} (h : braced inner = braced inner') :
    inner = inner' := by
  simpa [braced] using h

theorem cut?_brace_iff {cs inner rest : List Char} :
    cut? ['}'] cs = some (inner, rest) ↔ cs = inner ++ '}' :: rest ∧ '}' ∉ inner :=
  cut?_singleton_iff

theorem cut?_endMark_iff {cs body rest : List Char} :
    cut? endMark cs = some (body, rest) ↔ cs = body ++ endMark ++ rest ∧ ¬endMark <:+: body :=
  cut?_eq_some_iff (by decide)

theorem atomAt?_of_cut? {cs inner rest : List Char} (hc : cut? ['}'] cs = some (inner, rest)) :
    atomAt? cs = (atomOf? inner).map fun a => (a, rest) := by
  cases ha : atomOf? inner <;> simp [atomAt?, hc, ha]

theorem pieceAt?_of_cut? {cs inner rest : List Char} (hc : cut? ['}'] cs = some (inner, rest)) :
    pieceAt? cs = if ifWord.isPrefixOf inner then
        if isIdentifier (inner.drop ifWord.length) then
          (cut? endMark rest).map fun q => (.block (inner.drop ifWord.length) (atoms q.1), q.2)
        else none
      else (atomOf? inner).map fun a => (.atom a, rest) := by
  unfold pieceAt?
  simp only [hc, Option.bind_eq_bind, Option.bind_some]
  split
  · split
    · cases cut? endMark rest <;> rfl
    · rfl
  · cases atomOf? inner <;> rfl

theorem directive_of_atomOf? {inner : List Char} {a : Atom} (hb : '}' ∉ inner)
    (h : atomOf? inner = some a) : a.Directive ∧ a.source = braced inner := by
  unfold atomOf? at h
  split at h
  next hr =>
    obtain ⟨options, rfl⟩ := List.isPrefixOf_iff_prefix.mp hr
    cases Option.some.inj h
    rw [List.drop_left]
    have hjoin := join_split '|' options
    have hbraces : '}' ∉ options := fun hmem => hb (List.mem_append_right _ hmem)
    rw [← hjoin, notMem_join (by decide)] at hbraces
    exact ⟨.random fun option ho => ⟨separator_notMem_split option ho, hbraces option ho⟩,
      by simp [Atom.source, hjoin]⟩
  next =>
    split at h
    next he => cases Option.some.inj h; exact ⟨.marker false, by rw [he]; rfl⟩
    next hne =>
      split at h
      next he => cases Option.some.inj h; exact ⟨.marker true, by rw [he]; rfl⟩
      next =>
        split at h
        next hid => cases Option.some.inj h; exact ⟨.reference hid hne, rfl⟩
        next => simp at h

/-- A directive stands between braces, is found there, and is no block. -/
theorem Atom.Directive.found {a : Atom} (h : a.Directive) : ∃ inner, a.source = braced inner ∧
    '}' ∉ inner ∧ atomOf? inner = some a ∧ ¬ifWord <+: inner := by
  cases h with
  | @reference name hid hne =>
    have hcolon := notMem_of_isIdentifier hid (c := ':') (by decide)
    have hslash := notMem_of_isIdentifier hid (c := '/') (by decide)
    have hbrace := notMem_of_isIdentifier hid (c := '}') (by decide)
    have hno : ∀ word : List Char, ':' ∈ word → ¬word <+: name := fun word hw hp =>
      hcolon (hp.subset hw)
    have hclosing : name ≠ '/' :: typewriter := by
      rintro rfl
      simp at hslash
    refine ⟨name, rfl, hbrace, ?_, hno ifWord (by decide)⟩
    simp [atomOf?, hno randomWord (by decide), hne, hclosing, hid]
  | @random first others hopts =>
    refine ⟨randomWord ++ join '|' first others, rfl, ?_, ?_, by simp [ifWord, randomWord]⟩
    · have hjoin : '}' ∉ join '|' first others :=
        (notMem_join (by decide)).mpr fun option ho => (hopts option ho).2
      exact fun hmem => (List.mem_append.mp hmem).elim (by decide) hjoin
    · have hsplit := split_join fun option ho => (hopts option ho).1
      have hpre : randomWord.isPrefixOf (randomWord ++ join '|' first others) = true :=
        List.isPrefixOf_iff_prefix.mpr (List.prefix_append _ _)
      simp [atomOf?, hpre, hsplit]
  | marker closing =>
    cases closing with
    | false => exact ⟨typewriter, rfl, by decide, by decide, by decide⟩
    | true => exact ⟨'/' :: typewriter, rfl, by decide, by decide, by decide⟩

theorem atomAt?_eq_some_iff (cs : List Char) (a : Atom) (rest : List Char) :
    atomAt? cs = some (a, rest) ↔ a.Directive ∧ '{' :: cs = a.source ++ rest := by
  constructor
  · intro h
    obtain ⟨⟨inner, rest'⟩, hc, _⟩ := Option.bind_eq_some_iff.mp h
    rw [atomAt?_of_cut? hc] at h
    obtain ⟨a', ha, hout⟩ := Option.map_eq_some_iff.mp h
    cases hout
    obtain ⟨rfl, hb⟩ := cut?_brace_iff.mp hc
    obtain ⟨hd, hs⟩ := directive_of_atomOf? hb ha
    exact ⟨hd, by simp [hs, braced]⟩
  · rintro ⟨hd, heq⟩
    obtain ⟨inner, hs, hb, ha, _⟩ := hd.found
    have hcs : cs = inner ++ '}' :: rest := by simpa [hs, braced] using heq
    rw [atomAt?_of_cut? (cut?_brace_iff.mpr ⟨hcs, hb⟩), ha]
    rfl

/-- The body of a block is read in exactly one way. -/
theorem reads_iff_eq_atoms (cs : List Char) (as : List Atom) :
    Atom.Reads cs as ↔ as = atoms cs := by
  refine reads_iff_of_parse ?_ ?_ atomAt?_eq_some_iff ?_ cs as
  · rw [atoms]
  · intro c cs
    rw [atoms]
    split
    · split <;> simp_all
    · rfl
  · intro a ha
    obtain ⟨inner, hs, _⟩ := ha.found
    exact ⟨_, hs⟩

theorem atoms_source (cs : List Char) : (atoms cs).flatMap Atom.source = cs :=
  ((reads_iff_eq_atoms cs _).mpr rfl).flatMap_source fun _ => rfl

theorem pieceAt?_eq_some_iff (cs : List Char) (piece : Piece) (rest : List Char) :
    pieceAt? cs = some (piece, rest) ↔ piece.Directive ∧ '{' :: cs = piece.source ++ rest := by
  constructor
  · intro h
    obtain ⟨⟨inner, rest'⟩, hc, _⟩ := Option.bind_eq_some_iff.mp h
    rw [pieceAt?_of_cut? hc] at h
    obtain ⟨rfl, hb⟩ := cut?_brace_iff.mp hc
    split at h
    next hif =>
      obtain ⟨name, rfl⟩ := List.isPrefixOf_iff_prefix.mp hif
      rw [List.drop_left] at h
      split at h
      next hid =>
        obtain ⟨⟨body, rest''⟩, he, hout⟩ := Option.map_eq_some_iff.mp h
        cases hout
        obtain ⟨rfl, hend⟩ := cut?_endMark_iff.mp he
        refine ⟨.block hid ((reads_iff_eq_atoms body _).mpr rfl) hend, ?_⟩
        simp [Piece.source, atoms_source, braced]
      next => simp at h
    next =>
      obtain ⟨a, ha, hout⟩ := Option.map_eq_some_iff.mp h
      cases hout
      obtain ⟨hd, hs⟩ := directive_of_atomOf? hb ha
      exact ⟨.atom hd, by simp [Piece.source, hs, braced]⟩
  · rintro ⟨hd, heq⟩
    cases hd with
    | @atom a ha =>
      obtain ⟨inner, hs, hb, ha, hif⟩ := ha.found
      have hcs : cs = inner ++ '}' :: rest := by simpa [Piece.source, hs, braced] using heq
      rw [pieceAt?_of_cut? (cut?_brace_iff.mpr ⟨hcs, hb⟩),
        if_neg (mt List.isPrefixOf_iff_prefix.mp hif), ha]
      rfl
    | @block name text body hid hbody hend =>
      obtain rfl := (reads_iff_eq_atoms text body).mp hbody
      have hb := brace_notMem_block hid
      have hcs : cs = (ifWord ++ name) ++ '}' :: (text ++ endMark ++ rest) := by
        simpa [Piece.source, braced, atoms_source] using heq
      have he : cut? endMark (text ++ endMark ++ rest) = some (text, rest) :=
        cut?_endMark_iff.mpr ⟨rfl, hend⟩
      rw [pieceAt?_of_cut? (cut?_brace_iff.mpr ⟨hcs, hb⟩),
        if_pos (List.isPrefixOf_iff_prefix.mpr (List.prefix_append _ _)), List.drop_left,
        if_pos hid, he]
      rfl

/-- A text is read in exactly one way. -/
theorem reads_iff_eq_pieces (cs : List Char) (ps : List Piece) :
    Piece.Reads cs ps ↔ ps = pieces cs := by
  refine reads_iff_of_parse ?_ ?_ pieceAt?_eq_some_iff ?_ cs ps
  · rw [pieces]
  · intro c cs
    rw [pieces]
    split
    · split <;> simp_all
    · rfl
  · intro piece hd
    cases hd with
    | atom ha =>
      obtain ⟨inner, hs, _⟩ := ha.found
      exact ⟨_, hs⟩
    | block => exact ⟨_, rfl⟩

theorem pieces_source (cs : List Char) : (pieces cs).flatMap Piece.source = cs :=
  ((reads_iff_eq_pieces cs _).mpr rfl).flatMap_source fun _ => rfl

end Markup

end Gamebook
