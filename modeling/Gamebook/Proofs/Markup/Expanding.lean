import Gamebook.Proofs.Markup.Scan

namespace Gamebook

namespace Markup

theorem notMem_brace_of_isIdentifier {name : List Char} (h : isIdentifier name = true) :
    '{' ∉ name := notMem_of_isIdentifier h (by decide)

/-- What stands between braces expands to its rendering, or stands there as it is written. -/
theorem expand?_of_atomOf? {inner : List Char} {a : Atom} (h : atomOf? inner = some a)
    (strip : Bool) (p : Progress) (g : Generator) :
    expand? strip p inner g = some (a.render strip p g) ∨
      (expand? strip p inner g = none ∧ '{' ∉ inner ∧
        a.render strip p g = (braced inner, g)) := by
  unfold atomOf? at h
  split at h
  next hr =>
    cases Option.some.inj h
    exact Or.inl (by simp [expand?, hr, Atom.render])
  next hr =>
    simp only [expand?, hr, Bool.false_eq_true, if_false]
    split at h
    next he =>
      cases Option.some.inj h
      subst he
      cases strip with
      | true => exact Or.inl (by simp [Atom.render])
      | false =>
        have hid : isIdentifier typewriter = true := by decide
        have hcount : typewriter ≠ inventoryCount := by decide
        cases hv : p.valueOf? (String.ofList typewriter) with
        | some v => exact Or.inl (by simp [Atom.render, referenceText, hid, hv])
        | none => exact Or.inr (by simp [Atom.render, referenceText, hid, hv, hcount]; decide)
    next hne =>
      split at h
      next he =>
        cases Option.some.inj h
        subst he
        cases strip with
        | true => exact Or.inl (by simp [Atom.render])
        | false =>
          have hid : isIdentifier ('/' :: typewriter) = false := by decide
          exact Or.inr (by simp [Atom.render, Atom.source, hid]; decide)
      next hne' =>
        split at h
        next hid =>
          cases Option.some.inj h
          have hb := notMem_brace_of_isIdentifier hid
          cases hv : p.valueOf? (String.ofList inner) with
          | some v => exact Or.inl (by simp [Atom.render, referenceText, hne, hne', hid, hv])
          | none =>
            simp only [Atom.render, referenceText, hne, hne', hid, hv, or_self, and_false, if_false,
              if_true]
            by_cases hcount : inner = inventoryCount
            · exact Or.inl (by rw [if_pos hcount, if_pos hcount])
            · exact Or.inr ⟨if_neg hcount, hb, by rw [if_neg hcount]⟩
        next => simp at h

theorem expand?_of_atomOf?_none {inner : List Char} (h : atomOf? inner = none) (strip : Bool)
    (p : Progress) (g : Generator) : expand? strip p inner g = none := by
  unfold atomOf? at h
  unfold expand?
  split at h
  next => simp at h
  next hr =>
    split at h
    next => simp at h
    next hne =>
      split at h
      next => simp at h
      next hne' =>
        split at h
        next => simp at h
        next hid => simp [hr, hne, hne', hid]

theorem not_ifWord_prefix {inner : List Char} {a : Atom} (hb : '}' ∉ inner)
    (h : atomOf? inner = some a) : ifWord.isPrefixOf inner = false := by
  obtain ⟨hd, hs⟩ := directive_of_atomOf? hb h
  obtain ⟨inner', hs', _, _, hif⟩ := hd.found
  obtain rfl := braced_inj (hs.symm.trans hs')
  exact Bool.eq_false_iff.mpr (mt List.isPrefixOf_iff_prefix.mp hif)

/-- A directive other than a block is scanned alike inside of a block and outside. -/
theorem expands_atom {inner rest : List Char} {a : Atom} (hb : '}' ∉ inner)
    (h : atomOf? inner = some a) (strip : Bool) (p : Progress)
    (renderBody? : Option (List Char → Generator → List Char × Generator)) (g : Generator) :
    Expands Atom.source (fun a g => a.render strip p g) a (inner ++ '}' :: rest) rest g
      (directive? strip p renderBody? ('{' :: (inner ++ '}' :: rest)) g) := by
  have hc : cut? ['}'] (inner ++ '}' :: rest) = some (inner, rest) :=
    cut?_brace_iff.mpr ⟨rfl, hb⟩
  have hif := not_ifWord_prefix hb h
  have hs := (directive_of_atomOf? hb h).2
  rcases expand?_of_atomOf? h strip p g with he | ⟨he, hbrace, hr⟩
  · refine Or.inl ⟨inner.length + 2, ?_, ?_⟩
    · simp only [directive?, List.drop_one, List.tail_cons, hc, hif, he]
      rfl
    · simp [List.drop_append]
  · refine Or.inr ⟨?_, hr.trans (by rw [hs]), inner ++ ['}'], hs, by simp [hbrace], by simp⟩
    simp only [directive?, List.drop_one, List.tail_cons, hc, hif, he]
    rfl

theorem directive?_none_of_atomOf? {cs inner rest : List Char}
    (hc : cut? ['}'] cs = some (inner, rest)) (hif : ifWord.isPrefixOf inner = false)
    (h : atomOf? inner = none) (strip : Bool) (p : Progress)
    (renderBody? : Option (List Char → Generator → List Char × Generator)) (g : Generator) :
    directive? strip p renderBody? ('{' :: cs) g = none := by
  simp only [directive?, List.drop_one, List.tail_cons, hc, hif, expand?_of_atomOf?_none h]
  rfl

theorem scanBody_eq_renderAtoms (strip : Bool) (p : Progress) (cs : List Char) (g : Generator) :
    scanBody strip p cs g = renderAtoms strip p g (atoms cs) := by
  refine scanWith_eq_renderAll Atom.source Atom.literal atomAt? (fun a g => a.render strip p g)
    (fun as g => renderAtoms strip p g as) ?_ ?_ (fun _ => rfl) (fun _ _ _ => rfl)
    (fun _ _ => rfl) ?_ ?_ cs g
  · rw [atoms]
  · intro c cs
    rw [atoms]
    split
    · split <;> simp_all
    · rfl
  · intro cs g h
    cases hc : cut? ['}'] cs with
    | none => simp [directive?, hc]
    | some found =>
      obtain ⟨inner, rest⟩ := found
      rw [atomAt?_of_cut? hc] at h
      have ha := Option.map_eq_none_iff.mp h
      cases hif : ifWord.isPrefixOf inner with
      | true => simp only [directive?, List.drop_one, List.tail_cons, hc, hif, if_true]
      | false => exact directive?_none_of_atomOf? hc hif ha strip p none g
  · intro cs g a rest h
    refine ⟨Nat.le_of_lt (atomAt?_length h), ?_⟩
    obtain ⟨⟨inner, rest'⟩, hc, _⟩ := Option.bind_eq_some_iff.mp h
    rw [atomAt?_of_cut? hc] at h
    obtain ⟨a', ha, hout⟩ := Option.map_eq_some_iff.mp h
    cases hout
    obtain ⟨rfl, hb⟩ := cut?_brace_iff.mp hc
    exact expands_atom hb ha strip p none g

/-- The block whose body runs to the first end mark is scanned as a whole. -/
theorem expands_block {name body rest : List Char} (hid : isIdentifier name = true)
    (hend : ¬endMark <:+: body) (strip : Bool) (p : Progress) (g : Generator) :
    Expands Piece.source (fun piece g => piece.render strip p g) (.block name (atoms body))
      ((ifWord ++ name) ++ '}' :: (body ++ endMark ++ rest)) rest g
      (directive? strip p (some (scanBody strip p))
        ('{' :: ((ifWord ++ name) ++ '}' :: (body ++ endMark ++ rest))) g) := by
  have hc : cut? ['}'] ((ifWord ++ name) ++ '}' :: (body ++ endMark ++ rest)) =
      some (ifWord ++ name, body ++ endMark ++ rest) :=
    cut?_brace_iff.mpr ⟨rfl, brace_notMem_block hid⟩
  have he : cut? endMark (body ++ endMark ++ rest) = some (body, rest) :=
    cut?_endMark_iff.mpr ⟨rfl, hend⟩
  have hif : ifWord.isPrefixOf (ifWord ++ name) = true :=
    List.isPrefixOf_iff_prefix.mpr (List.prefix_append _ _)
  refine Or.inl ⟨(ifWord ++ name).length + 2 + body.length + endMark.length, ?_, ?_⟩
  · simp only [directive?, List.drop_one, List.tail_cons, hc, hif, if_true, List.drop_left, hid, he,
      Piece.render, scanBody_eq_renderAtoms]
    split <;> rfl
  · have hlen : (ifWord ++ name).length + 2 + body.length + endMark.length - 1 =
        ((ifWord ++ name) ++ '}' :: (body ++ endMark)).length := by
      simp only [List.length_append, List.length_cons]
      omega
    have hcs : (ifWord ++ name) ++ '}' :: (body ++ endMark ++ rest) =
        ((ifWord ++ name) ++ '}' :: (body ++ endMark)) ++ rest := by simp
    rw [hlen, hcs, List.drop_left]

theorem scan_eq_renderPieces (strip : Bool) (p : Progress) (cs : List Char) (g : Generator) :
    scan strip p cs g = renderPieces strip p g (pieces cs) := by
  refine scanWith_eq_renderAll Piece.source (fun c => .atom (.literal c)) pieceAt?
    (fun piece g => piece.render strip p g) (fun ps g => renderPieces strip p g ps) ?_ ?_
    (fun _ => rfl) (fun _ _ _ => rfl) (fun _ _ => rfl) ?_ ?_ cs g
  · rw [pieces]
  · intro c cs
    rw [pieces]
    split
    · split <;> simp_all
    · rfl
  · intro cs g h
    cases hc : cut? ['}'] cs with
    | none => simp [directive?, hc]
    | some found =>
      obtain ⟨inner, rest⟩ := found
      cases hif : ifWord.isPrefixOf inner with
      | true =>
        rw [pieceAt?_of_cut? hc, if_pos hif] at h
        simp only [directive?, List.drop_one, List.tail_cons, hc, hif, if_true]
        cases hid : isIdentifier (inner.drop ifWord.length) with
        | false => rfl
        | true =>
          rw [if_pos hid] at h
          rw [Option.map_eq_none_iff.mp h]
      | false =>
        rw [pieceAt?_of_cut? hc, if_neg (by simp [hif])] at h
        have ha := Option.map_eq_none_iff.mp h
        exact directive?_none_of_atomOf? hc hif ha strip p _ g
  · intro cs g piece rest h
    have hlen := Nat.le_of_lt (pieceAt?_length h)
    refine ⟨hlen, ?_⟩
    obtain ⟨⟨inner, rest'⟩, hc, _⟩ := Option.bind_eq_some_iff.mp h
    rw [pieceAt?_of_cut? hc] at h
    obtain ⟨rfl, hb⟩ := cut?_brace_iff.mp hc
    split at h
    next hif =>
      obtain ⟨name, rfl⟩ := List.isPrefixOf_iff_prefix.mp hif
      rw [List.drop_left] at h
      split at h
      next hid =>
        obtain ⟨⟨body, rest''⟩, he, hout⟩ := Option.map_eq_some_iff.mp h
        cases hout
        obtain ⟨rfl, hend⟩ := cut?_endMark_iff.mp he
        exact expands_block hid hend strip p g
      next => simp at h
    next =>
      obtain ⟨a, ha, hout⟩ := Option.map_eq_some_iff.mp h
      cases hout
      exact expands_atom hb ha strip p _ g

end Markup

end Gamebook
