import Gamebook.Json.Reader
import Gamebook.Proofs.Decimal.Saved
import Gamebook.Proofs.Json.Quoted

namespace Gamebook

namespace Json

mutual

/-- What becomes of a tree that is written and read again. -/
def reread : Json → Json
  | number x => ((savedNumeral? x).map Token.ofNumeral).getD null
  | unreadable => null
  | array items => array (rereadItems items)
  | object members => object (rereadMembers members)
  | j => j

def rereadItems : List Json → List Json
  | [] => []
  | j :: js => reread j :: rereadItems js

def rereadMembers : List (String × Json) → List (String × Json)
  | [] => []
  | (name, j) :: ms => (name, reread j) :: rereadMembers ms

end

theorem next?_numeral {n : Numeral} (h : n.Proper) {rest : List Char} (hrest : Numeral.Ends rest) :
    Token.next? (n.written ++ rest) = some (.plain (Token.ofNumeral n), rest) := by
  have hscan := Numeral.scan?_written h hrest
  obtain ⟨c, cs, hcs⟩ := List.exists_cons_of_ne_nil h.whole.ne_nil
  have hc : c.isDigit = true := h.whole.allDigits c (by simp [hcs])
  have hhead : ∃ d ds, n.written ++ rest = d :: ds ∧ (d = '-' ∨ d.isDigit = true) := by
    unfold Numeral.written Numeral.unsignedText
    rw [hcs]
    split
    · exact ⟨_, _, rfl, Or.inl rfl⟩
    · exact ⟨_, _, rfl, Or.inr hc⟩
  obtain ⟨d, ds, hd, hfirst⟩ := hhead
  rw [hd] at hscan ⊢
  unfold Token.next?
  split
  case h_11 => rw [hscan]; rfl
  all_goals
    rename_i heq
    obtain ⟨rfl, _⟩ := List.cons.inj heq
    simp at hfirst

/-- No word begins with a blank. -/
theorem not_isSpace_of_next? {c : Char} {cs : List Char} {p : Token × List Char}
    (h : Token.next? (c :: cs) = some p) : Token.isSpace c = false := by
  cases hspace : Token.isSpace c with
  | false => rfl
  | true =>
    simp only [Token.isSpace, Bool.or_eq_true, beq_iff_eq] at hspace
    rcases hspace with ((rfl | rfl) | rfl) | rfl <;>
      simp [Token.next?, Numeral.scan?, Numeral.scanWhole?, Char.isDigit] at h

theorem feed_of_next? {r r' : Reader} {t : Token} {cs rest : List Char}
    (hnext : Token.next? cs = some (t, rest)) (hstep : r.step t = some r') :
    r.feed cs = r'.feed rest := by
  cases cs with
  | nil => simp [Token.next?, Numeral.scan?, Numeral.scanWhole?] at hnext
  | cons c cs =>
    have hdrop : (c :: cs).dropWhile Token.isSpace = c :: cs := by
      rw [List.dropWhile_cons, not_isSpace_of_next? hnext]
      rfl
    conv_lhs => unfold Reader.feed
    split
    next heq => simp [hdrop] at heq
    next heq =>
      rw [hdrop] at heq
      cases heq
      split
      next hnone => simp [hnone] at hnext
      next t' rest' hsome =>
        cases hsome.symm.trans hnext
        rw [hstep]

/-- A value is read alike where a value must follow and where an array may be closed instead. -/
def Reader.Awaits (r : Reader) (outer : List Frame) : Prop :=
  ∀ t, t ≠ .closeArray → r.step t = Reader.stepValue outer t

theorem Reader.awaits_value (outer : List Frame) : (Reader.value outer).Awaits outer :=
  fun _ _ => rfl

theorem Reader.awaits_item (outer : List Frame) :
    (Reader.item outer).Awaits (.array [] :: outer) := by
  intro t ht
  cases t with
  | closeArray => exact absurd rfl ht
  | _ => rfl

theorem ends_comma (rest : List Char) : Numeral.Ends (',' :: rest) :=
  .cons (by decide) (by decide) (by decide) (by decide)

theorem ends_closeArray (rest : List Char) : Numeral.Ends (']' :: rest) :=
  .cons (by decide) (by decide) (by decide) (by decide)

theorem ends_closeObject (rest : List Char) : Numeral.Ends ('}' :: rest) :=
  .cons (by decide) (by decide) (by decide) (by decide)

def named (members : List (String × Json)) : List (Option String × Json) :=
  members.map fun m => (some m.1, m.2)

theorem ofMembers_named (members : List (String × Json)) :
    ofMembers (named members) = object members := by
  have hall : (named members).mapM (fun m => m.1.map fun name => (name, m.2)) = some members := by
    induction members with
    | nil => rfl
    | cons m members ih =>
      simp only [named, List.map_cons, List.mapM_cons, Option.map_some] at ih ⊢
      rw [ih]
      rfl
  rw [ofMembers, hall]

theorem ofNumeral_count (n : UInt64) :
    Token.ofNumeral ⟨false, Decimal.numerals n.toNat, [], none⟩ = count n := by
  have hlt : n.toNat < UInt64.size := n.toNat_lt_size
  have hcount : Numeral.count? ⟨false, Decimal.numerals n.toNat, [], none⟩ = some n := by
    simp only [Numeral.count?, naturalValue_numerals]
    rw [if_neg (by simp; omega)]
    simp
  rw [Token.ofNumeral, hcount]

theorem named_reverse_cons (name : String) (j : Json) (members : List (String × Json)) :
    (some name, j) :: (named members).reverse = (named (members ++ [(name, j)])).reverse := by
  simp [named]

theorem Reader.step_name (outer : List Frame) (before : List (Option String × Json)) (first : Bool)
    (name : Option String) : (Reader.member outer before first).step (.quoted name) =
      some (.colon outer before name) := by
  cases first <;> rfl

theorem Reader.feed_nil (r : Reader) : r.feed [] = some r := by
  rw [Reader.feed]
  rfl

/-- A word that is a value is read wherever one may stand. -/
theorem feed_plain {r : Reader} {outer : List Frame} (hr : r.Awaits outer) {j : Json}
    {cs rest : List Char} (hnext : Token.next? cs = some (.plain j, rest)) :
    r.feed cs = (Reader.done outer j).feed rest :=
  feed_of_next? hnext (hr _ (by simp))

theorem next?_count (n : UInt64) {rest : List Char} (hrest : Numeral.Ends rest) :
    Token.next? (Decimal.numerals n.toNat ++ rest) = some (.plain (count n), rest) := by
  have hproper : Numeral.Proper ⟨false, Decimal.numerals n.toNat, [], none⟩ :=
    ⟨Decimal.numerals_wholeDigits _, by simp [AllDigits]⟩
  have hnext := next?_numeral hproper hrest
  rw [ofNumeral_count] at hnext
  simpa [Numeral.written, Numeral.unsignedText, Numeral.fractionText, Numeral.powerText] using hnext

theorem next?_number (x : Float) {rest : List Char} (hrest : Numeral.Ends rest) :
    Token.next? (write (number x) ++ rest) = some (.plain (reread (number x)), rest) := by
  rw [write, reread, savedText?_eq_written]
  cases hn : savedNumeral? x with
  | none => rfl
  | some n => exact next?_numeral (savedNumeral?_reads hn).1 hrest

mutual

/-- Written values are read back wherever one may stand. -/
theorem feed_write (j : Json) {r : Reader} {outer : List Frame} (hr : r.Awaits outer)
    {rest : List Char} (hrest : Numeral.Ends rest) :
    r.feed (write j ++ rest) = (Reader.done outer (reread j)).feed rest := by
  match j with
  | null => exact feed_plain hr rfl
  | unreadable => exact feed_plain hr rfl
  | flag true => exact feed_plain hr rfl
  | flag false => exact feed_plain hr rfl
  | count n =>
    simp only [write, reread]
    exact feed_plain hr (next?_count n hrest)
  | number x => rw [feed_plain hr (next?_number x hrest)]
  | text s =>
    have hstep : r.step (.quoted (some s)) = some (.done outer (text s)) := hr _ (by simp)
    simp only [write, reread]
    exact feed_of_next? (next?_quote s rest) hstep
  | array [] =>
    have hopen : r.step .openArray = some (.item outer) := hr _ (by simp)
    have hclose : (Reader.item outer).step .closeArray = some (.done outer (.array [])) := rfl
    simp only [write, writeItems, List.cons_append, List.nil_append, reread, rereadItems]
    rw [feed_of_next? rfl hopen, feed_of_next? rfl hclose]
  | array (j :: js) =>
    have hopen : r.step .openArray = some (.item outer) := hr _ (by simp)
    rw [write, reread, List.cons_append, feed_of_next? rfl hopen,
      feed_writeItems (j :: js) (by simp) (Reader.awaits_item outer) rest]
    rfl
  | object [] =>
    have hopen : r.step .openObject = some (.member outer [] true) := hr _ (by simp)
    have hclose : (Reader.member outer [] true).step .closeObject =
      some (.done outer (.object [])) := rfl
    simp only [write, writeMembers, List.cons_append, List.nil_append, reread, rereadMembers]
    rw [feed_of_next? rfl hopen, feed_of_next? rfl hclose]
  | object ((name, j) :: ms) =>
    have hopen : r.step .openObject = some (.member outer (named []).reverse true) :=
      hr _ (by simp)
    rw [write, reread, List.cons_append, feed_of_next? rfl hopen,
      feed_writeMembers ((name, j) :: ms) (by simp) rest]
    rfl

theorem feed_writeItems (js : List Json) (hjs : js ≠ []) {r : Reader} {outer : List Frame}
    {before : List Json} (hr : r.Awaits (.array before :: outer)) (rest : List Char) :
    r.feed (writeItems js ++ rest) =
      (Reader.done outer (.array (before.reverse ++ rereadItems js))).feed rest := by
  match js with
  | [] => exact absurd rfl hjs
  | [j] =>
    have hclose : (Reader.done (.array before :: outer) (reread j)).step .closeArray =
      some (.done outer (.array (reread j :: before).reverse)) := rfl
    simp only [writeItems, List.append_assoc, List.singleton_append, rereadItems]
    rw [feed_write j hr (ends_closeArray rest), feed_of_next? rfl hclose, List.reverse_cons]
  | j :: j' :: js =>
    have hcomma : (Reader.done (.array before :: outer) (reread j)).step .comma =
      some (.value (.array (reread j :: before) :: outer)) := rfl
    simp only [writeItems, List.append_assoc, List.cons_append]
    rw [feed_write j hr (ends_comma _), feed_of_next? rfl hcomma,
      feed_writeItems (j' :: js) (by simp) (Reader.awaits_value _) rest]
    simp [rereadItems]

theorem feed_writeMembers (ms : List (String × Json)) (hms : ms ≠ []) {outer : List Frame}
    {before : List (String × Json)} {first : Bool} (rest : List Char) :
    (Reader.member outer (named before).reverse first).feed (writeMembers ms ++ rest) =
      (Reader.done outer (.object (before ++ rereadMembers ms))).feed rest := by
  match ms with
  | [] => exact absurd rfl hms
  | [(name, j)] =>
    have hclose : (Reader.done (.object (named before).reverse (some name) :: outer)
        (reread j)).step .closeObject =
      some (.done outer (.object (before ++ [(name, reread j)]))) := by
      rw [← ofMembers_named, ← List.reverse_reverse (named (before ++ _)), ← named_reverse_cons]
      rfl
    simp only [writeMembers, List.append_assoc, List.cons_append, List.nil_append, rereadMembers]
    rw [feed_of_next? (next?_quote name _) (Reader.step_name ..), feed_of_next? rfl rfl,
      feed_write j (Reader.awaits_value _) (ends_closeObject rest), feed_of_next? rfl hclose]
  | (name, j) :: (name', j') :: ms =>
    have hcomma : (Reader.done (.object (named before).reverse (some name) :: outer)
        (reread j)).step .comma =
      some (.member outer (named (before ++ [(name, reread j)])).reverse false) := by
      rw [← named_reverse_cons]
      rfl
    simp only [writeMembers, List.append_assoc, List.cons_append]
    rw [feed_of_next? (next?_quote name _) (Reader.step_name ..), feed_of_next? rfl rfl,
      feed_write j (Reader.awaits_value _) (ends_comma _), feed_of_next? rfl hcomma,
      feed_writeMembers ((name', j') :: ms) (by simp) rest]
    simp [rereadMembers]

end

theorem parse?_write (j : Json) : parse? (write j) = some (reread j) := by
  have hfeed := feed_write j (Reader.awaits_value []) Numeral.Ends.nil
  rw [List.append_nil, Reader.feed_nil] at hfeed
  rw [parse?, hfeed]

theorem ofText?_toText (j : Json) : ofText? (toText j) = some (reread j) := by
  rw [ofText?, toText, String.toList_ofList, parse?_write]

end Json

end Gamebook
