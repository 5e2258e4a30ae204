import Gamebook.Proofs.Markup.Offsets
import Gamebook.Proofs.Markup.Rendering

namespace Gamebook

namespace Markup

open String (utf8Len utf8Len_cons utf8Len_append)

/-- What a call at the tail in a rest has to come to. -/
structure DirectiveCall.Progresses (rest : List Char) (c : DirectiveCall) : Prop where
  opens : ∃ before cs, rest = before ++ c.tail ∧ '{' ∉ before ∧ c.tail = '{' :: cs
  taken : ∀ n, c.taken? = some n → 2 ≤ n ∧ n ≤ utf8Len c.tail ∧
    ∃ directive, c.tail = directive ++ c.left ∧ utf8Len directive = n ∧ directive.getLast? = some '}'
  passed : c.taken? = none → c.tail = '{' :: c.left
  shorter : utf8Len c.left < utf8Len rest

/-- A text is rendered for itself, or for another that it is a smaller part of. -/
def Nested (text : List Char) (texts : List (List Char)) (whole : List Char) : Prop :=
  (texts = [text] ∧ whole = text) ∨
    (texts = [whole, text] ∧ whole <:+: text ∧ utf8Len whole < utf8Len text)

structure Turn.Progresses (text : List Char) (t : Turn) : Prop where
  nested : ∃ whole, Nested text t.texts whole ∧ t.rest <:+ whole
  last : t.call? = none → '{' ∉ t.rest
  call : ∀ c, t.call? = some c → c.Progresses t.rest

namespace Draft

structure Sound (text : List Char) (d : Draft) : Prop where
  turns : ∀ t ∈ d.turns, t.Progresses text
  groups : ∀ options ∈ d.groups, options ≠ []

/-- From one draft to another a piece is written, and soundness is kept. -/
structure Writes (text : List Char) (d : Draft) (written : List Char × Generator) (d' : Draft) : Prop where
  out : d'.out = d.out ++ written.1
  next : d'.next = written.2
  sound : d.Sound text → d'.Sound text

variable {text : List Char} {d d' d'' : Draft}

theorem Writes.refl (text : List Char) (d : Draft) : d.Writes text ([], d.next) d :=
  ⟨(List.append_nil _).symm, rfl, id⟩

theorem Writes.trans {written : List Char × Generator} {out : List Char} {next : Generator}
    (h : d.Writes text written d') (h' : d'.Writes text (out, next) d'') :
    d.Writes text (written.1 ++ out, next) d'' := by
  refine ⟨?_, h'.next, h'.sound ∘ h.sound⟩
  rw [h'.out, h.out, List.append_assoc]

@[simp] theorem write_next (d : Draft) (cs : List Char) : (d.write cs).next = d.next := rfl

theorem writes_write (text : List Char) (d : Draft) (cs : List Char) :
    d.Writes text (cs, d.next) (d.write cs) :=
  ⟨rfl, rfl, fun h => ⟨h.turns, h.groups⟩⟩

theorem Writes.turn {written : List Char × Generator} (h : d.Writes text written d') {t : Turn}
    (ht : t.Progresses text) : d.Writes text written (d'.turn t) := by
  refine ⟨h.out, h.next, fun hd => ⟨?_, (h.sound hd).groups⟩⟩
  intro t' ht'
  rcases List.mem_append.mp ht' with hold | hnew
  · exact (h.sound hd).turns t' hold
  · exact List.mem_singleton.mp hnew ▸ ht

theorem exists_draw? (text : List Char) (d : Draft) (first : List Char) (others : List (List Char)) :
    ∃ d', d.draw? (first :: others) = some d' ∧ d.Writes text (optionText first others d.next) d' := by
  refine ⟨_, dif_pos (Nat.zero_lt_succ _), rfl, rfl, fun hd => ⟨hd.turns, ?_⟩⟩
  intro options hoptions
  rcases List.mem_append.mp hoptions with hold | hnew
  · exact hd.groups options hold
  · rw [List.mem_singleton.mp hnew]
    exact List.cons_ne_nil first others

end Draft

theorem splitOn_eq_split (separator : Char) (cs : List Char) :
    cs.splitOn separator = (split separator cs).1 :: (split separator cs).2 := by
  induction cs with
  | nil => rfl
  | cons c cs ih =>
    rw [List.splitOn, List.splitOnP_cons_eq_if_modifyHead, ← List.splitOn, ih, split]
    by_cases hc : c = separator
    · simp [hc]
    · simp [hc]

/-- A call's answer against the expansion of the directive at the tail. -/
inductive Answers (text : List Char) (d : Draft) :
    List Char → Option Expansion → Option Nat × Draft → Prop
  | taken {inner left out : List Char} {next : Generator} {d' : Draft} (h : d.Writes text (out, next) d') :
    Answers text d ('{' :: (inner ++ '}' :: left)) (some ⟨out, inner.length + 2, next⟩)
      (some (utf8Len inner + 2), d')
  | passed (cs : List Char) : Answers text d ('{' :: cs) none (none, d)

theorem Answers.block {text inner body left out : List Char} {next : Generator} {d d' : Draft}
    (h : d.Writes text (out, next) d') :
    Answers text d ('{' :: (inner ++ '}' :: (body ++ endMark ++ left)))
      (some ⟨out, inner.length + 2 + body.length + endMark.length, next⟩)
      (some (utf8Len inner + 2 + utf8Len body + utf8Len endMark), d') := by
  have htail : inner ++ '}' :: (body ++ endMark ++ left) =
      inner ++ '}' :: (body ++ endMark.dropLast) ++ '}' :: left := by simp [endMark]
  have hcount : inner.length + 2 + body.length + endMark.length =
      (inner ++ '}' :: (body ++ endMark.dropLast)).length + 2 := by
    simp [endMark]
    omega
  have hbytes : utf8Len inner + 2 + utf8Len body + utf8Len endMark =
      utf8Len (inner ++ '}' :: (body ++ endMark.dropLast)) + 2 := by
    have hend : utf8Len endMark = utf8Len endMark.dropLast + 1 := rfl
    have hbrace : '}'.utf8Size = 1 := rfl
    rw [utf8Len_append, utf8Len_cons, utf8Len_append, hend, hbrace]
    omega
  rw [htail, hcount, hbytes]
  exact .taken h

section Calls

variable {strip : Bool} {p : Progress} {text : List Char}

theorem takeInner?_answers (inner left : List Char) (d : Draft) :
    ∃ answer, takeInner? strip p inner (utf8Len inner + 2) d = some answer ∧
      Answers text d ('{' :: (inner ++ '}' :: left))
        ((expand? strip p inner d.next).map fun e => ⟨e.1, inner.length + 2, e.2⟩) answer := by
  unfold takeInner? expand?
  by_cases hr : randomWord.isPrefixOf inner
  · obtain ⟨d', hd', hw⟩ := d.exists_draw? text (split '|' (inner.drop randomWord.length)).1
      (split '|' (inner.drop randomWord.length)).2
    rw [if_pos hr, if_pos hr, splitOn_eq_split, hd']
    exact ⟨_, rfl, .taken hw⟩
  rw [if_neg hr, if_neg hr]
  by_cases hm : strip ∧ (inner = typewriter ∨ inner = '/' :: typewriter)
  · rw [if_pos hm, if_pos hm]
    exact ⟨_, rfl, .taken (.refl text d)⟩
  rw [if_neg hm, if_neg hm]
  by_cases hid : isIdentifier inner
  · rw [if_pos hid, if_pos hid]
    cases p.valueOf? (String.ofList inner) with
    | some v => exact ⟨_, rfl, .taken (d.writes_write text _)⟩
    | none =>
      by_cases hcount : inner = inventoryCount
      · simp only [if_pos hcount]
        exact ⟨_, rfl, .taken (d.writes_write text _)⟩
      · simp only [if_neg hcount]
        exact ⟨_, rfl, .passed _⟩
  · rw [if_neg hid, if_neg hid]
    exact ⟨_, rfl, .passed _⟩

variable {renderBody : List Char → Draft → Option Draft} {inBlock : Bool}

/-- Inside of a block there are no bodies to render. -/
theorem takeDirective?_answers {cs : List Char}
    (hbody : inBlock = false → ∀ body d, body <:+: cs →
      ∃ d', renderBody body d = some d' ∧ d.Writes text (scanBody strip p body d.next) d')
    (d : Draft) :
    ∃ answer, takeDirective? strip p renderBody inBlock ('{' :: cs) d = some answer ∧
      Answers text d ('{' :: cs)
        (directive? strip p (if inBlock then none else some (scanBody strip p)) ('{' :: cs) d.next)
        answer := by
  rw [takeDirective?, directive?, List.drop_one, List.tail_cons, find?_close_cons]
  cases hc : cut? ['}'] cs with
  | none =>
    rw [find?, hc]
    exact ⟨_, rfl, .passed cs⟩
  | some parts =>
    obtain ⟨inner, behind⟩ := parts
    obtain ⟨rfl, -⟩ := cut?_brace_iff.mp hc
    simp only [find?_of_cut? hc, Option.map_some, slice?_inner, Option.bind_eq_bind, Option.bind_some]
    by_cases hif : ifWord.isPrefixOf inner
    · rw [if_pos hif, if_pos hif]
      cases hblock : inBlock with
      | true => exact ⟨_, rfl, .passed _⟩
      | false =>
        cases hid : isIdentifier (inner.drop ifWord.length) with
        | false => exact ⟨_, rfl, .passed _⟩
        | true =>
          simp only [Bool.not_true, Bool.or_self, Bool.false_eq_true, if_false, cutAt?_braced,
            Option.bind_some]
          cases he : cut? endMark behind with
          | none =>
            rw [find?, he]
            exact ⟨_, rfl, .passed _⟩
          | some parts =>
            obtain ⟨body, left⟩ := parts
            obtain ⟨rfl, -⟩ := cut?_endMark_iff.mp he
            have hslice := slice?_body inner body (endMark ++ left)
            rw [← List.append_assoc] at hslice
            simp only [find?_of_cut? he, hslice, Option.bind_some]
            by_cases hset : isSetTrue p (inner.drop ifWord.length) = true
            · obtain ⟨d', hd', hw⟩ := hbody hblock body d ⟨inner ++ ['}'], endMark ++ left, by simp⟩
              simp only [if_pos hset, hd', Option.bind_some]
              exact ⟨_, rfl, .block hw⟩
            · simp only [if_neg hset]
              exact ⟨_, rfl, .block (.refl text d)⟩
    · rw [if_neg hif, if_neg hif]
      exact takeInner?_answers inner behind d

end Calls

section Loop

theorem utf8Len_left_lt (before left directive : List Char) (hne : directive ≠ []) :
    utf8Len left < utf8Len (before ++ (directive ++ left)) := by
  have hpos : utf8Len directive ≠ 0 := mt String.utf8Len_eq_zero.mp hne
  rw [utf8Len_append, utf8Len_append]
  omega

theorem DirectiveCall.progresses_taken {before : List Char} (hb : '{' ∉ before)
    (inner left : List Char) : DirectiveCall.Progresses (before ++ '{' :: (inner ++ '}' :: left))
      ⟨'{' :: (inner ++ '}' :: left), some (utf8Len inner + 2), left⟩ := by
  have htail := (braced_append inner left).symm
  refine ⟨⟨before, _, rfl, hb, rfl⟩, ?_, (by simp), ?_⟩
  · rintro _ ⟨⟩
    refine ⟨Nat.le_add_left _ _, ?_, braced inner, htail, utf8Len_braced inner, ?_⟩
    · rw [htail, utf8Len_append, utf8Len_braced]
      exact Nat.le_add_right _ _
    · rw [braced, ← List.cons_append, List.getLast?_concat]
  · rw [htail]
    exact utf8Len_left_lt before left (braced inner) (by simp [braced])

theorem DirectiveCall.progresses_passed {before : List Char} (hb : '{' ∉ before) (cs : List Char) :
    DirectiveCall.Progresses (before ++ '{' :: cs) ⟨'{' :: cs, none, cs⟩ :=
  ⟨⟨before, cs, rfl, hb, rfl⟩, (by simp), fun _ => rfl,
    utf8Len_left_lt before cs ['{'] (by simp)⟩

theorem Turn.progresses_called {text whole rest : List Char} {texts : List (List Char)}
    {c : DirectiveCall} (hnested : Nested text texts whole) (hrest : rest <:+ whole)
    (hc : c.Progresses rest) : Turn.Progresses text ⟨texts, rest, some c⟩ :=
  ⟨⟨whole, hnested, hrest⟩, (by simp), fun _ h => Option.some.inj h ▸ hc⟩

variable {strip : Bool} {p : Progress} {text whole : List Char} {texts : List (List Char)}
  {inBlock : Bool} {expand : List Char → Generator → Option Expansion} {limit : Nat}

/-- One turn of the loop goes on at a smaller rest, and so does the scan. -/
theorem renderRest?_step (hnested : Nested text texts whole) {before cs : List Char}
    (hcall : ∀ d, ∃ answer,
      takeDirective? strip p (fun body d => renderRest? strip p limit (body :: texts) true body d)
        inBlock ('{' :: cs) d = some answer ∧
      Answers text d ('{' :: cs) (expand ('{' :: cs) d.next) answer)
    (hb : '{' ∉ before) (hrest : before ++ '{' :: cs <:+ whole) (d : Draft) :
    ∃ left written d', left <:+ cs ∧ d.Writes text written d' ∧
      renderRest? strip p (limit + 1) texts inBlock (before ++ '{' :: cs) d =
        renderRest? strip p limit texts inBlock left d' ∧
      scanWith expand (before ++ '{' :: cs) d.next =
        (written.1 ++ (scanWith expand left written.2).1, (scanWith expand left written.2).2) := by
  have hfind : find? ['{'] (before ++ '{' :: cs) = some (utf8Len before) :=
    find?_of_cut? (cut?_singleton_iff.mpr ⟨rfl, hb⟩)
  have hbefore := d.writes_write text before
  obtain ⟨answer, hanswer, ha⟩ := hcall (d.write before)
  rw [renderRest?, hfind, scanWith_append hb]
  simp only [cutAt?_append, hanswer, Option.bind_eq_bind, Option.bind_some]
  rw [Draft.write_next] at ha
  -- The answer tells what the scan finds here, so both go on at the same place.
  generalize hexp : expand ('{' :: cs) d.next = found at ha
  cases ha with
  | @taken inner left out next d' h =>
    have hturn : Turn.Progresses text ⟨texts, before ++ '{' :: (inner ++ '}' :: left),
        some ⟨'{' :: (inner ++ '}' :: left), some (utf8Len inner + 2), left⟩⟩ :=
      Turn.progresses_called hnested hrest (DirectiveCall.progresses_taken hb inner left)
    refine ⟨left, (before ++ out, next), d'.turn _, ?_, (hbefore.trans h).turn hturn, ?_, ?_⟩
    · exact ⟨inner ++ ['}'], by simp⟩
    · simp only [cutAt?_braced, Option.bind_some]
    · rw [scanWith_taken hexp]
      simp
  | passed =>
    have hturn : Turn.Progresses text ⟨texts, before ++ '{' :: cs, some ⟨'{' :: cs, none, cs⟩⟩ :=
      Turn.progresses_called hnested hrest (DirectiveCall.progresses_passed hb cs)
    have hbrace := (d.write before).writes_write text ['{']
    refine ⟨cs, (before ++ ['{'], d.next), _, List.suffix_rfl, (hbefore.trans hbrace).turn hturn,
      ?_, ?_⟩
    · have hcut : cutAt? ('{' :: cs) 1 = some (['{'], cs) := cutAt?_append ['{'] cs
      rw [hcut]
      rfl
    · rw [scanWith_passed fun _ => hexp]
      simp

theorem renderRest?_last (hnested : Nested text texts whole) {rest : List Char} (hb : '{' ∉ rest)
    (hrest : rest <:+ whole) (d : Draft) :
    ∃ d', renderRest? strip p (limit + 1) texts inBlock rest d = some d' ∧
      d.Writes text (scanWith expand rest d.next) d' := by
  have hfind : find? ['{'] rest = none := by
    rw [find?, cut?_singleton_eq_none_iff.mpr hb]
    rfl
  have hscan : scanWith expand rest d.next = ([] ++ rest, d.next) := by
    simpa [scanWith_nil] using scanWith_append hb [] d.next
  have hturn : Turn.Progresses text ⟨texts, rest, none⟩ :=
    ⟨⟨whole, hnested, hrest⟩, fun _ => hb, fun _ h => by cases h⟩
  have hd := (Draft.Writes.refl text d).turn hturn
  rw [renderRest?, hfind, hscan]
  exact ⟨_, rfl, hd.trans (Draft.writes_write text _ rest)⟩

/-- The loop comes to an end, and writes what the scan does. -/
theorem renderRest?_writes (hnested : Nested text texts whole)
    (hcall : ∀ limit cs d, '{' :: cs <:+ whole → cs.length < limit → ∃ answer,
      takeDirective? strip p (fun body d => renderRest? strip p limit (body :: texts) true body d)
        inBlock ('{' :: cs) d = some answer ∧
      Answers text d ('{' :: cs) (expand ('{' :: cs) d.next) answer)
    {rest : List Char} (hrest : rest <:+ whole) (hlimit : rest.length < limit) (d : Draft) :
    ∃ d', renderRest? strip p limit texts inBlock rest d = some d' ∧
      d.Writes text (scanWith expand rest d.next) d' := by
  induction limit generalizing rest d with
  | zero => exact absurd hlimit (Nat.not_lt_zero _)
  | succ limit ih =>
    cases hc : cut? ['{'] rest with
    | none => exact renderRest?_last hnested (cut?_singleton_eq_none_iff.mp hc) hrest d
    | some parts =>
      obtain ⟨before, cs⟩ := parts
      obtain ⟨rfl, hb⟩ := cut?_singleton_iff.mp hc
      -- The directive's body, if there is one, and what is left behind it are shorter than the rest.
      have htail : '{' :: cs <:+ whole := (List.suffix_append before _).trans hrest
      have hcs : cs.length < limit := by
        rw [List.length_append, List.length_cons] at hlimit
        omega
      obtain ⟨left, written, d', hleft, hw, hstep, hscan⟩ :=
        renderRest?_step hnested (fun d => hcall limit cs d htail hcs) hb hrest d
      have hsuffix : left <:+ whole := (hleft.trans (List.suffix_cons '{' cs)).trans htail
      have hlen := hleft.length_le
      obtain ⟨d'', hd'', hw'⟩ := ih hsuffix (by omega) d'
      rw [hw.next] at hw'
      rw [hstep, hscan]
      exact ⟨d'', hd'', hw.trans hw'⟩

/-- The body of a block holds none itself. -/
theorem renderBody?_writes {body : List Char} (hnested : Nested text [body, text] body)
    (hlimit : body.length < limit) (d : Draft) :
    ∃ d', renderRest? strip p limit [body, text] true body d = some d' ∧
      d.Writes text (scanBody strip p body d.next) d' := by
  refine renderRest?_writes hnested (fun limit cs d _ _ => ?_) List.suffix_rfl hlimit d
  exact takeDirective?_answers (fun h => by cases h) d

end Loop

/-- Rendering by offsets comes to an end for every text, within as many turns as there are characters and one
more, without a slice that is none or a draw from nothing. It comes to the text's rendering. Every turn on the way
is one over the text or over a smaller part of it, and leaves less of its rest; a directive in it starts with a
brace, ends with one and lies within the tail, and where there is none just the brace is passed. -/
theorem render_by_offsets (strip : Bool) (text : String) (p : Progress) (g : Generator) {limit : Nat}
    (h : text.length < limit) :
    ∃ d, renderText? limit strip text.toList p g = some d ∧
      render strip text p g = (String.ofList d.out, d.next) ∧
      (∀ t ∈ d.turns, t.Progresses text.toList) ∧ ∀ options ∈ d.groups, options ≠ [] := by
  have hcall : ∀ limit cs d, '{' :: cs <:+ text.toList → cs.length < limit → ∃ answer,
      takeDirective? strip p
        (fun body d => renderRest? strip p limit [body, text.toList] true body d) false
        ('{' :: cs) d = some answer ∧
      Answers text.toList d ('{' :: cs)
        (directive? strip p (some (scanBody strip p)) ('{' :: cs) d.next) answer := by
    intro limit cs d hcs hlimit
    refine takeDirective?_answers (fun _ body d hin => ?_) d
    have hinfix : body <:+: text.toList := (List.infix_cons hin).trans hcs.isInfix
    have hlt : utf8Len body < utf8Len text.toList := by
      have hbody := String.utf8Len_le_of_infix hin
      have htail := String.utf8Len_le_of_suffix hcs
      have hpos := '{'.utf8Size_pos
      rw [utf8Len_cons] at htail
      omega
    have hlen := hin.length_le
    exact renderBody?_writes (.inr ⟨rfl, hinfix, hlt⟩) (by omega) d
  have hnested : Nested text.toList [text.toList] text.toList := .inl ⟨rfl, rfl⟩
  obtain ⟨d, hd, hw⟩ := renderRest?_writes hnested hcall List.suffix_rfl (by rwa [String.length_toList])
    ⟨[], g, [], []⟩
  have hsound := hw.sound ⟨by simp, by simp⟩
  have hscan : scanWith (directive? strip p (some (scanBody strip p))) text.toList g =
      renderPieces strip p g (pieces text.toList) := scan_eq_renderPieces strip p text.toList g
  rw [hscan] at hw
  refine ⟨d, hd, ?_, hsound.turns, hsound.groups⟩
  rw [render, hw.out, hw.next, List.nil_append]

/-- Its block is shown, the reference in it is to nothing, and its last brace opens nothing. -/
def notice : String := "¡\x7bif:open\x7d\x7bwine\x7d!\x7b/if\x7d ☂\x7b"

def guest : Progress where
  node := "inn"
  values := Dictionary.empty.insert "open" (.flag true)
  inventory := []
  history := ["inn"]
  achievements := []

theorem render_by_offsets_notice : notice.length < 26 ∧
    ∃ d, renderText? 26 false notice.toList guest (.ofSeed 7) = some d ∧
      String.ofList d.out = "¡\x7bwine\x7d! ☂\x7b" ∧ d.next = .ofSeed 7 ∧
      d.turns.map (fun t => t.texts.length) = [2, 2, 1, 1, 1] ∧
      ∀ t ∈ d.turns, t.Progresses notice.toList := by
  have hlimit : notice.length < 26 := by decide
  obtain ⟨d, hd, hrender, hturns, -⟩ := render_by_offsets false notice guest (.ofSeed 7) hlimit
  have hshown : render false notice guest (.ofSeed 7) = ("¡\x7bwine\x7d! ☂\x7b", .ofSeed 7) :=
    Prod.ext (by decide +kernel) (render_next (by decide +kernel))
  have hdepth : (renderText? 26 false notice.toList guest (.ofSeed 7)).map
      (fun d => d.turns.map fun t => t.texts.length) = some [2, 2, 1, 1, 1] := by decide +kernel
  obtain ⟨hout, hnext⟩ := Prod.mk.inj (hrender.symm.trans hshown)
  rw [hd] at hdepth
  exact ⟨hlimit, d, hd, hout, hnext, Option.some.inj hdepth, hturns⟩

end Markup

end Gamebook
