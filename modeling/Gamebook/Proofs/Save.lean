import Gamebook.Proofs.Instant
import Gamebook.Proofs.Json.Rereading
import Gamebook.Save

namespace Gamebook

/-- Every value but an infinity or a NaN can be written. -/
def Value.isFinite : Value → Bool
  | number x => x.isFinite
  | _ => true

/-- What becomes of a value that is written and read again. -/
def Value.reread? (v : Value) : Option Value := Value.ofJson? (Json.reread v.toJson)

/-- A number comes back as a number. -/
theorem Json.reread_number {x : Float} (h : x.isFinite = true) :
    ∃ y, reread (number x) = number y := by
  obtain ⟨n, hn⟩ := Option.isSome_iff_exists.mp ((savedNumeral?_isSome_iff x).trans h)
  obtain ⟨_, hcount, hscaled⟩ := savedNumeral?_reads hn
  obtain ⟨y, hy⟩ := Option.isSome_iff_exists.mp hscaled
  exact ⟨y, by simp [reread, hn, Token.ofNumeral, hcount, hy]⟩

theorem Value.reread?_number {x y : Float} (hx : x.isFinite = true)
    (hy : Json.reread (.number x) = .number y) : (number x).reread? = some (number y) := by
  rw [reread?, toJson, if_pos hx, hy]
  rfl

theorem Value.reread?_isSome (v : Value) : v.reread?.isSome = v.isFinite := by
  cases v with
  | flag b => rfl
  | text s => rfl
  | number x =>
    cases hx : x.isFinite with
    | true =>
      obtain ⟨y, hy⟩ := Json.reread_number hx
      rw [reread?_number hx hy]
      exact hx.symm
    | false => simp [reread?, toJson, hx, Json.reread, ofJson?, Json.number?, isFinite]

/-- Values are read again all together or not at all. -/
def Dictionary.reread? (values : Dictionary Value) : Option (Dictionary Value) :=
  (values.entries.mapM fun (e : String × Value) => e.2.reread?.map fun v => (e.1, v)).map ofList

theorem mapM_isSome {α β : Type} (f : α → Option β) (xs : List α) :
    (xs.mapM f).isSome = xs.all fun x => (f x).isSome := by
  induction xs with
  | nil => rfl
  | cons x xs ih =>
    rw [List.mapM_cons, List.all_cons, ← ih]
    cases f x with
    | none => rfl
    | some y => cases xs.mapM f <;> rfl

theorem Dictionary.reread?_isSome (values : Dictionary Value) :
    values.reread?.isSome = values.values.all Value.isFinite := by
  rw [reread?, Option.isSome_map, mapM_isSome, Dictionary.values, List.all_map]
  simp [Value.reread?_isSome, Function.comp_def]

/-- No value is an infinity or a NaN. -/
def Progress.isFinite (p : Progress) : Bool := p.values.values.all Value.isFinite

namespace Json

theorem rereadItems_texts (items : List String) :
    rereadItems (items.map text) = items.map text := by
  induction items with
  | nil => rfl
  | cons s items ih =>
    rw [List.map_cons, rereadItems, ih, reread]
    all_goals simp

theorem list?_texts (items : List String) : list? text? (array (items.map text)) = some items := by
  have hall := List.mapM_pure (m := Option) (l := items) (f := id)
  rw [List.map_id] at hall
  rw [list?, List.mapM_map]
  exact hall

theorem rereadMembers_map {α : Type} (f : α → Json) (es : List (String × α)) :
    rereadMembers (es.map fun e => (e.1, f e.2)) = es.map fun e => (e.1, reread (f e.2)) := by
  induction es with
  | nil => rfl
  | cons e es ih => rw [List.map_cons, rereadMembers, ih, List.map_cons]

end Json

namespace Save

theorem dictionary?_values (values : Dictionary Value) :
    Json.dictionary? Value.ofJson?
      (.object (values.entries.map fun e => (e.1, Json.reread e.2.toJson))) = values.reread? := by
  rw [Json.dictionary?, List.mapM_map]
  rfl

/-- A save as it is read again: its fields stand in their order, the last one if it is there. -/
def fieldsOf (s : Save) : Json.Fields :=
  let p := s.progress
  [("currentNode", .text p.node),
    ("variables", .object (p.values.entries.map fun e => (e.1, Json.reread e.2.toJson))),
    ("inventory", .array (p.inventory.map .text)), ("history", .array (p.history.map .text)),
    ("achievements", .array (p.achievements.map .text))] ++
  (s.writtenAt.map fun t => ("timestamp", Json.text t.toText)).toList

theorem reread_toJson (s : Save) : Json.reread s.toJson = .object s.fieldsOf := by
  have hvalues := Json.rereadMembers_map Value.toJson s.progress.values.entries
  cases hw : s.writtenAt <;>
    simp [toJson, fieldsOf, hw, Json.reread, Json.rereadMembers, Json.rereadItems_texts, hvalues]

theorem fields?_fieldsOf (s : Save) :
    Json.fields? fieldNames (.object s.fieldsOf) = some s.fieldsOf := by
  cases hw : s.writtenAt <;> simp [fieldsOf, hw, Json.fields?, fieldNames]

theorem ofJson?_fieldsOf (s : Save) : ofJson? (.object s.fieldsOf) =
    s.progress.values.reread?.map fun values => ⟨{ s.progress with values }, s.writtenAt⟩ := by
  have hvalues := dictionary?_values s.progress.values
  rw [ofJson?, fields?_fieldsOf]
  cases hw : s.writtenAt <;> cases hread : s.progress.values.reread? <;>
    simp [fieldsOf, hw, Json.Fields.get, List.lookup_cons, Json.text?, Json.list?_texts, hvalues,
      hread, instant?, Instant.ofText?_toText]

theorem ofText?_toText (s : Save) : ofText? s.toText = s.progress.values.reread?.map fun values =>
    ⟨{ s.progress with values }, s.writtenAt⟩ := by
  rw [ofText?, toText, Json.ofText?_toText, reread_toJson, Option.bind_some, ofJson?_fieldsOf]

end Save

end Gamebook
