import Mathlib.Data.List.Nodup
import Gamebook.Proofs.Calls
import Gamebook.Proofs.Json.Kept

namespace Gamebook

/-- What a tree says as a value. A whole number may be written with digits alone. -/
inductive Json.Says : Json → Value → Prop
  | flag (b : Bool) : Says (.flag b) (.flag b)
  | count (n : UInt64) : Says (.count n) (.number (Float.ofNat n.toNat))
  | number (x : Float) : Says (.number x) (.number x)
  | text (s : String) : Says (.text s) (.text s)

theorem Value.ofJson?_eq_some_iff {j : Json} {v : Value} : ofJson? j = some v ↔ j.Says v := by
  constructor
  · intro h
    cases j with
    | flag b => cases h; exact .flag b
    | count n => cases h; exact .count n
    | number x => cases h; exact .number x
    | text s => cases h; exact .text s
    | null | array _ | object _ | unreadable => cases h
  · rintro ⟨⟩ <;> rfl

/-- An object of values. A name may come again, and then its last member counts. -/
def Json.SaysAll (j : Json) (values : Dictionary Value) : Prop :=
  ∃ members, j = .object members ∧ (∀ m ∈ members, ∃ v, m.2.Says v) ∧
    ∀ name v, values.get? name = some v ↔ ∃ tree, LastEntry members name tree ∧ tree.Says v

theorem Json.dictionary?_values_iff {j : Json} {values : Dictionary Value} :
    dictionary? Value.ofJson? j = some values ↔ j.SaysAll values := by
  have hbind : ∀ (members : List (String × Json)) name v,
      (members.reverse.lookup name).bind Value.ofJson? = some v ↔
        ∃ tree, LastEntry members name tree ∧ tree.Says v := by
    intro members name v
    simp only [Option.bind_eq_some_iff, lastEntry_iff, Value.ofJson?_eq_some_iff]
  rw [dictionary?_eq_some_iff, SaysAll]
  simp only [← hbind, ← Option.ext_iff, Value.ofJson?_eq_some_iff]

theorem Json.text?_eq_some_iff {j : Json} {s : String} : text? j = some s ↔ j = .text s := by
  cases j <;> simp [text?]

theorem Json.list?_texts_iff {j : Json} {items : List String} :
    list? text? j = some items ↔ j = .array (items.map .text) := by
  constructor
  · intro h
    match j with
    | .array trees =>
      have hall := mapM_eq_some_iff.mp h
      simp only [text?_eq_some_iff] at hall
      have hmap : List.Forall₂ (· = ·) trees (items.map text) :=
        List.forall₂_map_right_iff.mpr hall
      rw [List.forall₂_eq_eq_eq] at hmap
      rw [hmap]
  · rintro rfl
    exact list?_texts items

namespace Save

inductive Field
  | node
  | values
  | inventory
  | history
  | achievements
  | writtenAt

namespace Field

def name : Field → String
  | node => "currentNode"
  | values => "variables"
  | inventory => "inventory"
  | history => "history"
  | achievements => "achievements"
  | writtenAt => "timestamp"

def Content : Field → Type
  | node => String
  | values => Dictionary Value
  | inventory | history | achievements => List String
  | writtenAt => Option Instant

/-- What a field holds that is not written. -/
def default : (f : Field) → f.Content
  | node => ""
  | values => Dictionary.empty
  | inventory | history | achievements => ([] : List String)
  | writtenAt => (none : Option Instant)

def of (s : Save) : (f : Field) → f.Content
  | node => s.progress.node
  | values => s.progress.values
  | inventory => s.progress.inventory
  | history => s.progress.history
  | achievements => s.progress.achievements
  | writtenAt => s.writtenAt

/-- The save with given fields. -/
def save (x : (f : Field) → f.Content) : Save :=
  ⟨⟨x node, x values, x inventory, x history, x achievements⟩, x writtenAt⟩

theorem of_save (x : (f : Field) → f.Content) (f : Field) : f.of (save x) = x f := by
  cases f <;> rfl

/-- The shape that a field is written in, with what it holds then. -/
def Shaped : (f : Field) → Json → f.Content → Prop
  | node, j, x => j = .text x
  | values, j, x => j.SaysAll x
  | inventory, j, x | history, j, x | achievements, j, x => j = .array (List.map Json.text x)
  | writtenAt, j, x => ∃ s t, j = .text s ∧ Instant.ofText? s = some t ∧ x = some t

def read? : (f : Field) → Json → Option f.Content
  | node => Json.text?
  | values => Json.dictionary? Value.ofJson?
  | inventory | history | achievements => Json.list? Json.text?
  | writtenAt => fun j => (instant? j).map some

theorem read?_eq_some_iff {f : Field} {j : Json} {x : f.Content} :
    f.read? j = some x ↔ f.Shaped j x := by
  cases f with
  | node => exact Json.text?_eq_some_iff
  | values => exact Json.dictionary?_values_iff
  | inventory | history | achievements => exact Json.list?_texts_iff
  | writtenAt =>
    constructor
    · intro h
      obtain ⟨t, ht, rfl⟩ := Option.map_eq_some_iff.mp h
      cases j with
      | text s => exact ⟨s, t, rfl, ht, rfl⟩
      | _ => cases ht
    · rintro ⟨s, t, rfl, ht, rfl⟩
      exact Option.map_eq_some_iff.mpr ⟨t, ht, rfl⟩

/-- What a field holds where these members are written. -/
def Stands (f : Field) (members : List (String × Json)) (x : f.Content) : Prop :=
  (∀ j, (f.name, j) ∈ members → f.Shaped j x) ∧ (f.name ∉ members.map Prod.fst → x = f.default)

end Field

theorem mem_fieldNames {name : String} : name ∈ fieldNames ↔ ∃ f : Field, f.name = name := by
  constructor
  · intro h
    simp only [fieldNames, List.mem_cons, List.not_mem_nil, or_false] at h
    rcases h with rfl | rfl | rfl | rfl | rfl | rfl
    exacts [⟨.node, rfl⟩, ⟨.values, rfl⟩, ⟨.inventory, rfl⟩, ⟨.history, rfl⟩, ⟨.achievements, rfl⟩,
      ⟨.writtenAt, rfl⟩]
  · rintro ⟨f, rfl⟩
    cases f <;> decide

theorem contains_name (f : Field) : fieldNames.contains f.name = true := by
  simpa using mem_fieldNames.mpr ⟨f, rfl⟩

/-- No field is written twice. -/
def Unrepeated (members : List (String × Json)) : Prop :=
  ∀ f : Field, (members.map Prod.fst).count f.name ≤ 1

instance (members : List (String × Json)) : Decidable (Unrepeated members) :=
  decidable_of_iff (∀ name ∈ fieldNames, (members.map Prod.fst).count name ≤ 1)
    ⟨fun h f => h f.name (mem_fieldNames.mpr ⟨f, rfl⟩), fun h name hname => by
      obtain ⟨f, rfl⟩ := mem_fieldNames.mp hname
      exact h f⟩

/-- The members that a save reads. -/
def written (members : List (String × Json)) : Json.Fields :=
  members.filter fun m => fieldNames.contains m.1

theorem unrepeated_iff {members : List (String × Json)} :
    Unrepeated members ↔ ((written members).map Prod.fst).Nodup := by
  have hnames : (written members).map Prod.fst =
      (members.map Prod.fst).filter fieldNames.contains := by
    rw [List.filter_map]
    rfl
  rw [List.nodup_iff_count_le_one, hnames]
  constructor
  · intro h name
    by_cases hname : name ∈ fieldNames
    · obtain ⟨f, rfl⟩ := mem_fieldNames.mp hname
      rw [List.count_filter (contains_name f)]
      exact h f
    · have hout : name ∉ (members.map Prod.fst).filter fieldNames.contains := by simp [hname]
      rw [List.count_eq_zero.mpr hout]
      exact Nat.zero_le 1
  · intro h f
    rw [← List.count_filter (contains_name f)]
    exact h f.name

theorem fields?_object {members : List (String × Json)} {fs : Json.Fields} :
    (Json.object members).fields? fieldNames = some fs ↔ Unrepeated members ∧ written members = fs := by
  rw [Json.fields?_object_iff, unrepeated_iff]
  constructor
  · rintro ⟨hnodup, rfl⟩
    exact ⟨hnodup, rfl⟩
  · rintro ⟨hnodup, rfl⟩
    exact ⟨hnodup, rfl⟩

theorem ofJson?_eq_some_iff {j : Json} {s : Save} : ofJson? j = some s ↔
    ∃ fs, j.fields? fieldNames = some fs ∧
      ∀ f : Field, fs.get f.name f.read? f.default = some (f.of s) := by
  constructor
  · intro h
    simp only [ofJson?, Option.bind_eq_bind, Option.bind_eq_some_iff] at h
    obtain ⟨fs, hfs, node, hnode, values, hvalues, inventory, hinventory, history, hhistory,
      achievements, hachievements, writtenAt, hwrittenAt, h⟩ := h
    cases h
    refine ⟨fs, hfs, fun f => ?_⟩
    cases f with
    | node => exact hnode
    | values => exact hvalues
    | inventory => exact hinventory
    | history => exact hhistory
    | achievements => exact hachievements
    | writtenAt => exact hwrittenAt
  · rintro ⟨fs, hfs, hread⟩
    simp only [ofJson?, Option.bind_eq_bind, Option.bind_eq_some_iff]
    exact ⟨fs, hfs, _, hread .node, _, hread .values, _, hread .inventory, _, hread .history,
      _, hread .achievements, _, hread .writtenAt, rfl⟩

theorem mem_written {members : List (String × Json)} {f : Field} {j : Json} :
    (f.name, j) ∈ written members ↔ (f.name, j) ∈ members := by
  simp only [written, List.mem_filter, contains_name, and_true]

theorem lookup_written {members : List (String × Json)} (h : Unrepeated members) {f : Field}
    {j : Json} : (written members).lookup f.name = some j ↔ (f.name, j) ∈ members := by
  rw [← mem_written]
  exact ⟨mem_of_lookup, lookup_of_mem (unrepeated_iff.mp h)⟩

theorem get_written {members : List (String × Json)} (h : Unrepeated members) {f : Field}
    {x : f.Content} :
    (written members).get f.name f.read? f.default = some x ↔ f.Stands members x := by
  rw [Json.Fields.get, Field.Stands]
  cases hj : (written members).lookup f.name with
  | some j =>
    have hmem := (lookup_written h).mp hj
    have hone : ∀ j', (f.name, j') ∈ members → j' = j := fun j' hj' =>
      Option.some.inj (((lookup_written h).mpr hj').symm.trans hj)
    have hin : f.name ∈ members.map Prod.fst := List.mem_map.mpr ⟨_, hmem, rfl⟩
    simp only [Field.read?_eq_some_iff]
    exact ⟨fun hx => ⟨fun j' hj' => hone j' hj' ▸ hx, fun hout => absurd hin hout⟩,
      fun hx => hx.1 j hmem⟩
  | none =>
    have hout : ∀ j, (f.name, j) ∉ members := by
      intro j hmem
      rw [(lookup_written h).mpr hmem] at hj
      cases hj
    have hnone : f.name ∉ members.map Prod.fst := by simpa using hout
    simp only [Option.some.injEq]
    exact ⟨fun hx => ⟨fun j hmem => absurd hmem (hout j), fun _ => hx.symm⟩,
      fun hx => (hx.2 hnone).symm⟩

/-- Every field is read on its own. -/
theorem ofJson?_object_iff {members : List (String × Json)} {s : Save} :
    ofJson? (.object members) = some s ↔
      Unrepeated members ∧ ∀ f : Field, f.Stands members (f.of s) := by
  rw [ofJson?_eq_some_iff]
  simp only [fields?_object]
  constructor
  · rintro ⟨_, ⟨hu, rfl⟩, hread⟩
    exact ⟨hu, fun f => (get_written hu).mp (hread f)⟩
  · rintro ⟨hu, hstands⟩
    exact ⟨_, ⟨hu, rfl⟩, fun f => (get_written hu).mpr (hstands f)⟩

theorem exists_stands {members : List (String × Json)} (h : Unrepeated members) {f : Field}
    (hshape : ∀ j, (f.name, j) ∈ members → ∃ x, f.Shaped j x) : ∃ x, f.Stands members x := by
  simp only [← get_written h, Json.Fields.get]
  cases hj : (written members).lookup f.name with
  | some j =>
    obtain ⟨x, hx⟩ := hshape j ((lookup_written h).mp hj)
    exact ⟨x, Field.read?_eq_some_iff.mpr hx⟩
  | none => exact ⟨_, rfl⟩

theorem ofJson?_object_isSome {members : List (String × Json)} :
    (ofJson? (.object members)).isSome ↔
      Unrepeated members ∧ ∀ f : Field, ∀ j, (f.name, j) ∈ members → ∃ x, f.Shaped j x := by
  rw [Option.isSome_iff_exists]
  constructor
  · rintro ⟨s, hs⟩
    obtain ⟨hu, hstands⟩ := ofJson?_object_iff.mp hs
    exact ⟨hu, fun f j hj => ⟨f.of s, (hstands f).1 j hj⟩⟩
  · rintro ⟨hu, hshape⟩
    choose x hx using fun f : Field => exists_stands hu (hshape f)
    exact ⟨Field.save x, ofJson?_object_iff.mpr ⟨hu, fun f => (Field.of_save x f).symm ▸ hx f⟩⟩

section Rearranged

variable {members members' : List (String × Json)}

theorem Field.stands_congr {f : Field} {x : f.Content}
    (h : ∀ j, (f.name, j) ∈ members' ↔ (f.name, j) ∈ members) :
    f.Stands members' x ↔ f.Stands members x := by
  simp only [Stands, List.mem_map, Prod.exists, exists_and_right, exists_eq_right, h]

/-- Only the members that are read count, and their order does not. -/
theorem ofJson?_object_congr (h : (written members').Perm (written members)) :
    ofJson? (.object members') = ofJson? (.object members) := by
  have hmem : ∀ (f : Field) j, (f.name, j) ∈ members' ↔ (f.name, j) ∈ members := fun f j => by
    rw [← mem_written, h.mem_iff, mem_written]
  have hu : Unrepeated members' ↔ Unrepeated members := by
    rw [unrepeated_iff, unrepeated_iff, (h.map Prod.fst).nodup_iff]
  refine Option.ext fun s => ?_
  rw [ofJson?_object_iff, ofJson?_object_iff, hu]
  exact and_congr_right fun _ => forall_congr' fun f => f.stands_congr (hmem f)

theorem ofJson?_object_of_added {added : List (String × Json)}
    (hadded : ∀ m ∈ added, m.1 ∉ fieldNames) (h : members'.Perm (added ++ members)) :
    ofJson? (.object members') = ofJson? (.object members) := by
  refine ofJson?_object_congr ?_
  have hnone : written added = [] := List.filter_eq_nil_iff.mpr fun m hm => by simpa using hadded m hm
  calc (written members').Perm (written (added ++ members)) := h.filter _
    _ = written members := by rw [written, List.filter_append, ← written, hnone]; rfl

/-- What is left out gives way to a default, and what is left keeps what it holds. -/
theorem ofJson?_object_of_sublist (h : members'.Sublist members) {s : Save}
    (hs : ofJson? (.object members) = some s) : ofJson? (.object members') =
      some (Field.save fun f => if f.name ∈ members'.map Prod.fst then f.of s else f.default) := by
  obtain ⟨hu, hstands⟩ := ofJson?_object_iff.mp hs
  refine ofJson?_object_iff.mpr ⟨fun f => ((h.map Prod.fst).count_le _).trans (hu f), fun f => ?_⟩
  rw [Field.of_save]
  by_cases hin : f.name ∈ members'.map Prod.fst
  · rw [if_pos hin]
    exact ⟨fun j hj => (hstands f).1 j (h.subset hj), fun hout => absurd hin hout⟩
  · rw [if_neg hin]
    exact ⟨fun j hj => absurd (List.mem_map.mpr ⟨_, hj, rfl⟩) hin, fun _ => rfl⟩

end Rearranged

theorem restore_invalidSave_iff {text : String} {story : Story} {settings : Settings}
    {g : Generator} :
    Playthrough.restore story text settings g = .error .invalidSave ↔ ofText? text = none := by
  rw [Playthrough.restore]
  cases ofText? text with
  | none => simp
  | some s =>
    cases hn : story.nodes.get? (story.entry s.progress) with
    | none => simp [Playthrough.start_of_none, hn]
    | some n => simp [Playthrough.start_of_some, hn]

/-- A text that holds an object is a save if and only if no field is written twice and each one that is written
has its shape. What a field holds is then in the member of its name, and is the default if there is none: so
members may be rearranged, others may be added to them, and some may be left out without a change
to the rest. A text that is no save cannot be taken up. -/
theorem read_by_fields {text : String} {members : List (String × Json)}
    (htext : Json.ofText? text = some (.object members)) :
    ((ofText? text).isSome ↔
      Unrepeated members ∧ ∀ f : Field, ∀ j, (f.name, j) ∈ members → ∃ x, f.Shaped j x) ∧
    (∀ s, ofText? text = some s ↔
      Unrepeated members ∧ ∀ f : Field, f.Stands members (f.of s)) ∧
    (∀ story settings g,
      Playthrough.restore story text settings g = .error .invalidSave ↔ ofText? text = none) ∧
    ∀ text' members', Json.ofText? text' = some (.object members') →
      (∀ added, (∀ m ∈ added, ∀ f : Field, m.1 ≠ f.name) → members'.Perm (added ++ members) →
        ofText? text' = ofText? text) ∧
      (members'.Sublist members → ∀ s, ofText? text = some s → ∃ s', ofText? text' = some s' ∧
        ∀ f : Field, f.of s' = if f.name ∈ members'.map Prod.fst then f.of s else f.default) := by
  have hread : ∀ text members, Json.ofText? text = some (.object members) →
      ofText? text = ofJson? (.object members) := by
    intro text members h
    rw [ofText?, h, Option.bind_some]
  rw [hread text members htext]
  refine ⟨ofJson?_object_isSome, fun s => ofJson?_object_iff, fun story settings g => ?_,
    fun text' members' htext' => ?_⟩
  · rw [restore_invalidSave_iff, hread text members htext]
  · rw [hread text' members' htext']
    refine ⟨fun added hadded hperm => ofJson?_object_of_added (fun m hm hname => ?_) hperm,
      fun hsub s hs => ⟨_, ofJson?_object_of_sublist hsub hs, fun f => Field.of_save _ f⟩⟩
    obtain ⟨f, hf⟩ := mem_fieldNames.mp hname
    exact hadded m hm f hf.symm

/-- The wind was noted twice, and nothing was carried. -/
def voyage : List (String × Json) :=
  let winds := [("wind", .count 3), ("storm", .flag false), ("wind", .text "calm")]
  [("history", .array [.text "dock", .text "sea"]), ("captain", .array [.null]),
    ("variables", .object winds), ("timestamp", .text "2024-05-01T08:30:00+02:00"),
    ("currentNode", .text "sea")]

def voyageSave : Save where
  progress := ⟨"sea", Dictionary.ofList [("wind", .text "calm"), ("storm", .flag false)], [],
    ["dock", "sea"], []⟩
  writtenAt := Instant.make? 19844 23400 0

def voyageText (members : List (String × Json)) : String := (Json.object members).toText

theorem read_by_fields_voyage :
    Json.ofText? (voyageText voyage) = some (.object voyage) ∧
    ofText? (voyageText voyage) = some voyageSave ∧
    ofText? (voyageText (("cargo", .null) :: voyage.reverse)) = some voyageSave ∧
    (∃ s, ofText? (voyageText (voyage.drop 2)) = some s ∧ s.progress.node = "sea" ∧
      s.progress.values = voyageSave.progress.values ∧ s.progress.history = []) ∧
    ofText? (voyageText (("currentNode", .text "dock") :: voyage)) = none := by
  have htext : ∀ members, (Json.object members).reread = .object members →
      Json.ofText? (voyageText members) = some (.object members) := fun members h => by
    rw [voyageText, Json.ofText?_toText, h]
  have hvoyage := htext voyage rfl
  have hs : ofText? (voyageText voyage) = some voyageSave := by
    rw [ofText?, hvoyage]
    decide +kernel
  obtain ⟨-, -, -, hother⟩ := read_by_fields hvoyage
  refine ⟨hvoyage, hs, ?_, ?_, ?_⟩
  · have hcargo := hother _ (("cargo", .null) :: voyage.reverse) (htext _ rfl)
    refine (hcargo.1 [("cargo", .null)] (fun m hm f => ?_) ?_).trans hs
    · rw [List.mem_singleton.mp hm]
      cases f <;> decide
    · exact (List.reverse_perm voyage).cons _
  · have hdropped := hother _ (voyage.drop 2) (htext _ rfl)
    obtain ⟨s, hread, hfields⟩ := hdropped.2 (List.drop_sublist 2 voyage) voyageSave hs
    exact ⟨s, hread, hfields .node, hfields .values, hfields .history⟩
  · have hrepeated := read_by_fields (htext (("currentNode", .text "dock") :: voyage) rfl)
    rw [← Option.not_isSome_iff_eq_none, hrepeated.1]
    exact fun h => absurd h.1 (by decide)

end Save

end Gamebook
