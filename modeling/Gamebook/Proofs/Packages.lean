import Gamebook.Proofs.Conditions
import Gamebook.Proofs.Json.Rereading

namespace Gamebook

open Json

theorem Value.ofJson?_settles : Settles Value.ofJson? Value.ofJson? :=
  settles_of_leaf (fun _ => rfl) (fun _ => rfl)

section Conditions

theorem Condition.list?_settles : Settles (list? fun j => some (Condition.ofJson j))
    (list? fun j => some (Condition.ofJson j)) :=
  Settles.list? fun j => by rw [Condition.ofJson_settle]; exact .rfl

/-- Gates in a settled tree may be read with more room. -/
theorem Gates.ofJson?_settles {room room' : Nat} (hroom : room ≤ room') :
    Settles (Gates.ofJson? room) (Gates.ofJson? room') := by
  intro j
  by_cases hsound : j.sound room = true
  · have hsettled := sound_settle hsound hroom
    match j with
    | .array items =>
      rw [settle_array] at hsettled
      rw [ofJson?_array hsound, settle_array, ofJson?_array hsettled, ← settle_array]
      exact (Condition.list?_settles (array items)).map _
    | .object members =>
      rw [settle_object] at hsettled
      rw [ofJson?_object hsound, settle_object, ofJson?_object hsettled, ← settle_object]
      refine fields?_settles _ _ fun fs fs' hs => ?_
      refine .bind (hs.get Condition.list?_settles "show_if" []) fun visible => ?_
      exact .bind (hs.get Condition.list?_settles "enable_if" []) fun enabled => .rfl
    | .null | .flag _ | .count _ | .number _ | .text _ | .unreadable =>
      have hnone : ofJson? room _ = none := if_pos hsound
      exact hnone ▸ .none
  · have hnone : ofJson? room j = none := if_neg hsound
    exact hnone ▸ .none

end Conditions

section Changes

theorem isNull_settle (j : Json) : j.settle.isNull = j.isNull := by
  cases j <;> simp [settle, isNull]

theorem Modification.ofJson?_settles : Settles Modification.ofJson? Modification.ofJson? := by
  intro j
  refine fields?_settles _ j fun fs fs' hs => ?_
  refine .bind (hs.get (fun j => (word?_settles isNull_settle j).map Operation.ofWord) "operation" _)
    fun operation => ?_
  exact .bind (hs.need Value.ofJson?_settles "value") fun value => .rfl

theorem texts_settle : Settles (list? text?) (list? text?) := text?_settles.list?

theorem Effects.ofJson?_settles : Settles Effects.ofJson? Effects.ofJson? := by
  intro j
  refine fields?_settles _ j fun fs fs' hs => ?_
  refine .bind (hs.get Value.ofJson?_settles.dictionary? "set_variables" _) fun assignments => ?_
  refine .bind (hs.get Modification.ofJson?_settles.dictionary? "modify_variables" _)
    fun modifications => ?_
  refine .bind (hs.get texts_settle "add_inventory" _) fun gains => ?_
  refine .bind (hs.get texts_settle "remove_inventory" _) fun losses => ?_
  exact .bind (hs.get texts_settle "unlock_achievements" _) fun unlocks => .rfl

theorem Cost.ofJson?_settles : Settles Cost.ofJson? Cost.ofJson? := by
  intro j
  refine fields?_settles _ j fun fs fs' hs => ?_
  refine .bind (hs.get number?_settles.dictionary? "variables" _) fun amounts => ?_
  exact .bind (hs.get texts_settle "inventory" _) fun items => .rfl

end Changes

section Stories

variable {room room' : Nat}

theorem Image.ofJson?_settles : Settles Image.ofJson? Image.ofJson? := by
  intro j
  refine fields?_settles _ j fun fs fs' hs => ?_
  refine .bind (hs.need text?_settles "path") fun path => ?_
  refine .bind (hs.maybe text?_settles "alt_text") fun altText => ?_
  exact .bind (hs.maybe text?_settles "format") fun format => .rfl

theorem Audio.ofJson?_settles : Settles Audio.ofJson? Audio.ofJson? := by
  intro j
  refine fields?_settles _ j fun fs fs' hs => ?_
  refine .bind (hs.need text?_settles "path") fun path => ?_
  refine .bind (hs.get (fun j => (Value.ofJson?_settles j).map loops) "loop" _) fun loop => ?_
  refine .bind (hs.get (fun j => (Value.ofJson?_settles j).map volumeOf) "volume" _) fun volume => ?_
  exact .bind (hs.maybe text?_settles "format") fun format => .rfl

theorem Achievement.ofJson?_settles : Settles Achievement.ofJson? Achievement.ofJson? := by
  intro j
  refine fields?_settles _ j fun fs fs' hs => ?_
  refine .bind (hs.get text?_settles "name" _) fun name => ?_
  refine .bind (hs.maybe text?_settles "description") fun description => ?_
  exact .bind (hs.maybe text?_settles "icon") fun icon => .rfl

theorem Content.ofJson?_settles : Settles Content.ofJson? Content.ofJson? := by
  intro j
  refine fields?_settles _ j fun fs fs' hs => ?_
  refine .bind (hs.get text?_settles "text" _) fun text => ?_
  refine .bind (hs.maybe text?_settles "image") fun image => ?_
  exact .bind (hs.maybe text?_settles "audio") fun audio => .rfl

theorem Choice.ofJson?_settles (hroom : room ≤ room') :
    Settles (Choice.ofJson? room) (Choice.ofJson? room') := by
  intro j
  refine fields?_settles _ j fun fs fs' hs => ?_
  refine .bind (hs.need text?_settles "id") fun id => ?_
  refine .bind (hs.get text?_settles "text" _) fun text => ?_
  refine .bind (hs.need text?_settles "target") fun target => ?_
  have hgates := Gates.ofJson?_settles (Nat.sub_le_sub_right hroom 1)
  refine .bind (hs.get hgates "conditions" _) fun gates => ?_
  refine .bind (hs.maybe Effects.ofJson?_settles "effects") fun effects => ?_
  exact .bind (hs.maybe Cost.ofJson?_settles "cost") fun cost => .rfl

theorem Node.ofJson?_settles (hroom : room ≤ room') :
    Settles (Node.ofJson? room) (Node.ofJson? room') := by
  intro j
  refine fields?_settles _ j fun fs fs' hs => ?_
  refine .bind (hs.get text?_settles "id" _) fun id => ?_
  refine .bind (hs.maybe text?_settles "title") fun title => ?_
  refine .bind (hs.get Content.ofJson?_settles "content" _) fun content => ?_
  have hchoice := Choice.ofJson?_settles (Nat.sub_le_sub_right hroom 2)
  refine .bind (hs.get hchoice.list? "choices" _) fun choices => ?_
  refine .bind (hs.maybe Effects.ofJson?_settles "effects") fun effects => ?_
  exact .bind (hs.get flag?_settles "ending" _) fun ending => .rfl

theorem initialValue?_settles : Settles initialValue? initialValue? := by
  intro j
  exact fields?_settles _ j fun fs fs' hs => hs.maybe Value.ofJson?_settles "initial_value"

theorem Story.ofJson?_settles (hroom : room ≤ room') :
    Settles (Story.ofJson? room) (Story.ofJson? room') := by
  intro j
  refine fields?_settles _ j fun fs fs' hs => ?_
  refine .bind (hs.get text?_settles "start_node" _) fun start => ?_
  have hnode := Node.ofJson?_settles (Nat.sub_le_sub_right hroom 2)
  refine .bind (hs.need hnode.dictionary? "nodes") fun nodes => ?_
  refine .bind (hs.get (fun j => ?_) "game_state" _) fun ⟨initialValues, achievements⟩ => ?_
  · refine fields?_settles _ j fun fs fs' hs => ?_
    refine .bind (hs.get initialValue?_settles.dictionary? "variables" _) fun initialValues => ?_
    exact .bind (hs.get Achievement.ofJson?_settles.dictionary? "achievements" _) fun achievements => .rfl
  · refine .bind (hs.get (fun j => ?_) "assets" _) fun ⟨images, audio⟩ => .rfl
    refine fields?_settles _ j fun fs fs' hs => ?_
    refine .bind (hs.get Image.ofJson?_settles.dictionary? "images" _) fun images => ?_
    exact .bind (hs.get Audio.ofJson?_settles.dictionary? "audio" _) fun audio => .rfl

end Stories

section Packages

theorem Package.ofJson?_story {j : Json} {p : Package} (h : ofJson? j = some p) :
    ∃ fs, j.fields? ["id", "title", "author", "description", "thumbnail", "tags",
      "estimated_play_time", "rating", "story"] = some fs ∧
      fs.need "story" (Story.ofJson? (depthLimit - 1)) = some p.story := by
  simp only [ofJson?, Option.bind_eq_bind, Option.bind_eq_some_iff] at h
  obtain ⟨fs, hfs, _, _, _, _, _, _, _, _, _, _, _, _, _, _, _, _, story, hstory, h⟩ := h
  cases h
  exact ⟨fs, hfs, hstory⟩

/-- In a settled object without nodes the story is what stands under `story`. -/
theorem Story.body_settle {members : List (String × Json)} {j : Json}
    (hnodes : ∀ m ∈ members, m.1 ≠ "nodes") (hstory : members.reverse.lookup "story" = some j) :
    body (object members).settle = j.settle := by
  have hnone : (settled members).entries.lookup "nodes" = none := by
    have hmissing : members.reverse.lookup "nodes" = none :=
      lookup_eq_none_of_notMem (by simpa using fun j hj => hnodes ("nodes", j) hj rfl)
    rw [lookup_settled, hmissing, Option.map_none]
  have hsome : (settled members).entries.lookup "story" = some j.settle := by
    rw [lookup_settled, hstory, Option.map_some]
  rw [settle_object, body]
  simp only [hnone, hsome]

/-- A text that holds a package holds its story too, as long as the text can be read as data and names
no nodes beside the package. -/
theorem Story.ofText_of_package {text : String} {members : List (String × Json)} {p : Package}
    (htext : ofText? text = some (object members))
    (hsound : (object members).sound depthLimit = true)
    (hnodes : ∀ m ∈ members, m.1 ≠ "nodes") (hp : Package.ofText text = .ok p) :
    Story.ofText text = .ok p.story := by
  rw [Package.ofText, htext, Option.bind_some] at hp
  split at hp
  next raw hraw =>
    split at hp
    next story hfinish =>
      cases hp
      obtain ⟨fs, hfs, hneed⟩ := Package.ofJson?_story hraw
      obtain ⟨j, hlookup, hj⟩ := Option.bind_eq_some_iff.mp hneed
      obtain ⟨hnodup, rfl⟩ := fields?_object_iff.mp hfs
      have hfirst : members.lookup "story" = some j :=
        (lookup_declared (by decide) members).symm.trans hlookup
      have hstory : members.reverse.lookup "story" = some j :=
        (lookup_reverse_of_declared hnodup (by decide)).trans hfirst
      have hsettled : Story.ofJson? depthLimit j.settle = some raw.story :=
        Story.ofJson?_settles (by decide) j raw.story hj
      rw [ofText, htext]
      simp only [if_pos hsound, body_settle hnodes hstory, read, hsettled, hfinish]
      rfl
    next => cases hp
  next => cases hp

/-- A story beside a blurb that nothing reads. Its first node is given twice, the second time as an array,
and the condition of its choice names its kind twice. -/
def ferry : List (String × Json) :=
  let condition := object [("type", .text "random"), ("type", .text "weather")]
  let row := object [("id", .text "row"), ("target", .text "pier"), ("conditions", .array [condition])]
  let bank := array [.text "shore", .null, .array [.text "Rain."], .array [row]]
  let nodes := object [("bank", object []), ("pier", object [("ending", .flag true)]), ("bank", bank)]
  [("blurb", .object [("nodes", .null)]), ("title", .text "Ferry"),
    ("story", object [("start_node", .text "bank"), ("nodes", nodes)])]

def ferryPackage : Package :=
  let row : Choice := ⟨"row", "", "pier", ⟨[], [.unknown]⟩, none, none⟩
  let bank : Node := ⟨"bank", none, ⟨"Rain.", none, none⟩, [row], none, false⟩
  let pier : Node := ⟨"pier", none, Content.empty, [], none, true⟩
  ⟨"", "Ferry", "", "", none, [], none, none,
    ⟨"bank", Dictionary.ofList [("bank", bank), ("pier", pier)], .empty, .empty, .empty, .empty⟩⟩

theorem Story.ofText_of_package_ferry :
    ofText? (object ferry).toText = some (object ferry) ∧ (object ferry).sound depthLimit = true ∧
      (∀ m ∈ ferry, m.1 ≠ "nodes") ∧ Package.ofText (object ferry).toText = .ok ferryPackage ∧
      Story.ofText (object ferry).toText = .ok ferryPackage.story := by
  have htext : ofText? (object ferry).toText = some (object ferry) := ofText?_toText (object ferry)
  have hsound : (object ferry).sound depthLimit = true := by decide
  have hnodes : ∀ m ∈ ferry, m.1 ≠ "nodes" := by decide
  have hp : Package.ofText (object ferry).toText = .ok ferryPackage := by
    rw [Package.ofText, htext]
    rfl
  exact ⟨htext, hsound, hnodes, hp, Story.ofText_of_package htext hsound hnodes hp⟩

end Packages

end Gamebook
