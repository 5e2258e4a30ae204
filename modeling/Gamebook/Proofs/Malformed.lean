import Gamebook.Proofs.Conditions
import Gamebook.Proofs.Json.Gap
import Gamebook.Proofs.Loading

namespace Gamebook

open Json

section Places

/-- The two gates of a choice. -/
inductive Gate
  | visible
  | enabled

def Gate.name : Gate → String
  | visible => "show_if"
  | enabled => "enable_if"

def Gates.conditions (gates : Gates) : Gate → List Condition
  | .visible => gates.visible
  | .enabled => gates.enabled

def Gates.modify (gate : Gate) (f : List Condition → List Condition) (gates : Gates) : Gates :=
  match gate with
  | .visible => { gates with visible := f gates.visible }
  | .enabled => { gates with enabled := f gates.enabled }

def Choice.modify (f : Gates → Gates) (c : Choice) : Choice := { c with gates := f c.gates }

def Node.modify (i : Nat) (f : Choice → Choice) (n : Node) : Node :=
  { n with choices := n.choices.modify i f }

def Story.modify (id : String) (f : Node → Node) (s : Story) : Story :=
  { s with nodes := s.nodes.modify id f }

structure ConditionPlace where
  node : String
  choice : Nat
  gate : Gate
  index : Nat

namespace Story

/-- The gate that a condition at this place belongs to. -/
def gate? (s : Story) (place : ConditionPlace) : Option (List Condition) := do
  let n ← s.nodes.get? place.node
  let c ← n.choices[place.choice]?
  return c.gates.conditions place.gate

def setCondition (place : ConditionPlace) (c : Condition) : Story → Story :=
  modify place.node (Node.modify place.choice (Choice.modify
    (Gates.modify place.gate fun gate => gate.modify place.index fun _ => c)))

end Story

theorem Gates.conditions_modify (gates : Gates) (gate : Gate) (f : List Condition → List Condition) :
    (gates.modify gate f).conditions gate = f (gates.conditions gate) := by
  cases gate <;> rfl

theorem Story.gate?_setCondition (s : Story) (place : ConditionPlace) (c : Condition) :
    (s.setCondition place c).gate? place =
      (s.gate? place).map fun gate => gate.modify place.index fun _ => c := by
  unfold gate? setCondition modify
  rw [Dictionary.get?_modify]
  cases s.nodes.get? place.node with
  | none => rfl
  | some n =>
    simp only [Option.map_some, if_pos, Option.bind_eq_bind, Option.bind_some, Node.modify,
      List.getElem?_modify]
    cases n.choices[place.choice]? with
    | none => rfl
    | some choice => exact congrArg some (choice.gates.conditions_modify place.gate _)

end Places

section Spots

/-- Where a condition stands in a gate: in a bare list, or in a list under the gate's name. -/
inductive GateSpot
  | bare (before after : List Json)
  | named (outerBefore : List (String × Json)) (gate : Gate) (before after : List Json)
    (outerAfter : List (String × Json))

namespace GateSpot

def gate : GateSpot → Gate
  | bare _ _ => .enabled
  | named _ gate _ _ _ => gate

def index : GateSpot → Nat
  | bare before _ => before.length
  | named _ _ before _ _ => before.length

def fill (j : Json) : GateSpot → Json
  | bare before after => array (before ++ j :: after)
  | named outerBefore gate before after outerAfter =>
    object (outerBefore ++ (gate.name, array (before ++ j :: after)) :: outerAfter)

end GateSpot

/-- Where a condition stands in a story. Of nodes with one id the last one counts. -/
structure ConditionSpot where
  story : Gap
  isNodes : story.IsField ["start_node", "nodes", "game_state", "assets"] "nodes"
  nodesBefore : List (String × Json)
  id : String
  nodesAfter : List (String × Json)
  isLast : id ∉ nodesAfter.map Prod.fst
  node : Gap
  isChoices : node.IsField ["id", "title", "content", "choices", "effects", "ending"] "choices"
  choicesBefore : List Json
  choicesAfter : List Json
  choice : Gap
  isConditions : choice.IsField ["id", "text", "target", "conditions", "effects", "cost"] "conditions"
  gate : GateSpot

namespace ConditionSpot

def place (spot : ConditionSpot) : ConditionPlace :=
  ⟨spot.id, spot.choicesBefore.length, spot.gate.gate, spot.gate.index⟩

def fillChoice (spot : ConditionSpot) (j : Json) : Json := spot.choice.fill (spot.gate.fill j)

def fillNode (spot : ConditionSpot) (j : Json) : Json :=
  spot.node.fill (array (spot.choicesBefore ++ spot.fillChoice j :: spot.choicesAfter))

/-- The whole story, with this in the condition's place. -/
def fill (spot : ConditionSpot) (j : Json) : Json :=
  spot.story.fill (object (spot.nodesBefore ++ (spot.id, spot.fillNode j) :: spot.nodesAfter))

theorem sound_gate {spot : ConditionSpot} {j : Json} {room : Nat}
    (h : (spot.fill j).sound room = true) : (spot.gate.fill j).sound (room - 5) = true := by
  have hnodes := (sound_object_iff.mp (Gap.sound_fill h)).2 (spot.id, spot.fillNode j) (by simp)
  have hchoice := (sound_array_iff.mp (Gap.sound_fill hnodes)).2 (spot.fillChoice j) (by simp)
  exact Gap.sound_fill hchoice

end ConditionSpot

end Spots

section Reading

variable {j j' : Json} {room : Nat}

theorem Condition.list?_altered (j j' : Json) (before after : List Json) :
    Altered (fun gate => gate.modify before.length fun _ => Condition.ofJson j')
      (fun gate => ∃ c, gate[before.length]? = some c)
      ((array (before ++ j :: after)).list? fun j => some (Condition.ofJson j))
      ((array (before ++ j' :: after)).list? fun j => some (Condition.ofJson j)) := by
  have hread : Altered (fun _ => ofJson j') (fun _ => True) (some (ofJson j)) (some (ofJson j')) :=
    .some trivial
  have hlist : Altered _ _ ((array (before ++ j :: after)).list? fun j => some (ofJson j))
      ((array (before ++ j' :: after)).list? fun j => some (ofJson j)) := Json.list?_altered hread
  exact ⟨hlist.eq_map, fun gate hgate => (hlist.holds gate hgate).imp fun c hc => hc.1⟩

theorem Gates.ofJson?_altered {spot : GateSpot} (h : (spot.fill j).sound room = true)
    (h' : (spot.fill j').sound room = true) :
    Altered (Gates.modify spot.gate fun gate => gate.modify spot.index fun _ => Condition.ofJson j')
      (fun gates => ∃ c, (gates.conditions spot.gate)[spot.index]? = some c)
      (Gates.ofJson? room (spot.fill j)) (Gates.ofJson? room (spot.fill j')) := by
  cases spot with
  | bare before after =>
    simp only [GateSpot.fill] at h h' ⊢
    rw [Gates.ofJson?_array h, Gates.ofJson?_array h']
    exact (Condition.list?_altered j j' before after).map fun gate _ hc => ⟨rfl, hc⟩
  | named outerBefore gate before after outerAfter =>
    simp only [GateSpot.fill] at h h' ⊢
    rw [Gates.ofJson?_object h, Gates.ofJson?_object h']
    have hlist := Condition.list?_altered j j' before after
    refine (Gap.member outerBefore gate.name outerAfter).fields?_altered rfl ?_ (by decide) ?_
    · cases gate <;> decide
    · intro fs fs' hs
      cases gate with
      | visible =>
        refine (hs.get_altered hlist []).bind fun visible hc => ?_
        refine .beside (hs.get (by decide) _ _) fun enabled _ => ?_
        exact .some hc
      | enabled =>
        refine .beside (hs.get (by decide) _ _) fun visible _ => ?_
        refine (hs.get_altered hlist []).bind fun enabled hc => ?_
        exact .some hc

section Choices

variable {f : Gates → Gates} {P : Gates → Prop}

theorem Choice.ofJson?_altered {gap : Gap}
    (hfield : gap.IsField ["id", "text", "target", "conditions", "effects", "cost"] "conditions")
    (h : Altered f P (Gates.ofJson? (room - 1) j) (Gates.ofJson? (room - 1) j')) :
    Altered (Choice.modify f) (fun c => P c.gates) (Choice.ofJson? room (gap.fill j))
      (Choice.ofJson? room (gap.fill j')) := by
  refine gap.fields?_altered hfield (by decide) (by decide) fun fs fs' hs => ?_
  refine .beside (hs.need (by decide) _) fun id _ => ?_
  refine .beside (hs.get (by decide) _ _) fun text _ => ?_
  refine .beside (hs.need (by decide) _) fun target _ => ?_
  refine (hs.get_altered h _).bind fun gates hP => ?_
  refine .beside (hs.maybe (by decide) _) fun effects _ => ?_
  refine .beside (hs.maybe (by decide) _) fun cost _ => ?_
  exact .some hP

end Choices

section Nodes

variable {f : Choice → Choice} {P : Choice → Prop}

theorem Node.ofJson?_altered {gap : Gap} {before after : List Json}
    (hfield : gap.IsField ["id", "title", "content", "choices", "effects", "ending"] "choices")
    (h : Altered f P (Choice.ofJson? (room - 2) j) (Choice.ofJson? (room - 2) j')) :
    Altered (Node.modify before.length f) (fun n => ∃ c, n.choices[before.length]? = some c ∧ P c)
      (Node.ofJson? room (gap.fill (array (before ++ j :: after))))
      (Node.ofJson? room (gap.fill (array (before ++ j' :: after)))) := by
  refine gap.fields?_altered hfield (by decide) (by decide) fun fs fs' hs => ?_
  refine .beside (hs.get (by decide) _ _) fun id _ => ?_
  refine .beside (hs.maybe (by decide) _) fun title _ => ?_
  refine .beside (hs.get (by decide) _ _) fun content _ => ?_
  refine (hs.get_altered (list?_altered h) _).bind fun choices hP => ?_
  refine .beside (hs.maybe (by decide) _) fun effects _ => ?_
  refine .beside (hs.get (by decide) _ _) fun ending _ => ?_
  exact .some hP

end Nodes

section Stories

variable {f : Node → Node} {P : Node → Prop}

theorem Story.ofJson?_altered {gap : Gap} {before after : List (String × Json)} {id : String}
    (hfield : gap.IsField ["start_node", "nodes", "game_state", "assets"] "nodes")
    (hlast : id ∉ after.map Prod.fst)
    (h : Altered f P (Node.ofJson? (room - 2) j) (Node.ofJson? (room - 2) j')) :
    Altered (Story.modify id f) (fun s => ∃ n, s.nodes.get? id = some n ∧ P n)
      (Story.ofJson? room (gap.fill (object (before ++ (id, j) :: after))))
      (Story.ofJson? room (gap.fill (object (before ++ (id, j') :: after)))) := by
  refine gap.fields?_altered hfield (by decide) (by decide) fun fs fs' hs => ?_
  refine .beside (hs.get (by decide) _ _) fun start _ => ?_
  refine (hs.need_altered (dictionary?_altered hlast h)).bind fun nodes hP => ?_
  refine .beside (hs.get (by decide) _ _) fun ⟨initialValues, achievements⟩ _ => ?_
  refine .beside (hs.get (by decide) _ _) fun ⟨images, audio⟩ _ => ?_
  exact .some hP

/-- Whatever stands in a condition's place, the story is read as with anything else there, except for
that condition. -/
theorem ConditionSpot.ofJson?_altered {spot : ConditionSpot} (h : (spot.fill j).sound room = true)
    (h' : (spot.fill j').sound room = true) :
    Altered (Story.setCondition spot.place (Condition.ofJson j'))
      (fun s => ∃ gate c, s.gate? spot.place = some gate ∧ gate[spot.place.index]? = some c)
      (Story.ofJson? room (spot.fill j)) (Story.ofJson? room (spot.fill j')) := by
  have hgates := Gates.ofJson?_altered (sound_gate h) (sound_gate h')
  have hchoice : Altered _ _ (Choice.ofJson? (room - 4) (spot.fillChoice j))
      (Choice.ofJson? (room - 4) (spot.fillChoice j')) :=
    Choice.ofJson?_altered spot.isConditions hgates
  have hnode : Altered _ _ (Node.ofJson? (room - 2) (spot.fillNode j))
      (Node.ofJson? (room - 2) (spot.fillNode j')) := Node.ofJson?_altered spot.isChoices hchoice
  have hstory : Altered _ _ (Story.ofJson? room (spot.fill j)) (Story.ofJson? room (spot.fill j')) :=
    Story.ofJson?_altered spot.isNodes spot.isLast hnode
  refine ⟨hstory.eq_map, fun s hs => ?_⟩
  obtain ⟨n, hn, choice, hchoice, c, hc⟩ := hstory.holds s hs
  refine ⟨choice.gates.conditions spot.gate.gate, c, ?_, hc⟩
  simp [Story.gate?, place, hn, hchoice]

end Stories

end Reading

section Finishing

namespace Story

theorem finish_modify (s : Story) (id : String) {f : Node → Node}
    (hf : ∀ n id, f { n with id } = { f n with id }) :
    (s.modify id f).finish = s.finish.map (modify id f) := by
  have hnodes : (s.nodes.modify id f).mapEntries (fun e => { e.2 with id := e.1 }) =
      (s.nodes.mapEntries fun e => { e.2 with id := e.1 }).modify id f := by
    refine Dictionary.ext_get? fun name => ?_
    simp only [Dictionary.get?_mapEntries, Dictionary.get?_modify]
    cases s.nodes.get? name with
    | none => rfl
    | some n =>
      by_cases h : name = id
      · simp only [h, if_pos, Option.map_some]
        exact congrArg some (hf n id).symm
      · simp only [h, if_false, Option.map_some]
  simp only [finish, modify, hnodes, Dictionary.contains_modify]
  split <;> rfl

theorem gate?_finish {raw s : Story} (h : raw.finish = .ok s) (place : ConditionPlace) :
    s.gate? place = raw.gate? place := by
  unfold finish at h
  simp only at h
  split at h
  next =>
    cases h
    simp only [gate?, Dictionary.get?_mapEntries]
    cases raw.nodes.get? place.node <;> rfl
  next => cases h

/-- What stands in a condition's place decides neither whether the story can be read nor anything in it
beside this condition. What makes no condition there, or one with no operator, is as good as absent. -/
theorem read_condition (spot : ConditionSpot) {v : Json} {room : Nat}
    (hv : (spot.fill v).sound room = true) (hempty : (spot.fill (object [])).sound room = true) :
    read room (spot.fill v) =
      (read room (spot.fill (object []))).map (setCondition spot.place (Condition.ofJson v)) ∧
    (Condition.Unreadable v → Condition.ofJson v = .unknown) ∧
    ∀ s, read room (spot.fill v) = .ok s → ∃ gate, s.gate? spot.place = some gate ∧
      gate[spot.place.index]? = some (Condition.ofJson v) ∧
      (Condition.Unreadable v ∨ Condition.Idle v → ∀ p g,
        Condition.evaluateAll gate p g =
          Condition.evaluateAll (gate.eraseIdx spot.place.index) p g) := by
  obtain ⟨hsame, hthere⟩ := spot.ofJson?_altered hempty hv
  have hread : read room (spot.fill v) =
      (read room (spot.fill (object []))).map (setCondition spot.place (Condition.ofJson v)) := by
    unfold read
    rw [hsame]
    cases ofJson? room (spot.fill (object [])) with
    | none => rfl
    | some raw => exact raw.finish_modify spot.place.node fun _ _ => rfl
  refine ⟨hread, Condition.ofJson_eq_unknown_iff.mpr, fun s hs => ?_⟩
  obtain ⟨raw, hraw, hfinish⟩ := ofJson?_of_read hs
  obtain ⟨old, hold, rfl⟩ := Option.map_eq_some_iff.mp (hsame.symm.trans hraw)
  obtain ⟨gate, c, hgate, hc⟩ := hthere old hold
  have hgate' : s.gate? spot.place = some (gate.modify spot.place.index fun _ => Condition.ofJson v) := by
    rw [gate?_finish hfinish, gate?_setCondition, hgate, Option.map_some]
  have hc' : (gate.modify spot.place.index fun _ => Condition.ofJson v)[spot.place.index]? =
      some (Condition.ofJson v) := by simp [hc]
  refine ⟨_, hgate', hc', fun h p g => (Condition.evaluateAll_eraseIdx hc' ?_ p g).symm⟩
  rcases h with hunreadable | hidle
  · rw [Condition.ofJson_eq_unknown_iff.mpr hunreadable]
    exact Condition.passes_unknown
  · exact hidle.passes

/-- The second condition under `show_if` of a choice in a node that is written as an array. -/
def ford : ConditionSpot where
  story := .member [("start_node", .text "bank")] "nodes" []
  isNodes := rfl
  nodesBefore := [("pier", object [("ending", .flag true)])]
  id := "bank"
  nodesAfter := []
  isLast := by decide
  node := .item [.text "", .null, object []] [.null]
  isChoices := rfl
  choicesBefore := [object [("id", .text "wait"), ("target", .text "bank")]]
  choicesAfter := []
  choice := .member [("id", .text "wade"), ("target", .text "pier")] "conditions" []
  isConditions := rfl
  gate :=
    .named [] .visible [object [("type", .text "achievement"), ("achievement", .text "boots")]] [] []

def fordStory (c : Condition) : Story :=
  let pier : Node := ⟨"pier", none, Content.empty, [], none, true⟩
  let wait : Choice := ⟨"wait", "", "bank", Gates.empty, none, none⟩
  let wade : Choice := ⟨"wade", "", "pier", ⟨[.unlocked "boots", c], []⟩, none, none⟩
  let bank : Node := ⟨"bank", none, Content.empty, [wait, wade], none, false⟩
  ⟨"bank", Dictionary.ofList [("pier", pier), ("bank", bank)], .empty, .empty, .empty, .empty⟩

theorem read_condition_ford :
    let v := object [("type", .text "variable"), ("variable", .text "water"), ("operator", .text "shallow")]
    (ford.fill v).sound depthLimit = true ∧ (ford.fill (object [])).sound depthLimit = true ∧
      Condition.Idle v ∧
      read depthLimit (ford.fill v) = .ok (fordStory (.compares "water" .unknown none)) ∧
      ∀ p g, Condition.evaluateAll [.unlocked "boots", .compares "water" .unknown none] p g =
        Condition.evaluateAll [.unlocked "boots"] p g := by
  intro v
  have hv : (ford.fill v).sound depthLimit = true := by decide
  have hempty : (ford.fill (object [])).sound depthLimit = true := by decide
  have hidle : Condition.Idle v := .compares rfl rfl (.inr ⟨"shallow", rfl, by decide⟩)
  have hs : read depthLimit (ford.fill v) = .ok (fordStory (.compares "water" .unknown none)) := by
    decide +kernel
  obtain ⟨gate, hgate, -, habsent⟩ := (read_condition ford hv hempty).2.2 _ hs
  cases hgate
  exact ⟨hv, hempty, hidle, hs, habsent (.inr hidle)⟩

end Story

end Finishing

end Gamebook
