import Gamebook.Proofs.Loading
import Gamebook.Proofs.Packages

namespace Gamebook

theorem lookup_zip_iff {α : Type u} {names : List String} (h : names.Nodup) {items : List α}
    {name : String} {x : α} :
    (names.zip items).lookup name = some x ↔
      ∃ i : Nat, names[i]? = some name ∧ items[i]? = some x := by
  induction names generalizing items with
  | nil => simp
  | cons first names ih =>
    obtain ⟨hfirst, hnames⟩ := List.nodup_cons.mp h
    cases items with
    | nil => simp
    | cons item items =>
      by_cases hname : name = first
      · subst hname
        simp only [List.zip_cons_cons, List.lookup_cons, beq_self_eq_true, Option.some.injEq]
        constructor
        · rintro rfl
          exact ⟨0, rfl, rfl⟩
        · rintro ⟨i, hi, hx⟩
          cases i with
          | zero => exact Option.some.inj hx
          | succ i =>
            have hmem : name ∈ names := List.mem_of_getElem? hi
            exact absurd hmem hfirst
      · have hb : (name == first) = false := by simpa using hname
        simp only [List.zip_cons_cons, List.lookup_cons, hb, ih hnames]
        constructor
        · rintro ⟨i, hi, hx⟩
          exact ⟨i + 1, hi, hx⟩
        · rintro ⟨i, hi, hx⟩
          cases i with
          | zero => exact absurd (Option.some.inj hi).symm hname
          | succ i => exact ⟨i, hi, hx⟩

namespace Json

/-- What stands in a record under a declared name: the last member of the name, or the item at its place. -/
inductive Holds (declared : List String) (name : String) : Json → Json → Prop
  | member {members : List (String × Json)} {j : Json} (h : LastEntry members name j) :
    Holds declared name (object members) j
  | item {items : List Json} {i : Nat} {j : Json} (hi : declared[i]? = some name)
    (hj : items[i]? = some j) : Holds declared name (array items) j

variable {declared : List String} {name : String}

/-- In a settled record stands what stood there, settled. -/
theorem holds_settle_iff {j x : Json} : j.settle.Holds declared name x ↔
    ∃ tree, j.Holds declared name tree ∧ tree.settle = x := by
  match j with
  | .object members =>
    have hlast : LastEntry (settled members).entries name x ↔
        ∃ tree, LastEntry members name tree ∧ tree.settle = x := by
      simp only [lastEntry_iff, lookup_reverse_settled, Option.map_eq_some_iff]
    rw [settle_object]
    constructor
    · rintro (h | _)
      obtain ⟨tree, htree, hx⟩ := hlast.mp h
      exact ⟨tree, .member htree, hx⟩
    · rintro ⟨tree, htree | _, hx⟩
      exact .member (hlast.mpr ⟨tree, htree, hx⟩)
  | .array items =>
    rw [settle_array]
    constructor
    · rintro (_ | ⟨hi, hj⟩)
      rw [List.getElem?_map] at hj
      obtain ⟨tree, htree, hx⟩ := Option.map_eq_some_iff.mp hj
      exact ⟨tree, .item hi htree, hx⟩
    · rintro ⟨tree, _ | ⟨hi, hj⟩, rfl⟩
      exact .item hi (by rw [List.getElem?_map, hj, Option.map_some])
  | .null | .flag _ | .count _ | .number _ | .text _ | .unreadable =>
    constructor
    · intro h
      simp only [settle] at h
      cases h
    · rintro ⟨_, ⟨⟩, _⟩

theorem lookup_eq_some_iff (hdeclared : declared.Nodup) (hname : name ∈ declared) {j x : Json}
    {fs : Fields} (h : j.fields? declared = some fs) :
    fs.lookup name = some x ↔ j.Holds declared name x := by
  match j with
  | .object members =>
    obtain ⟨hnodup, rfl⟩ := fields?_object_iff.mp h
    have hcontains : declared.contains name = true := by simpa using hname
    rw [lookup_declared hcontains, ← lookup_reverse_of_declared hnodup hcontains, ← lastEntry_iff]
    exact ⟨.member, fun | .member h => h⟩
  | .array items =>
    obtain ⟨-, rfl⟩ := fields?_array_iff.mp h
    rw [lookup_zip_iff hdeclared]
    exact ⟨fun ⟨_, hi, hj⟩ => .item hi hj, fun | .item hi hj => ⟨_, hi, hj⟩⟩
  | .null | .flag _ | .count _ | .number _ | .text _ | .unreadable => cases h

/-- In a settled object something is read under every name, in the last member of the name. -/
theorem get?_of_settled {α : Type} {read : Json → Option α} {members : List (String × Json)}
    {d : Dictionary α} (h : dictionary? read (object members).settle = some d) (name : String) :
    (∀ x, d.get? name = some x ↔ ∃ tree, LastEntry members name tree ∧ read tree.settle = some x) ∧
      ((∃ x, d.get? name = some x) ↔ name ∈ members.map Prod.fst) := by
  rw [settle_object] at h
  obtain ⟨_, hmembers, hread, hget⟩ := dictionary?_eq_some_iff.mp h
  cases hmembers
  have hiff : ∀ x, d.get? name = some x ↔
      ∃ tree, LastEntry members name tree ∧ read tree.settle = some x := by
    intro x
    rw [hget, lookup_reverse_settled]
    simp only [Option.bind_map, Option.bind_eq_some_iff, lastEntry_iff, Function.comp_apply]
  refine ⟨hiff, ?_⟩
  simp only [hiff, ← exists_lastEntry]
  constructor
  · rintro ⟨_, tree, htree, -⟩
    exact ⟨tree, htree⟩
  · rintro ⟨tree, htree⟩
    have hlast := lookup_settled members name
    rw [lastEntry_iff.mp htree] at hlast
    obtain ⟨x, hx⟩ := hread _ (mem_of_lookup hlast)
    exact ⟨x, tree, htree, hx⟩

end Json

namespace Story

def fieldNames : List String := ["start_node", "nodes", "game_state", "assets"]

theorem node_eq_ok_iff {s : Story} {key : String} {n : Node} :
    s.node key = .ok n ↔ s.nodes.get? key = some n := by
  rw [node]
  cases s.nodes.get? key <;> simp

theorem finish_eq {raw s : Story} (h : raw.finish = .ok s) :
    s = { raw with nodes := raw.nodes.mapEntries fun e => { e.2 with id := e.1 } } := by
  unfold finish at h
  simp only at h
  split at h
  next => cases h; rfl
  next => cases h

theorem finish_node {raw s : Story} (h : raw.finish = .ok s) {key : String} {n : Node} :
    s.node key = .ok n ↔ ∃ m, raw.nodes.get? key = some m ∧ { m with id := key } = n := by
  rw [node_eq_ok_iff, finish_eq h, Dictionary.get?_mapEntries, Option.map_eq_some_iff]

/-- A story as it stands in its tree: its start is the one that is named, or the usual one, and its nodes are read
from the last members under their keys. -/
structure FoundedOn (s : Story) (j : Json) : Prop where
  start_named : ∀ tree, j.Holds fieldNames "start_node" tree → tree = .text s.start
  start_unnamed : (∀ tree, ¬j.Holds fieldNames "start_node" tree) → s.start = "start"
  start_defined : ∃ n, s.node s.start = .ok n
  id_eq : ∀ key n, s.node key = .ok n → n.id = key
  nodes : ∃ members, j.Holds fieldNames "nodes" (.object members) ∧
    (∀ key, (∃ n, s.node key = .ok n) ↔ key ∈ members.map Prod.fst) ∧
    ∀ key n, s.node key = .ok n → ∃ tree raw, LastEntry members key tree ∧
      Node.ofJson? (Json.depthLimit - 2) tree.settle = some raw ∧ { raw with id := key } = n

theorem ofJson?_fields {room : Nat} {j : Json} {s : Story} (h : ofJson? room j = some s) :
    ∃ fs, j.fields? fieldNames = some fs ∧
      fs.get "start_node" Json.text? defaultStart = some s.start ∧
      fs.need "nodes" (Json.dictionary? (Node.ofJson? (room - 2))) = some s.nodes := by
  simp only [ofJson?, Option.bind_eq_bind, Option.bind_eq_some_iff] at h
  obtain ⟨fs, hfs, start, hstart, nodes, hnodes, _, _, _, _, h⟩ := h
  cases h
  exact ⟨fs, hfs, hstart, hnodes⟩

theorem read_founded {j : Json} {s : Story} (h : read Json.depthLimit j.settle = .ok s) :
    s.FoundedOn j := by
  obtain ⟨raw, hraw, hfinish⟩ := ofJson?_of_read h
  obtain ⟨fs, hfs, hstart, hnodes⟩ := ofJson?_fields hraw
  have hlookup : ∀ name ∈ fieldNames, ∀ x, fs.lookup name = some x ↔
      ∃ tree, j.Holds fieldNames name tree ∧ tree.settle = x := fun name hname x =>
    (Json.lookup_eq_some_iff (by decide) hname hfs).trans Json.holds_settle_iff
  have hsame : s.start = raw.start := by rw [finish_eq hfinish]
  rw [Json.Fields.get] at hstart
  obtain ⟨_, hnodesTree, hnodes⟩ := Option.bind_eq_some_iff.mp hnodes
  obtain ⟨tree, htree, rfl⟩ := (hlookup "nodes" (by decide) _).mp hnodesTree
  refine ⟨fun tree htree => ?_, fun hnone => ?_, ?_, fun key n hn => ?_, ?_⟩
  · rw [(hlookup "start_node" (by decide) _).mpr ⟨tree, htree, rfl⟩] at hstart
    cases tree with
    | text t => rw [hsame]; cases hstart; rfl
    | _ => simp [Json.settle, Json.text?] at hstart
  · have hmissing : fs.lookup "start_node" = none := by
      refine Option.eq_none_iff_forall_ne_some.mpr fun x hx => ?_
      obtain ⟨tree, htree, -⟩ := (hlookup "start_node" (by decide) x).mp hx
      exact hnone tree htree
    rw [hmissing] at hstart
    rw [hsame]
    exact (Option.some.inj hstart).symm
  · obtain ⟨n, hn⟩ := Option.isSome_iff_exists.mp (finish_start hfinish)
    exact ⟨n, node_eq_ok_iff.mpr hn⟩
  · exact finish_id hfinish (node_eq_ok_iff.mp hn)
  · cases tree with
    | object members =>
      refine ⟨members, htree, fun key => ?_, fun key n hn => ?_⟩
      · rw [← (Json.get?_of_settled hnodes key).2]
        simp only [finish_node hfinish]
        constructor
        · rintro ⟨_, m, hm, -⟩
          exact ⟨m, hm⟩
        · rintro ⟨m, hm⟩
          exact ⟨_, m, hm, rfl⟩
      · obtain ⟨m, hm, hid⟩ := (finish_node hfinish).mp hn
        obtain ⟨tree, hlast, hread⟩ := ((Json.get?_of_settled hnodes key).1 m).mp hm
        exact ⟨tree, m, hlast, hread, hid⟩
    | _ => simp [Json.settle, Json.dictionary?] at hnodes

/-- The tree that carries the story of a text: what stands under `story` in an object without nodes, else all. -/
inductive Carries : Json → Json → Prop
  | packed {members : List (String × Json)} {j : Json} (hnodes : "nodes" ∉ members.map Prod.fst)
    (hstory : LastEntry members "story" j) : Carries (.object members) j
  | bare {root : Json} (h : ∀ members, root = .object members →
      "nodes" ∈ members.map Prod.fst ∨ "story" ∉ members.map Prod.fst) : Carries root root

theorem exists_carries (root : Json) : ∃ j, Carries root j := by
  by_cases h : ∀ members, root = .object members →
      "nodes" ∈ members.map Prod.fst ∨ "story" ∉ members.map Prod.fst
  · exact ⟨root, .bare h⟩
  · simp only [not_forall, not_or, not_not] at h
    obtain ⟨members, rfl, hnodes, hstory⟩ := h
    obtain ⟨j, hj⟩ := exists_lastEntry.mpr hstory
    exact ⟨j, .packed hnodes hj⟩

theorem Carries.body_settle {root j : Json} (h : Carries root j) : body root.settle = j.settle := by
  cases h with
  | @packed members _ hnodes hstory =>
    exact Story.body_settle (fun m hm heq => hnodes (List.mem_map.mpr ⟨m, hm, heq⟩))
      (lastEntry_iff.mp hstory)
  | bare h =>
    cases root with
    | object members =>
      rw [Json.settle_object, body]
      simp only [Json.lookup_settled]
      rcases h members rfl with hnodes | hstory
      · obtain ⟨j, hj⟩ := exists_lastEntry.mpr hnodes
        simp only [lastEntry_iff.mp hj, Option.map_some]
      · have hnone : members.reverse.lookup "story" = none :=
          lookup_eq_none_of_notMem (by simpa using hstory)
        simp only [hnone, Option.map_none]
        cases members.reverse.lookup "nodes" <;> rfl
    | _ => simp only [Json.settle, body]

theorem ofText_of_carries {text : String} {root j : Json} (htext : Json.ofText? text = some root)
    (hsound : root.sound Json.depthLimit = true) (h : Carries root j) :
    ofText text = (read Json.depthLimit j.settle).mapError .invalidStory := by
  rw [ofText, htext]
  simp only [if_pos hsound, h.body_settle]

theorem ofText_founded {text : String} {s : Story} (h : ofText text = .ok s) :
    ∃ root j, Json.ofText? text = some root ∧ Carries root j ∧ s.FoundedOn j := by
  have hroot := h
  rw [ofText] at hroot
  split at hroot
  next root htext =>
    split at hroot
    next hsound =>
      obtain ⟨j, hj⟩ := exists_carries root
      rw [ofText_of_carries htext hsound hj] at h
      cases hread : read Json.depthLimit j.settle with
      | error flaw => rw [hread] at h; cases h
      | ok t =>
        rw [hread] at h
        cases h
        exact ⟨root, j, htext, hj, read_founded hread⟩
    next => cases hroot
  next => cases hroot

end Story

namespace Package

def fieldNames : List String := ["id", "title", "author", "description", "thumbnail", "tags",
  "estimated_play_time", "rating", "story"]

theorem ofText_founded {text : String} {p : Package} (h : ofText text = .ok p) :
    ∃ root j, Json.ofText? text = some root ∧ root.Holds fieldNames "story" j ∧
      p.story.FoundedOn j := by
  rw [ofText] at h
  split at h
  next raw hraw =>
    obtain ⟨root, htext, hroot⟩ := Option.bind_eq_some_iff.mp hraw
    obtain ⟨fs, hfs, hneed⟩ := Package.ofJson?_story hroot
    obtain ⟨j, hlookup, hj⟩ := Option.bind_eq_some_iff.mp hneed
    have hholds : root.Holds fieldNames "story" j :=
      (Json.lookup_eq_some_iff (by decide) (by decide) hfs).mp hlookup
    have hsettled : Story.ofJson? Json.depthLimit j.settle = some raw.story :=
      Story.ofJson?_settles (by decide) j raw.story hj
    split at h
    next story hfinish =>
      cases h
      have hread : Story.read Json.depthLimit j.settle = .ok story := by
        rw [Story.read, hsettled]
        exact hfinish
      exact ⟨root, j, htext, hholds, Story.read_founded hread⟩
    next => cases h
  next => cases h

end Package

/-- However a text is read, as a story or as a package, the story that comes of it stands in the tree that carries it:
its start is among its nodes, and its nodes are those under whose keys something stands there, each with its key for an
id and otherwise as the last member of the key says. An object with nodes is a story whatever else it has, and one
without them is read as the story that it carries. -/
theorem Story.loaded_founded (text : String) :
    (∀ s, Story.ofText text = .ok s →
      ∃ root j, Json.ofText? text = some root ∧ Carries root j ∧ s.FoundedOn j) ∧
    (∀ p, Package.ofText text = .ok p →
      ∃ root j, Json.ofText? text = some root ∧ root.Holds Package.fieldNames "story" j ∧
        p.story.FoundedOn j) ∧
    ∀ members, Json.ofText? text = some (.object members) →
      (Json.object members).sound Json.depthLimit = true →
      ("nodes" ∈ members.map Prod.fst → Story.ofText text =
        (read Json.depthLimit (Json.object members).settle).mapError .invalidStory) ∧
      ∀ j, "nodes" ∉ members.map Prod.fst → LastEntry members "story" j →
        Story.ofText text = (read Json.depthLimit j.settle).mapError .invalidStory := by
  refine ⟨fun s => ofText_founded, fun p => Package.ofText_founded, fun members htext hsound => ?_⟩
  refine ⟨fun hnodes => ofText_of_carries htext hsound (.bare fun _ h => ?_),
    fun j hnodes hstory => ofText_of_carries htext hsound (.packed hnodes hstory)⟩
  cases h
  exact Or.inl hnodes

/-- A story with another one beside it. Its one node names an id of its own. -/
def jetty : List (String × Json) :=
  [("story", .object ferry), ("nodes", .object [("start", .object [("id", .text "elsewhere")])])]

def jettyStory : Story :=
  let start : Node := ⟨"start", none, Content.empty, [], none, false⟩
  ⟨"start", Dictionary.ofList [("start", start)], .empty, .empty, .empty, .empty⟩

theorem Story.loaded_founded_ferry :
    Package.ofText (Json.object ferry).toText = .ok ferryPackage ∧
    (∃ n, ferryPackage.story.node "bank" = .ok n ∧ n.id = "bank") ∧
    (∃ j, LastEntry ferry "story" j ∧ Story.ofText (Json.object ferry).toText =
      (read Json.depthLimit j.settle).mapError .invalidStory) ∧
    Story.ofText (Json.object jetty).toText = .ok jettyStory ∧
    ∃ n, jettyStory.node "start" = .ok n ∧ n.id = "start" := by
  have hferry : Json.ofText? (Json.object ferry).toText = some (.object ferry) :=
    Json.ofText?_toText (.object ferry)
  have hjetty : Json.ofText? (Json.object jetty).toText = some (.object jetty) :=
    Json.ofText?_toText (.object jetty)
  have hpackage : Package.ofText (Json.object ferry).toText = .ok ferryPackage := by
    rw [Package.ofText, hferry]
    rfl
  obtain ⟨-, hpackages, hcarried⟩ := loaded_founded (Json.object ferry).toText
  obtain ⟨hstories, -, hbare⟩ := loaded_founded (Json.object jetty).toText
  have hstory : Story.ofText (Json.object jetty).toText = .ok jettyStory :=
    (hbare jetty hjetty (by decide)).1 (by decide)
  obtain ⟨_, _, _, _, hbank⟩ := hpackages ferryPackage hpackage
  obtain ⟨n, hn⟩ := hbank.start_defined
  obtain ⟨_, _, _, _, hstart⟩ := hstories jettyStory hstory
  obtain ⟨m, hm⟩ := hstart.start_defined
  have hlast : LastEntry ferry "story" _ := ⟨ferry.take 2, [], rfl, by decide⟩
  exact ⟨hpackage, ⟨n, hn, hbank.id_eq _ n hn⟩,
    ⟨_, hlast, (hcarried ferry hferry (by decide)).2 _ (by decide) hlast⟩, hstory,
    ⟨m, hm, hstart.id_eq _ m hm⟩⟩

end Gamebook
