import Gamebook.Proofs.Json.Settling

namespace Gamebook

namespace Json

/-- What `read` finds in a tree as it was written, `read'` finds in the settled tree. -/
def Settles {α : Type u} (read read' : Json → Option α) : Prop := ∀ j, Kept (read j) (read' j.settle)

section Leaves

variable {α : Type u} {read : Json → Option α}

/-- A reader that passes over arrays and objects reads the settled tree in the same way. -/
theorem settles_of_leaf (harray : ∀ items, read (array items) = none)
    (hobject : ∀ members, read (object members) = none) : Settles read read := by
  intro j
  cases j with
  | array items => exact harray items ▸ .none
  | object members => exact hobject members ▸ .none
  | _ => simp only [settle]; exact .rfl

theorem text?_settles : Settles text? text? := settles_of_leaf (fun _ => rfl) (fun _ => rfl)

theorem flag?_settles : Settles flag? flag? := settles_of_leaf (fun _ => rfl) (fun _ => rfl)

theorem number?_settles : Settles number? number? := settles_of_leaf (fun _ => rfl) (fun _ => rfl)

theorem word?_settles {blank : Json → Bool} (hblank : ∀ j, blank j.settle = blank j) :
    Settles (word? blank) (word? blank) := by
  intro j
  match j with
  | .text s => exact text?_settles (.text s)
  | .object [(name, j)] =>
    have hsettle : (object [(name, j)]).settle = object [(name, j.settle)] := by
      rw [settle_object, settled, settleMembers_eq]
      rfl
    rw [hsettle, word?, word?, hblank]
    exact .rfl
  | .object [] | .object (_ :: _ :: _) => exact .none
  | .null | .flag _ | .count _ | .number _ | .array _ | .unreadable => exact .none

end Leaves

section Records

/-- Fields that hold what others hold, settled. -/
def Fields.Settled (fs fs' : Fields) : Prop := ∀ name, fs'.lookup name = (fs.lookup name).map settle

theorem lookup_zip_map (declared : List String) (items : List Json) (name : String) :
    (declared.zip (items.map settle)).lookup name = ((declared.zip items).lookup name).map settle := by
  rw [List.zip_map_right]
  exact lookup_map_entries name (declared.zip items) fun e => settle e.2

theorem fields?_array_iff {declared : List String} {items : List Json} {fs : Fields} :
    (array items).fields? declared = some fs ↔
      items.length ≤ declared.length ∧ declared.zip items = fs := by
  simp [fields?]

theorem fields?_object_iff {declared : List String} {members : List (String × Json)} {fs : Fields} :
    (object members).fields? declared = some fs ↔ (fs.map Prod.fst).Nodup ∧
      (members.filter fun m => declared.contains m.1) = fs := by
  simp only [fields?, Option.ite_none_right_eq_some, Option.some.injEq]
  exact ⟨fun ⟨hnodup, hfs⟩ => ⟨hfs ▸ hnodup, hfs⟩, fun ⟨hnodup, hfs⟩ => ⟨hfs ▸ hnodup, hfs⟩⟩

theorem lookup_declared {declared : List String} {name : String}
    (h : declared.contains name = true) (members : List (String × Json)) :
    (members.filter fun m => declared.contains m.1).lookup name = members.lookup name := by
  rw [lookup_filter_names, if_pos h]

/-- Of declared members that are not repeated it does not matter which of them stands. -/
theorem lookup_reverse_of_declared {declared : List String} {members : List (String × Json)}
    (h : ((members.filter fun m => declared.contains m.1).map Prod.fst).Nodup) {name : String}
    (hname : declared.contains name = true) : members.reverse.lookup name = members.lookup name := by
  rw [← lookup_declared hname, List.filter_reverse, lookup_reverse_of_nodup h, lookup_declared hname]

theorem fields?_settled {j : Json} {declared : List String} {fs : Fields}
    (h : j.fields? declared = some fs) :
    ∃ fs', j.settle.fields? declared = some fs' ∧ fs.Settled fs' := by
  match j with
  | .array items =>
    obtain ⟨hle, rfl⟩ := fields?_array_iff.mp h
    rw [settle_array]
    exact ⟨_, fields?_array_iff.mpr ⟨by simpa using hle, rfl⟩, lookup_zip_map declared items⟩
  | .object members =>
    obtain ⟨hnodup, rfl⟩ := fields?_object_iff.mp h
    have hleft : (((settled members).entries.filter fun m => declared.contains m.1).map
        Prod.fst).Nodup :=
      (settled members).entries_nodup.sublist (List.filter_sublist.map _)
    rw [settle_object]
    refine ⟨_, fields?_object_iff.mpr ⟨hleft, rfl⟩, fun name => ?_⟩
    rw [lookup_filter_names, lookup_filter_names]
    cases hname : declared.contains name with
    | false => rfl
    | true =>
      rw [if_pos rfl, if_pos rfl, ← lookup_reverse_of_declared hnodup hname]
      exact lookup_settled members name
  | .null | .flag _ | .count _ | .number _ | .text _ | .unreadable => cases h

variable {α : Type} {β : Type u}

theorem fields?_settles (declared : List String) (j : Json) {read read' : Fields → Option α}
    (h : ∀ fs fs', fs.Settled fs' → Kept (read fs) (read' fs')) :
    Kept (j.fields? declared >>= read) (j.settle.fields? declared >>= read') := by
  intro x hx
  obtain ⟨fs, hfs, hx⟩ := Option.bind_eq_some_iff.mp hx
  obtain ⟨fs', hfs', hs⟩ := fields?_settled hfs
  exact Option.bind_eq_some_iff.mpr ⟨fs', hfs', h fs fs' hs x hx⟩

namespace Fields.Settled

variable {fs fs' : Fields} {read read' : Json → Option β}

theorem get (hs : fs.Settled fs') (hr : Settles read read') (name : String) (default : β) :
    Kept (fs.get name read default) (fs'.get name read' default) := by
  unfold Fields.get
  rw [hs name]
  cases fs.lookup name with
  | none => exact .rfl
  | some j => exact hr j

theorem need (hs : fs.Settled fs') (hr : Settles read read') (name : String) :
    Kept (fs.need name read) (fs'.need name read') := by
  unfold Fields.need
  rw [hs name]
  cases fs.lookup name with
  | none => exact .rfl
  | some j => exact hr j

theorem maybe (hs : fs.Settled fs') (hr : Settles read read') (name : String) :
    Kept (fs.maybe name read) (fs'.maybe name read') := by
  unfold Fields.maybe
  rw [hs name]
  cases fs.lookup name with
  | none => exact .rfl
  | some j =>
    cases j with
    | null => exact .rfl
    | _ => exact (hr _).map some

end Fields.Settled

end Records

section Collections

variable {α : Type} {read read' : Json → Option α}

theorem Settles.list? (h : Settles read read') : Settles (list? read) (list? read') := by
  intro j
  match j with
  | .array items =>
    intro xs hxs
    have hall := mapM_eq_some_iff.mp hxs
    rw [settle_array]
    exact mapM_eq_some_iff.mpr (List.forall₂_map_left_iff.mpr (hall.imp fun j x hx => h j x hx))
  | .object _ | .null | .flag _ | .count _ | .number _ | .text _ | .unreadable => exact .none

/-- An entry for each member, with what is read in it. -/
def entries? (read : Json → Option α) (members : List (String × Json)) : Option (List (String × α)) :=
  members.mapM fun m => (read m.2).map fun x => (m.1, x)

theorem entries?_eq_some_iff {members : List (String × Json)} {es : List (String × α)} :
    entries? read members = some es ↔
      List.Forall₂ (fun m e => m.1 = e.1 ∧ read m.2 = some e.2) members es := by
  rw [entries?, mapM_eq_some_iff]
  refine iff_of_eq (congrArg (fun R => List.Forall₂ R members es) ?_)
  funext m e
  obtain ⟨name, x⟩ := e
  simp [and_comm]

theorem names_of_entries? {members : List (String × Json)} {es : List (String × α)}
    (h : List.Forall₂ (fun m e => m.1 = e.1 ∧ read m.2 = some e.2) members es) :
    members.map Prod.fst = es.map Prod.fst := by
  induction h with
  | nil => rfl
  | cons hm _ ih => simp [hm.1, ih]

theorem lookup_of_entries? {members : List (String × Json)} {es : List (String × α)}
    (h : List.Forall₂ (fun m e => m.1 = e.1 ∧ read m.2 = some e.2) members es) (name : String) :
    es.lookup name = (members.lookup name).bind read := by
  induction h with
  | nil => rfl
  | @cons m e ms es hm _ ih =>
    obtain ⟨k, j⟩ := m
    obtain ⟨k', x⟩ := e
    obtain ⟨rfl, hx⟩ := hm
    by_cases hname : name = k
    · subst hname
      simp [hx]
    · have hb : (name == k) = false := by simpa using hname
      simpa only [List.lookup_cons, hb] using ih

theorem read_of_entries? {members : List (String × Json)} {es : List (String × α)}
    (h : List.Forall₂ (fun m e => m.1 = e.1 ∧ read m.2 = some e.2) members es) :
    ∀ m ∈ members, ∃ x, read m.2 = some x := by
  induction h with
  | nil => simp
  | cons hm _ ih => exact List.forall_mem_cons.mpr ⟨⟨_, hm.2⟩, ih⟩

/-- Where something is read in every member, there are entries. -/
theorem exists_entries? {members : List (String × Json)}
    (h : ∀ m ∈ members, ∃ x, read m.2 = some x) : ∃ es : List (String × α),
      List.Forall₂ (fun m e => m.1 = e.1 ∧ read m.2 = some e.2) members es := by
  induction members with
  | nil => exact ⟨[], .nil⟩
  | cons m ms ih =>
    obtain ⟨⟨x, hx⟩, htail⟩ := List.forall_mem_cons.mp h
    obtain ⟨es, hes⟩ := ih htail
    exact ⟨(m.1, x) :: es, .cons ⟨rfl, hx⟩ hes⟩

/-- A dictionary is read where something is read in every member, and the last member of a name stands. -/
theorem dictionary?_eq_some_iff {j : Json} {d : Dictionary α} :
    dictionary? read j = some d ↔ ∃ members, j = object members ∧
      (∀ m ∈ members, ∃ x, read m.2 = some x) ∧
      ∀ name, d.get? name = (members.reverse.lookup name).bind read := by
  constructor
  · intro h
    match j with
    | .object members =>
      obtain ⟨es, hes, rfl⟩ := Option.map_eq_some_iff.mp h
      have hall := entries?_eq_some_iff.mp hes
      refine ⟨members, rfl, read_of_entries? hall, fun name => ?_⟩
      rw [Dictionary.get?_ofList, lookup_of_entries? (List.forall₂_reverse_iff.mpr hall)]
  · rintro ⟨members, rfl, hread, hget⟩
    obtain ⟨es, hall⟩ := exists_entries? hread
    refine Option.map_eq_some_iff.mpr
      ⟨es, entries?_eq_some_iff.mpr hall, Dictionary.ext_get? fun name => ?_⟩
    rw [Dictionary.get?_ofList, lookup_of_entries? (List.forall₂_reverse_iff.mpr hall), hget]

theorem Settles.dictionary? (h : Settles read read') :
    Settles (dictionary? read) (dictionary? read') := by
  intro j d hd
  obtain ⟨members, rfl, hread, hget⟩ := dictionary?_eq_some_iff.mp hd
  rw [settle_object]
  refine dictionary?_eq_some_iff.mpr ⟨_, rfl, fun e he => ?_, fun name => ?_⟩
  · obtain ⟨j, hj, hsettle⟩ := mem_settled he
    obtain ⟨x, hx⟩ := hread _ hj
    exact ⟨x, hsettle ▸ h j x hx⟩
  · rw [hget, lookup_reverse_settled]
    cases hm : members.reverse.lookup name with
    | none => rfl
    | some j =>
      obtain ⟨x, hx⟩ := hread _ (List.mem_reverse.mp (mem_of_lookup hm))
      exact hx.trans (h j x hx).symm

end Collections

end Json

end Gamebook
