import Gamebook.Dictionary

namespace Gamebook

theorem exists_split {α : Type u} {xs : List α} {i : Nat} {x : α} (h : xs[i]? = some x) :
    ∃ before after, xs = before ++ x :: after ∧ before.length = i := by
  obtain ⟨hlt, rfl⟩ := List.getElem?_eq_some_iff.mp h
  refine ⟨xs.take i, xs.drop (i + 1), ?_, List.length_take_of_le (Nat.le_of_lt hlt)⟩
  rw [← List.drop_eq_getElem_cons hlt, List.take_append_drop]

section Lookup

variable {α : Type u} {β : Type v} (name : String) (es : List (String × α))

theorem lookup_map_entries (f : String × α → β) :
    (es.map fun e => (e.1, f e)).lookup name = (es.lookup name).map fun x => f (name, x) := by
  induction es with
  | nil => rfl
  | cons e es ih =>
    obtain ⟨k, x⟩ := e
    rw [List.map_cons, List.lookup_cons, List.lookup_cons, ih]
    by_cases h : name = k
    · subst h
      simp
    · have hb : (name == k) = false := by simpa using h
      simp [hb]

theorem lookup_filter_names (p : String → Bool) :
    (es.filter fun e => p e.1).lookup name = if p name then es.lookup name else none := by
  induction es with
  | nil => simp
  | cons e es ih =>
    obtain ⟨k, x⟩ := e
    by_cases h : name = k
    · subst h
      cases hp : p name <;> simp [hp, ih]
    · have hb : (name == k) = false := by simpa using h
      cases hp : p k <;> simp [hp, ih, List.lookup_cons, hb]

variable {name es}

theorem lookup_eq_none_of_notMem (h : name ∉ es.map Prod.fst) : es.lookup name = none := by
  rw [List.lookup_eq_none_iff]
  intro e he
  have hne : name ≠ e.1 := fun heq => h (List.mem_map.mpr ⟨e, he, heq.symm⟩)
  simpa using hne

theorem mem_of_lookup {x : α} (h : es.lookup name = some x) : (name, x) ∈ es := by
  obtain ⟨before, after, rfl, -⟩ := List.lookup_eq_some_iff.mp h
  simp

/-- Where no name is repeated the first entry is the last one. -/
theorem lookup_reverse_of_nodup (h : (es.map Prod.fst).Nodup) :
    es.reverse.lookup name = es.lookup name := by
  induction es with
  | nil => rfl
  | cons e es ih =>
    obtain ⟨k, x⟩ := e
    obtain ⟨hk, hes⟩ := List.nodup_cons.mp h
    rw [List.reverse_cons, List.lookup_append, ih hes]
    by_cases hname : name = k
    · subst hname
      simp [lookup_eq_none_of_notMem hk]
    · have hb : (name == k) = false := by simpa using hname
      simp [List.lookup_cons, hb]

end Lookup

namespace Dictionary

variable {α : Type u} {β : Type v}

theorem insert_insert (d : Dictionary α) (name : String) (x y : α) :
    (d.insert name x).insert name y = d.insert name y := by
  refine ext_get? fun other => ?_
  rw [get?_insert, get?_insert, get?_insert]
  split <;> rfl

theorem mem_names_insert {d : Dictionary α} {name other : String} {x : α} :
    other ∈ (d.insert name x).names ↔ other = name ∨ other ∈ d.names := by
  rw [mem_names_iff, mem_names_iff, get?_insert]
  split <;> simp [*]

theorem get?_foldl_insert (es : List (String × α)) (d : Dictionary α) (name : String) :
    (es.foldl (fun d e => d.insert e.1 e.2) d).get? name =
      (es.reverse.lookup name).or (d.get? name) := by
  induction es generalizing d with
  | nil => simp
  | cons e es ih =>
    obtain ⟨k, x⟩ := e
    rw [List.foldl_cons, ih, List.reverse_cons, List.lookup_append, Option.or_assoc, get?_insert]
    congr 1
    by_cases h : name = k
    · subst h
      simp
    · have hb : (name == k) = false := by simpa using h
      simp [List.lookup_cons, hb, h]

theorem get?_ofList (es : List (String × α)) (name : String) :
    (ofList es).get? name = es.reverse.lookup name := by
  rw [ofList, get?_foldl_insert, get?_empty, Option.or_none]

theorem mem_names_ofList {es : List (String × α)} {name : String} :
    name ∈ (ofList es).names ↔ name ∈ es.map Prod.fst := by
  rw [mem_names_iff, get?_ofList, List.lookup_isSome_iff]
  constructor
  · rintro ⟨e, he, hname⟩
    exact List.mem_map.mpr ⟨e, List.mem_reverse.mp he, (beq_iff_eq.mp hname).symm⟩
  · intro h
    obtain ⟨e, he, rfl⟩ := List.mem_map.mp h
    exact ⟨e, List.mem_reverse.mpr he, beq_iff_eq.mpr rfl⟩

/-- Of entries under one name none may follow the one that stands. -/
theorem get?_ofList_split {before after : List (String × α)} {k : String}
    (h : k ∉ after.map Prod.fst) (x : α) (name : String) :
    (ofList (before ++ (k, x) :: after)).get? name =
      if name = k then some x else (ofList (before ++ after)).get? name := by
  simp only [get?_ofList, List.reverse_append, List.reverse_cons, List.append_assoc, List.lookup_append]
  by_cases hname : name = k
  · subst hname
    have hnone : after.reverse.lookup name = none :=
      lookup_eq_none_of_notMem (by simpa using h)
    simp [hnone]
  · have hb : (name == k) = false := by simpa using hname
    simp [List.lookup_cons, hb, hname]

theorem get?_ofList_last {before after : List (String × α)} {k : String}
    (h : k ∉ after.map Prod.fst) (x : α) :
    (ofList (before ++ (k, x) :: after)).get? k = some x := by
  rw [get?_ofList_split h, if_pos rfl]

theorem get?_mapEntries (f : String × α → β) (d : Dictionary α) (name : String) :
    (d.mapEntries f).get? name = (d.get? name).map fun x => f (name, x) :=
  lookup_map_entries name d.entries f

/-- The value under one name is changed. -/
def modify (name : String) (f : α → α) (d : Dictionary α) : Dictionary α :=
  d.mapEntries fun e => if e.1 = name then f e.2 else e.2

theorem get?_modify (name other : String) (f : α → α) (d : Dictionary α) :
    (d.modify name f).get? other = (d.get? other).map fun x => if other = name then f x else x :=
  get?_mapEntries _ d other

theorem contains_modify (name other : String) (f : α → α) (d : Dictionary α) :
    (d.modify name f).contains other = d.contains other := by
  rw [contains, get?_modify, Option.isSome_map, contains]

theorem ofList_modify {before after : List (String × α)} {k : String}
    (h : k ∉ after.map Prod.fst) (x : α) (f : α → α) :
    ofList (before ++ (k, f x) :: after) = (ofList (before ++ (k, x) :: after)).modify k f := by
  refine ext_get? fun name => ?_
  rw [get?_modify, get?_ofList_split h, get?_ofList_split h]
  split
  next => rfl
  next hname => simp

theorem names_ascending (d : Dictionary α) : d.names.Pairwise (· < ·) :=
  List.pairwise_map.mpr d.ascending

theorem entries_nodup (d : Dictionary α) : (d.entries.map Prod.fst).Nodup :=
  d.names_ascending.imp String.ne_of_lt

theorem ofList_entries (d : Dictionary α) : ofList d.entries = d := by
  refine ext_get? fun name => ?_
  rw [get?_ofList, lookup_reverse_of_nodup d.entries_nodup, get?]

theorem flatMap_entries (d : Dictionary α) (f : String → α → List β) :
    d.entries.flatMap (fun e => f e.1 e.2) =
      d.names.flatMap fun name => (d.get? name).elim [] (f name) := by
  rw [names, List.flatMap_map, List.flatMap_def, List.flatMap_def]
  refine congrArg List.flatten (List.map_congr_left fun e he => ?_)
  rw [get?_eq_some_iff.mpr he]
  rfl

theorem mem_of_mem_ofList {es : List (String × α)} {e : String × α} (h : e ∈ (ofList es).entries) :
    e ∈ es := by
  have hget : (ofList es).get? e.1 = some e.2 := get?_eq_some_iff.mpr h
  rw [get?_ofList] at hget
  exact List.mem_reverse.mp (mem_of_lookup hget)

end Dictionary

section LastEntry

variable {α : Type u} {es : List (String × α)} {name : String}

/-- An entry behind which its name does not come again. -/
def LastEntry (es : List (String × α)) (name : String) (x : α) : Prop :=
  ∃ before after, es = before ++ (name, x) :: after ∧ name ∉ after.map Prod.fst

theorem lastEntry_iff {x : α} : LastEntry es name x ↔ es.reverse.lookup name = some x := by
  constructor
  · rintro ⟨before, after, rfl, hafter⟩
    have hnone : after.reverse.lookup name = none :=
      lookup_eq_none_of_notMem (by simpa using hafter)
    simp [List.lookup_append, hnone]
  · intro h
    obtain ⟨after, before, hes, hafter⟩ := List.lookup_eq_some_iff.mp h
    refine ⟨before.reverse, after.reverse, by simpa using congrArg List.reverse hes, ?_⟩
    simp only [List.map_reverse, List.mem_reverse, List.mem_map]
    rintro ⟨e, he, rfl⟩
    simpa using hafter e he

theorem exists_lastEntry : (∃ x, LastEntry es name x) ↔ name ∈ es.map Prod.fst := by
  simp only [lastEntry_iff, ← Option.isSome_iff_exists, ← Dictionary.get?_ofList,
    ← Dictionary.mem_names_iff]
  exact Dictionary.mem_names_ofList

theorem lookup_of_mem {x : α} (h : (es.map Prod.fst).Nodup) (hmem : (name, x) ∈ es) :
    es.lookup name = some x := by
  obtain ⟨before, after, rfl⟩ := List.append_of_mem hmem
  rw [← lookup_reverse_of_nodup h, ← lastEntry_iff]
  rw [List.map_append, List.map_cons] at h
  exact ⟨before, after, rfl, (List.nodup_cons.mp (List.nodup_append.mp h).2.1).1⟩

end LastEntry

end Gamebook
