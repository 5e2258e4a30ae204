namespace Gamebook

/-- Entries under distinct names, ascending by code points. -/
structure Dictionary (α : Type u) where
  entries : List (String × α)
  ascending : entries.Pairwise (fun a b => a.1 < b.1)
deriving DecidableEq

namespace Dictionary

variable {α : Type u} {β : Type v}

def place (name : String) (x : α) : List (String × α) → List (String × α)
  | [] => [(name, x)]
  | (k, y) :: rest =>
    if name < k then (name, x) :: (k, y) :: rest
    else if name = k then (name, x) :: rest
    else (k, y) :: place name x rest

theorem mem_place {name : String} {x : α} {e : String × α} {es : List (String × α)}
    (h : e ∈ place name x es) : e = (name, x) ∨ e ∈ es := by
  induction es with
  | nil => simpa [place] using h
  | cons head rest ih =>
    obtain ⟨k, y⟩ := head
    rw [place] at h
    split at h
    · simpa using h
    · split at h
      · rcases List.mem_cons.mp h with he | he
        · exact Or.inl he
        · exact Or.inr (List.mem_cons_of_mem _ he)
      · rcases List.mem_cons.mp h with he | he
        · exact Or.inr (by simp [he])
        · rcases ih he with hh | hh
          · exact Or.inl hh
          · exact Or.inr (List.mem_cons_of_mem _ hh)

theorem ascending_place {name : String} {x : α} {es : List (String × α)}
    (h : es.Pairwise (fun a b => a.1 < b.1)) :
    (place name x es).Pairwise (fun a b => a.1 < b.1) := by
  induction es with
  | nil => simp [place]
  | cons head rest ih =>
    obtain ⟨k, y⟩ := head
    obtain ⟨hk, hr⟩ := List.pairwise_cons.mp h
    rw [place]
    split
    next hlt =>
      refine List.pairwise_cons.mpr ⟨?_, h⟩
      intro e he
      rcases List.mem_cons.mp he with rfl | hm
      · exact hlt
      · exact String.lt_trans hlt (hk e hm)
    next hge =>
      split
      next heq =>
        subst heq
        exact List.pairwise_cons.mpr ⟨hk, hr⟩
      next hne =>
        refine List.pairwise_cons.mpr ⟨?_, ih hr⟩
        intro e he
        rcases mem_place he with rfl | hm
        · exact Decidable.byContradiction fun hn => hne (String.le_antisymm hn hge)
        · exact hk e hm

def empty : Dictionary α := ⟨[], List.Pairwise.nil⟩

instance : Inhabited (Dictionary α) := ⟨empty⟩

def get? (d : Dictionary α) (name : String) : Option α := d.entries.lookup name

def contains (d : Dictionary α) (name : String) : Bool := (d.get? name).isSome

def insert (d : Dictionary α) (name : String) (x : α) : Dictionary α :=
  ⟨place name x d.entries, ascending_place d.ascending⟩

/-- Of entries under one name the last one stands. -/
def ofList (es : List (String × α)) : Dictionary α :=
  es.foldl (fun d e => d.insert e.1 e.2) empty

def names (d : Dictionary α) : List String := d.entries.map (·.1)

def values (d : Dictionary α) : List α := d.entries.map (·.2)

def size (d : Dictionary α) : Nat := d.entries.length

def isEmpty (d : Dictionary α) : Bool := d.entries.isEmpty

theorem ascending_map {es : List (String × α)} (f : String × α → β)
    (h : es.Pairwise (fun a b => a.1 < b.1)) :
    (es.map fun e => (e.1, f e)).Pairwise (fun a b => a.1 < b.1) :=
  List.pairwise_map.mpr h

def mapEntries (f : String × α → β) (d : Dictionary α) : Dictionary β :=
  ⟨d.entries.map fun e => (e.1, f e), ascending_map f d.ascending⟩

theorem mem_pick {f : α → Option β} {es : List (String × α)} {e : String × β}
    (h : e ∈ es.filterMap fun e => (f e.2).map fun y => (e.1, y)) : ∃ x, (e.1, x) ∈ es := by
  obtain ⟨a, ha, he⟩ := List.mem_filterMap.mp h
  obtain ⟨y, _, rfl⟩ := Option.map_eq_some_iff.mp he
  exact ⟨a.2, ha⟩

theorem ascending_pick {es : List (String × α)} (f : α → Option β)
    (h : es.Pairwise (fun a b => a.1 < b.1)) :
    (es.filterMap fun e => (f e.2).map fun y => (e.1, y)).Pairwise (fun a b => a.1 < b.1) := by
  induction es with
  | nil => simp
  | cons head rest ih =>
    obtain ⟨hk, hr⟩ := List.pairwise_cons.mp h
    cases hf : f head.2 with
    | none => simpa [hf] using ih hr
    | some y =>
      simp only [List.filterMap_cons, hf, Option.map_some]
      refine List.pairwise_cons.mpr ⟨?_, ih hr⟩
      intro e he
      obtain ⟨x, hx⟩ := mem_pick he
      exact hk _ hx

def filterMap (f : α → Option β) (d : Dictionary α) : Dictionary β :=
  ⟨d.entries.filterMap fun e => (f e.2).map fun y => (e.1, y), ascending_pick f d.ascending⟩

theorem lookup_place_self (name : String) (x : α) (es : List (String × α)) :
    (place name x es).lookup name = some x := by
  induction es with
  | nil => simp [place]
  | cons head rest ih =>
    obtain ⟨k, y⟩ := head
    rw [place]
    split
    · simp
    · split
      · simp
      next hne =>
        have hb : (name == k) = false := by simpa using hne
        simpa only [List.lookup_cons, hb] using ih

theorem lookup_place_ne {name other : String} (h : other ≠ name) (x : α)
    (es : List (String × α)) : (place name x es).lookup other = es.lookup other := by
  have hb : (other == name) = false := by simpa using h
  induction es with
  | nil => simp [place, List.lookup_cons, hb]
  | cons head rest ih =>
    obtain ⟨k, y⟩ := head
    rw [place]
    split
    · rw [List.lookup_cons, hb]
    · split
      next heq => subst heq; simp [List.lookup_cons, hb]
      · simp only [List.lookup_cons, ih]

@[simp] theorem get?_empty (name : String) : (empty : Dictionary α).get? name = none := rfl

@[simp] theorem get?_insert_self (d : Dictionary α) (name : String) (x : α) :
    (d.insert name x).get? name = some x := lookup_place_self name x d.entries

theorem get?_insert_ne {name other : String} (h : other ≠ name) (d : Dictionary α) (x : α) :
    (d.insert name x).get? other = d.get? other := lookup_place_ne h x d.entries

theorem get?_insert (d : Dictionary α) (name other : String) (x : α) :
    (d.insert name x).get? other = if other = name then some x else d.get? other := by
  split
  next h => subst h; exact get?_insert_self d other x
  next h => exact get?_insert_ne h d x

theorem lookup_below {es : List (String × α)} {name : String}
    (h : ∀ e ∈ es, name < e.1) : es.lookup name = none := by
  induction es with
  | nil => rfl
  | cons head rest ih =>
    have hne : name ≠ head.1 := by
      intro he
      exact String.lt_irrefl _ (he ▸ h head (by simp))
    have hb : (name == head.1) = false := by simpa using hne
    rw [List.lookup_cons, hb]
    exact ih fun e he => h e (List.mem_cons_of_mem _ he)

theorem lookup_eq_some_iff {es : List (String × α)}
    (h : es.Pairwise (fun a b => a.1 < b.1)) {name : String} {x : α} :
    es.lookup name = some x ↔ (name, x) ∈ es := by
  induction es with
  | nil => simp
  | cons head rest ih =>
    obtain ⟨k, y⟩ := head
    obtain ⟨hk, hr⟩ := List.pairwise_cons.mp h
    by_cases hn : name = k
    · subst hn
      simp only [List.lookup_cons, beq_self_eq_true, Option.some.injEq, List.mem_cons,
        Prod.mk.injEq, true_and]
      constructor
      · intro he; exact Or.inl he.symm
      · rintro (he | he)
        · exact he.symm
        · exact absurd (hk _ he) (String.lt_irrefl _)
    · have hb : (name == k) = false := by simpa using hn
      simp [List.lookup_cons, hb, ih hr, hn]

theorem get?_eq_some_iff {d : Dictionary α} {name : String} {x : α} :
    d.get? name = some x ↔ (name, x) ∈ d.entries := lookup_eq_some_iff d.ascending

theorem mem_names_iff {d : Dictionary α} {name : String} :
    name ∈ d.names ↔ (d.get? name).isSome := by
  constructor
  · intro h
    obtain ⟨e, he, rfl⟩ := List.mem_map.mp h
    rw [get?_eq_some_iff.mpr he]
    rfl
  · intro h
    obtain ⟨x, hx⟩ := Option.isSome_iff_exists.mp h
    exact List.mem_map.mpr ⟨_, get?_eq_some_iff.mp hx, rfl⟩

theorem mem_values_iff {d : Dictionary α} {x : α} :
    x ∈ d.values ↔ ∃ name, d.get? name = some x := by
  simp [values, get?_eq_some_iff]

theorem entries_eq_of_lookup {es fs : List (String × α)}
    (he : es.Pairwise (fun a b => a.1 < b.1)) (hf : fs.Pairwise (fun a b => a.1 < b.1))
    (h : ∀ name, es.lookup name = fs.lookup name) : es = fs := by
  induction es generalizing fs with
  | nil =>
    cases fs with
    | nil => rfl
    | cons head rest =>
      obtain ⟨k, y⟩ := head
      have hh := h k
      simp at hh
  | cons head rest ih =>
    obtain ⟨k, y⟩ := head
    obtain ⟨hk, hr⟩ := List.pairwise_cons.mp he
    cases fs with
    | nil =>
      have hh := h k
      simp at hh
    | cons head' rest' =>
      obtain ⟨k', y'⟩ := head'
      obtain ⟨hk', hr'⟩ := List.pairwise_cons.mp hf
      have hl : (k, y) ∈ (k', y') :: rest' :=
        (lookup_eq_some_iff hf).mp ((h k).symm.trans (by simp))
      have hl' : (k', y') ∈ (k, y) :: rest :=
        (lookup_eq_some_iff he).mp ((h k').trans (by simp))
      have heq : (k, y) = (k', y') := by
        rcases List.mem_cons.mp hl with hh | hh
        · exact hh
        · rcases List.mem_cons.mp hl' with hh' | hh'
          · exact hh'.symm
          · exact absurd (String.lt_trans (hk _ hh') (hk' _ hh)) (String.lt_irrefl _)
      obtain ⟨rfl, rfl⟩ := Prod.mk.inj heq
      congr 1
      refine ih hr hr' fun name => ?_
      by_cases hn : name = k
      · subst hn
        rw [lookup_below hk, lookup_below hk']
      · have hb : (name == k) = false := by simpa using hn
        have hh := h name
        simpa only [List.lookup_cons, hb] using hh

/-- Dictionaries that answer alike are equal. -/
theorem ext_get? {d e : Dictionary α} (h : ∀ name, d.get? name = e.get? name) : d = e := by
  have hh := entries_eq_of_lookup d.ascending e.ascending h
  cases d; cases e; simp_all

end Dictionary

end Gamebook
