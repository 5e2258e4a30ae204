import Mathlib.Data.List.Forall2
import Gamebook.Condition
import Gamebook.Proofs.Dictionary

namespace Gamebook

/-- What is found on the left is found on the right. -/
def Kept {α : Type u} (a b : Option α) : Prop := ∀ x, a = some x → b = some x

namespace Kept

variable {α : Type u} {β : Type u}

theorem rfl {a : Option α} : Kept a a := fun _ h => h

theorem none {a : Option α} : Kept Option.none a := fun _ h => nomatch h

theorem bind {a b : Option α} {f f' : α → Option β} (h : Kept a b) (hf : ∀ x, Kept (f x) (f' x)) :
    Kept (a >>= f) (b >>= f') := by
  intro y hy
  obtain ⟨x, hx, hy⟩ := Option.bind_eq_some_iff.mp hy
  exact Option.bind_eq_some_iff.mpr ⟨x, h x hx, hf x y hy⟩

theorem map {a b : Option α} (h : Kept a b) (f : α → β) : Kept (a.map f) (b.map f) := by
  intro y hy
  obtain ⟨x, hx, rfl⟩ := Option.map_eq_some_iff.mp hy
  rw [h x hx, Option.map_some]

end Kept

theorem mapM_eq_some_iff {α β : Type u} {f : α → Option β} {xs : List α} {ys : List β} :
    xs.mapM f = some ys ↔ List.Forall₂ (fun x y => f x = some y) xs ys := by
  induction xs generalizing ys with
  | nil =>
    rw [List.mapM_nil]
    constructor
    · rintro ⟨⟩
      exact .nil
    · rintro ⟨⟩
      rfl
  | cons x xs ih =>
    rw [List.mapM_cons]
    constructor
    · intro h
      obtain ⟨y, hy, h⟩ := Option.bind_eq_some_iff.mp h
      obtain ⟨tail, htail, h⟩ := Option.bind_eq_some_iff.mp h
      cases h
      exact .cons hy (ih.mp htail)
    · rintro (_ | ⟨hy, htail⟩)
      rw [hy, ih.mpr htail]
      rfl

namespace Json

/-- What holds of a tree if it holds of the items and members in it holds of every tree. -/
theorem induction {motive : Json → Prop}
    (array : ∀ items, (∀ j ∈ items, motive j) → motive (array items))
    (object : ∀ members, (∀ m ∈ members, motive m.2) → motive (object members))
    (leaf : ∀ j, (∀ items, j ≠ .array items) → (∀ members, j ≠ .object members) → motive j)
    (j : Json) : motive j := by
  match j with
  | .array items => exact array items fun j hj => induction array object leaf j
  | .object members =>
    refine object members fun m hm => ?_
    have hlt : sizeOf m.2 < sizeOf m := by
      obtain ⟨name, j⟩ := m
      simp only [Prod.mk.sizeOf_spec]
      omega
    have hmem := List.sizeOf_lt_of_mem hm
    exact induction array object leaf m.2
  | .null | .flag _ | .count _ | .number _ | .text _ | .unreadable => exact leaf _ (by simp) (by simp)
termination_by sizeOf j

theorem settleItems_eq (items : List Json) : settleItems items = items.map settle := by
  induction items with
  | nil => rfl
  | cons j js ih => rw [settleItems, ih, List.map_cons]

theorem settleMembers_eq (members : List (String × Json)) :
    settleMembers members = members.map fun m => (m.1, m.2.settle) := by
  induction members with
  | nil => rfl
  | cons m ms ih => rw [settleMembers, ih, List.map_cons]

/-- The members that are left of an object that is settled. -/
def settled (members : List (String × Json)) : Dictionary Json :=
  Dictionary.ofList (settleMembers members)

theorem settle_array (items : List Json) : (array items).settle = array (items.map settle) := by
  rw [settle, settleItems_eq]

theorem settle_object (members : List (String × Json)) :
    (object members).settle = object (settled members).entries := by
  rw [settle, settled]

theorem get?_settled (members : List (String × Json)) (name : String) :
    (settled members).get? name = (members.reverse.lookup name).map settle := by
  rw [settled, Dictionary.get?_ofList, settleMembers_eq, ← List.map_reverse]
  exact lookup_map_entries name members.reverse fun e => settle e.2

theorem lookup_settled (members : List (String × Json)) (name : String) :
    (settled members).entries.lookup name = (members.reverse.lookup name).map settle :=
  get?_settled members name

theorem lookup_reverse_settled (members : List (String × Json)) (name : String) :
    (settled members).entries.reverse.lookup name = (members.reverse.lookup name).map settle := by
  rw [lookup_reverse_of_nodup (settled members).entries_nodup, lookup_settled]

/-- What is left was there before it was settled. -/
theorem mem_settled {members : List (String × Json)} {e : String × Json}
    (h : e ∈ (settled members).entries) : ∃ j, (e.1, j) ∈ members ∧ j.settle = e.2 := by
  have hmem := Dictionary.mem_of_mem_ofList h
  rw [settleMembers_eq] at hmem
  obtain ⟨m, hm, rfl⟩ := List.mem_map.mp hmem
  exact ⟨m.2, hm, rfl⟩

theorem settle_settle (j : Json) : j.settle.settle = j.settle := by
  induction j using Json.induction with
  | array items ih =>
    rw [settle_array, settle_array, List.map_map]
    exact congrArg array (List.map_congr_left ih)
  | object members ih =>
    have hsame : ∀ e ∈ (settled members).entries, (e.1, e.2.settle) = id e := by
      intro e he
      obtain ⟨j, hj, hsettle⟩ := mem_settled he
      rw [← hsettle, ih _ hj, hsettle]
      rfl
    have hfixed : settleMembers (settled members).entries = (settled members).entries := by
      rw [settleMembers_eq, List.map_congr_left hsame, List.map_id]
    rw [settle_object, settle_object, settled, hfixed, Dictionary.ofList_entries]
  | leaf j harray hobject =>
    cases j with
    | array items => exact absurd rfl (harray items)
    | object members => exact absurd rfl (hobject members)
    | _ => simp only [settle]

theorem soundItems_iff {room : Nat} {items : List Json} :
    soundItems room items = true ↔ ∀ j ∈ items, j.sound room = true := by
  induction items with
  | nil => simp [soundItems]
  | cons j js ih => simp [soundItems, ih]

theorem soundMembers_iff {room : Nat} {members : List (String × Json)} :
    soundMembers room members = true ↔ ∀ m ∈ members, m.2.sound room = true := by
  induction members with
  | nil => simp [soundMembers]
  | cons m ms ih => simp [soundMembers, ih]

theorem sound_array_iff {room : Nat} {items : List Json} :
    (array items).sound room = true ↔ 0 < room ∧ ∀ j ∈ items, j.sound (room - 1) = true := by
  simp [sound, soundItems_iff]

theorem sound_object_iff {room : Nat} {members : List (String × Json)} :
    (object members).sound room = true ↔ 0 < room ∧ ∀ m ∈ members, m.2.sound (room - 1) = true := by
  simp [sound, soundMembers_iff]

/-- A settled tree is no deeper than it was and has no less of a value. -/
theorem sound_settle {j : Json} {room room' : Nat} (h : j.sound room = true) (hroom : room ≤ room') :
    j.settle.sound room' = true := by
  induction j using Json.induction generalizing room room' with
  | array items ih =>
    obtain ⟨hpos, hitems⟩ := sound_array_iff.mp h
    rw [settle_array, sound_array_iff]
    refine ⟨by omega, List.forall_mem_map.mpr fun j hj => ?_⟩
    exact ih j hj (hitems j hj) (by omega)
  | object members ih =>
    obtain ⟨hpos, hmembers⟩ := sound_object_iff.mp h
    rw [settle_object, sound_object_iff]
    refine ⟨by omega, fun e he => ?_⟩
    obtain ⟨j, hj, hsettle⟩ := mem_settled he
    exact hsettle ▸ ih _ hj (hmembers _ hj) (by omega)
  | leaf j harray hobject =>
    cases j with
    | array items => exact absurd rfl (harray items)
    | object members => exact absurd rfl (hobject members)
    | unreadable => cases h
    | _ => simp [settle, sound]

end Json

end Gamebook
