import Gamebook.Proofs.Json.Kept

namespace Gamebook

/-- The right side is the left one changed by `f`, and what is changed has `P`. -/
structure Altered {α : Type u} (f : α → α) (P : α → Prop) (a b : Option α) : Prop where
  eq_map : b = a.map f
  holds : ∀ x, a = some x → P x

namespace Altered

variable {α : Type u} {β : Type u} {f : β → β} {P : β → Prop} {g g' : α → Option β}

theorem none : Altered f P Option.none Option.none := ⟨rfl, nofun⟩

theorem some {x : β} (h : P x) : Altered f P (some x) (some (f x)) :=
  ⟨rfl, fun _ hx => Option.some.inj hx ▸ h⟩

/-- What is read first lies beside the gap. -/
theorem beside {a b : Option α} (h : b = a) (hg : ∀ x, a = Option.some x → Altered f P (g x) (g' x)) :
    Altered f P (a >>= g) (b >>= g') := by
  subst h
  cases b with
  | none => exact .none
  | some x => exact hg x rfl

/-- What is read first lies in the gap. -/
theorem bind {a b : Option α} {k : α → α} {Q : α → Prop} (h : Altered k Q a b)
    (hg : ∀ x, Q x → Altered f P (g x) (g' (k x))) : Altered f P (a >>= g) (b >>= g') := by
  obtain ⟨rfl, hQ⟩ := h
  cases a with
  | none => exact .none
  | some x => exact hg x (hQ x rfl)

theorem map {a b : Option α} {k : α → α} {Q : α → Prop} {g : α → β} (h : Altered k Q a b)
    (hg : ∀ x, a = Option.some x → Q x → g (k x) = f (g x) ∧ P (g x)) :
    Altered f P (a.map g) (b.map g) := by
  obtain ⟨rfl, hQ⟩ := h
  cases a with
  | none => exact .none
  | some x =>
    obtain ⟨hsame, hP⟩ := hg x rfl (hQ x rfl)
    exact ⟨congrArg Option.some hsame, fun _ hx => Option.some.inj hx ▸ hP⟩

/-- Of a list that is read, what is read in the gap is changed. -/
theorem mapM {before after : List α} {x x' : α} {read : α → Option β}
    (h : Altered f P (read x) (read x')) :
    Altered (fun ys => ys.modify before.length f) (fun ys => ∃ y, ys[before.length]? = Option.some y ∧ P y)
      ((before ++ x :: after).mapM read) ((before ++ x' :: after).mapM read) := by
  induction before with
  | nil =>
    rw [List.nil_append, List.nil_append, List.mapM_cons, List.mapM_cons]
    refine h.bind fun y hy => .beside rfl fun ys _ => ?_
    exact .some ⟨y, rfl, hy⟩
  | cons b bs ih =>
    rw [List.cons_append, List.cons_append, List.mapM_cons, List.mapM_cons]
    refine .beside rfl fun y _ => ih.bind fun ys hys => ?_
    exact .some hys

end Altered

namespace Json

/-- An array or object with a place left open in it. -/
inductive Gap
  | item (before after : List Json)
  | member (before : List (String × Json)) (name : String) (after : List (String × Json))

def Gap.fill : Gap → Json → Json
  | item before after, j => array (before ++ j :: after)
  | member before name after, j => object (before ++ (name, j) :: after)

/-- The open place is that of a record's field, by position or by name. -/
def Gap.IsField (declared : List String) (name : String) : Gap → Prop
  | item before _ => declared[before.length]? = some name
  | member _ other _ => other = name

theorem Gap.sound_fill {gap : Gap} {j : Json} {room : Nat} (h : (gap.fill j).sound room = true) :
    j.sound (room - 1) = true := by
  cases gap with
  | item before after => exact (sound_array_iff.mp h).2 j (by simp)
  | member before name after => exact (sound_object_iff.mp h).2 (name, j) (by simp)

section Records

/-- Fields that differ in what stands under one name. -/
structure Fields.Swapped (name : String) (j j' : Json) (fs fs' : Fields) : Prop where
  left : fs.lookup name = some j
  right : fs'.lookup name = some j'
  others : ∀ other, other ≠ name → fs'.lookup other = fs.lookup other

theorem Fields.swapped_of_split {name : String} {before after : Fields}
    (h : name ∉ before.map Prod.fst) (j j' : Json) :
    Swapped name j j' (before ++ (name, j) :: after) (before ++ (name, j') :: after) := by
  refine ⟨?_, ?_, fun other hother => ?_⟩
  · simp [List.lookup_append, lookup_eq_none_of_notMem h]
  · simp [List.lookup_append, lookup_eq_none_of_notMem h]
  · have hb : (other == name) = false := by simpa using hother
    simp [List.lookup_append, List.lookup_cons, hb]

variable {α : Type} {β : Type u} {f : α → α} {P : α → Prop} {name : String} {j j' : Json}

namespace Fields.Swapped

variable {fs fs' : Fields} {other : String}

section Gap

variable {read : Json → Option α} (hs : Fields.Swapped name j j' fs fs')
  (h : Altered f P (read j) (read j'))
include hs h

theorem get_altered (default : α) :
    Altered f P (fs.get name read default) (fs'.get name read default) := by
  rw [Fields.get, Fields.get, hs.left, hs.right]
  exact h

theorem need_altered : Altered f P (fs.need name read) (fs'.need name read) := by
  rw [Fields.need, Fields.need, hs.left, hs.right]
  exact h

end Gap

section Beside

variable (hs : Fields.Swapped name j j' fs fs') (h : other ≠ name)
include hs h

theorem get (read : Json → Option β) (default : β) :
    fs'.get other read default = fs.get other read default := by
  rw [Fields.get, Fields.get, hs.others other h]

theorem need (read : Json → Option β) : fs'.need other read = fs.need other read := by
  rw [Fields.need, Fields.need, hs.others other h]

theorem maybe (read : Json → Option β) : fs'.maybe other read = fs.maybe other read := by
  rw [Fields.maybe, Fields.maybe, hs.others other h]

end Beside

end Fields.Swapped

theorem Fields.swapped_zip {declared : List String} (hnodup : declared.Nodup)
    {before : List Json} (h : declared[before.length]? = some name) (after : List Json) (j j' : Json) :
    Swapped name j j' (declared.zip (before ++ j :: after)) (declared.zip (before ++ j' :: after)) := by
  obtain ⟨first, last, rfl, hlen⟩ := exists_split h
  rw [List.zip_append hlen, List.zip_append hlen, List.zip_cons_cons, List.zip_cons_cons]
  refine swapped_of_split (fun hmem => ?_) j j'
  obtain ⟨e, he, rfl⟩ := List.mem_map.mp hmem
  have hfirst : e.1 ∈ first := (List.of_mem_zip he).1
  exact (List.nodup_append.mp hnodup).2.2 e.1 hfirst e.1 (by simp) rfl

/-- What stands in the gap of a record does not decide whether it is one. -/
theorem Gap.fields?_altered {gap : Gap} {declared : List String} (hfield : gap.IsField declared name)
    (hname : declared.contains name = true) (hnodup : declared.Nodup) {read : Fields → Option α}
    (h : ∀ fs fs', Fields.Swapped name j j' fs fs' → Altered f P (read fs) (read fs')) :
    Altered f P ((gap.fill j).fields? declared >>= read) ((gap.fill j').fields? declared >>= read) := by
  cases gap with
  | item before after =>
    simp only [fill, fields?, List.length_append, List.length_cons]
    split
    · exact h _ _ (Fields.swapped_zip hnodup hfield after j j')
    · exact .none
  | member before other after =>
    obtain rfl : other = name := hfield
    have hknown : ∀ j, (before ++ (other, j) :: after).filter (fun m => declared.contains m.1) =
        before.filter (fun m => declared.contains m.1) ++
          (other, j) :: after.filter fun m => declared.contains m.1 := by
      intro j
      rw [List.filter_append, List.filter_cons, if_pos hname]
    simp only [fill, fields?, hknown, List.map_append, List.map_cons]
    split
    next hdistinct =>
      refine h _ _ (Fields.swapped_of_split (fun hmem => ?_) j j')
      exact (List.nodup_append.mp hdistinct).2.2 _ hmem _ (by simp) rfl
    next => exact .none

end Records

section Collections

variable {α : Type} {f : α → α} {P : α → Prop} {read : Json → Option α} {j j' : Json}

theorem list?_altered {before after : List Json} (h : Altered f P (read j) (read j')) :
    Altered (fun xs => xs.modify before.length f) (fun xs => ∃ x, xs[before.length]? = some x ∧ P x)
      ((array (before ++ j :: after)).list? read) ((array (before ++ j' :: after)).list? read) :=
  h.mapM

theorem entries?_altered {before after : List (String × Json)} {name : String}
    (h : Altered f P (read j) (read j')) :
    Altered (fun es => es.modify before.length fun e => (e.1, f e.2))
      (fun es => ∃ e, es[before.length]? = some e ∧ e.1 = name ∧ P e.2)
      (entries? read (before ++ (name, j) :: after)) (entries? read (before ++ (name, j') :: after)) := by
  have hentry : Altered (fun e => (e.1, f e.2)) (fun e => e.1 = name ∧ P e.2)
      ((read j).map fun x => (name, x)) ((read j').map fun x => (name, x)) :=
    h.map fun x _ hx => ⟨rfl, rfl, hx⟩
  exact Altered.mapM hentry

/-- In a dictionary the gap must be in the last member of its name. -/
theorem dictionary?_altered {before after : List (String × Json)} {name : String}
    (hlast : name ∉ after.map Prod.fst) (h : Altered f P (read j) (read j')) :
    Altered (Dictionary.modify name f) (fun d => ∃ x, d.get? name = some x ∧ P x)
      ((object (before ++ (name, j) :: after)).dictionary? read)
      ((object (before ++ (name, j') :: after)).dictionary? read) := by
  refine (entries?_altered h).map fun es hes ⟨e, he, hname, hP⟩ => ?_
  have hnames := names_of_entries? (entries?_eq_some_iff.mp hes)
  obtain ⟨first, last, rfl, hlen⟩ := exists_split he
  obtain ⟨k, x⟩ := e
  subst hname
  rw [List.map_append, List.map_append] at hnames
  have hlast' : k ∉ last.map Prod.fst := by
    have hsame := List.append_inj hnames (by simpa using hlen.symm)
    rwa [← (List.cons.inj hsame.2).2]
  refine ⟨?_, x, Dictionary.get?_ofList_last hlast' x, hP⟩
  rw [← hlen, ← Dictionary.ofList_modify hlast']
  simp [List.modify_eq_take_drop]

end Collections

end Json

end Gamebook
