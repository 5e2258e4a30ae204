namespace Gamebook

variable {α : Type} {le : α → α → Bool}

/-- Neither of the two has to stand before the other. -/
def tied (le : α → α → Bool) (a b : α) : Bool := le a b && le b a

theorem tied_iff {a b : α} : tied le a b = true ↔ le a b = true ∧ le b a = true := by simp [tied]

theorem filter_tied_mergeSort (htrans : ∀ a b c, le a b → le b c → le a c)
    (htotal : ∀ a b, le a b || le b a) (xs : List α) (a : α) :
    (xs.mergeSort le).filter (tied le a) = xs.filter (tied le a) := by
  have hclass : (xs.filter (tied le a)).Pairwise fun b c => le b c := by
    refine List.pairwise_of_forall_mem_list fun b hb c hc => ?_
    exact htrans b a c (tied_iff.mp (List.mem_filter.mp hb).2).2
      (tied_iff.mp (List.mem_filter.mp hc).2).1
  have hsub := List.sublist_mergeSort htrans htotal hclass List.filter_sublist
  have hkept : (xs.filter (tied le a)).Sublist ((xs.mergeSort le).filter (tied le a)) := by
    simpa [List.filter_filter] using hsub.filter (tied le a)
  exact (hkept.eq_of_length ((List.mergeSort_perm xs le).filter _).length_eq.symm).symm

theorem tied_self (hrefl : ∀ a, le a a) (a : α) : tied le a a = true :=
  tied_iff.mpr ⟨hrefl a, hrefl a⟩

theorem mem_iff_of_filter_tied (hrefl : ∀ a, le a a) {xs ys : List α}
    (h : ∀ a, xs.filter (tied le a) = ys.filter (tied le a)) (a : α) : a ∈ xs ↔ a ∈ ys := by
  simpa [tied_self hrefl] using congrArg (a ∈ ·) (h a)

/-- Two ascending lists are equal if they agree on each class of elements that are tied. -/
theorem eq_of_filter_tied (hrefl : ∀ a, le a a) {xs ys : List α}
    (hxs : xs.Pairwise fun a b => le a b) (hys : ys.Pairwise fun a b => le a b)
    (h : ∀ a, xs.filter (tied le a) = ys.filter (tied le a)) : xs = ys := by
  induction xs generalizing ys with
  | nil =>
    refine (List.eq_nil_iff_forall_not_mem.mpr fun a ha => ?_).symm
    exact List.not_mem_nil ((mem_iff_of_filter_tied hrefl h a).mpr ha)
  | cons x xs ih =>
    obtain ⟨hx, hxs⟩ := List.pairwise_cons.mp hxs
    have hmem := mem_iff_of_filter_tied hrefl h
    cases ys with
    | nil => exact absurd ((hmem x).mp List.mem_cons_self) List.not_mem_nil
    | cons y ys =>
      obtain ⟨hy, hrest⟩ := List.pairwise_cons.mp hys
      have hle : le x y := by
        rcases List.mem_cons.mp ((hmem y).mpr List.mem_cons_self) with rfl | hmem
        · exact hrefl y
        · exact hx y hmem
      have hge : le y x := by
        rcases List.mem_cons.mp ((hmem x).mp List.mem_cons_self) with rfl | hmem
        · exact hrefl x
        · exact hy x hmem
      have hheads := h x
      rw [List.filter_cons_of_pos (tied_self hrefl x), List.filter_cons_of_pos (tied_iff.mpr ⟨hle, hge⟩)]
        at hheads
      obtain rfl : x = y := (List.cons.inj hheads).1
      have htails : ∀ a, xs.filter (tied le a) = ys.filter (tied le a) := by
        intro a
        have ha := h a
        rw [List.filter_cons, List.filter_cons] at ha
        split at ha
        next => exact (List.cons.inj ha).2
        next => exact ha
      rw [ih hxs hrest htails]

theorem mergeSort_eq (htrans : ∀ a b c, le a b → le b c → le a c)
    (htotal : ∀ a b, le a b || le b a) {xs ys : List α} (hys : ys.Pairwise fun a b => le a b)
    (h : ∀ a, xs.filter (tied le a) = ys.filter (tied le a)) : xs.mergeSort le = ys := by
  have hrefl : ∀ a, le a a := fun a => by simpa using htotal a a
  refine eq_of_filter_tied hrefl (List.pairwise_mergeSort htrans htotal xs) hys fun a => ?_
  rw [filter_tied_mergeSort htrans htotal, h a]

end Gamebook
