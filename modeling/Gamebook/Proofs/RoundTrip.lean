import Gamebook.Playthrough
import Gamebook.Proofs.Dictionary
import Gamebook.Proofs.Save

namespace Gamebook

/-- The text of a finite number is read as that number. -/
def Value.ReadsBack : Value → Prop
  | number x => x.isFinite = true → Json.ofText? (Json.toText (.number x)) = some (.number x)
  | _ => True

theorem Value.readsBack_iff {v : Value} :
    v.ReadsBack ↔ (v.isFinite = true → v.reread? = some v) := by
  cases v with
  | flag b => exact iff_of_true trivial fun _ => rfl
  | text s => exact iff_of_true trivial fun _ => rfl
  | number x =>
    refine forall_congr' ?_
    intro hx
    obtain ⟨y, hy⟩ := Json.reread_number hx
    rw [Json.ofText?_toText, reread?_number hx hy, hy]
    simp

instance (v : Value) : Decidable v.ReadsBack := decidable_of_iff _ Value.readsBack_iff.symm

theorem mapM_eq_some_self {α : Type} {f : α → Option α} {xs : List α} (h : ∀ x ∈ xs, f x = some x) :
    xs.mapM f = some xs := by
  induction xs with
  | nil => rfl
  | cons x xs ih =>
    rw [List.mapM_cons, h x (by simp), ih fun y hy => h y (List.mem_cons_of_mem x hy)]
    rfl

theorem Dictionary.reread?_of_readsBack {values : Dictionary Value}
    (hv : ∀ v ∈ values.values, v.ReadsBack) (hf : values.values.all Value.isFinite = true) :
    values.reread? = some values := by
  have hall : ∀ e ∈ values.entries,
      (fun e : String × Value => e.2.reread?.map fun v => (e.1, v)) e = some e := by
    intro e he
    have hmem : e.2 ∈ values.values := List.mem_map.mpr ⟨e, he, rfl⟩
    simp [Value.readsBack_iff.mp (hv _ hmem) (List.all_eq_true.mp hf _ hmem)]
  rw [reread?, mapM_eq_some_self hall, Option.map_some, ofList_entries]

/-- The numbers among the values come back from their texts. -/
def Progress.ReadsBack (p : Progress) : Prop := ∀ v ∈ p.values.values, v.ReadsBack

instance (p : Progress) : Decidable p.ReadsBack :=
  inferInstanceAs (Decidable (∀ v ∈ _, Value.ReadsBack v))

namespace Save

theorem ofText?_toText_isSome (s : Save) : (ofText? s.toText).isSome = s.progress.isFinite := by
  rw [ofText?_toText, Option.isSome_map, Dictionary.reread?_isSome]
  rfl

/-- A save can always be written, and it is read again if and only if its numbers are finite. Then
everything else is as it was, and so are the values where the numbers come back from their texts. -/
theorem round_trip (s : Save) :
    (Json.ofText? s.toText).isSome ∧
    ((ofText? s.toText).isSome ↔ s.progress.isFinite = true) ∧
    (s.progress.isFinite = true → ∃ values,
      ofText? s.toText = some ⟨{ s.progress with values }, s.writtenAt⟩ ∧
      (s.progress.ReadsBack → values = s.progress.values)) ∧
    (s.progress.isFinite = false → ∀ story settings g,
      Playthrough.restore story s.toText settings g = .error .invalidSave) := by
  refine ⟨?_, ?_, ?_, ?_⟩
  · rw [toText, Json.ofText?_toText]
    rfl
  · rw [ofText?_toText_isSome]
  · intro hf
    obtain ⟨values, hvalues⟩ :=
      Option.isSome_iff_exists.mp ((Dictionary.reread?_isSome s.progress.values).trans hf)
    refine ⟨values, by rw [ofText?_toText, hvalues, Option.map_some], ?_⟩
    intro hread
    exact Option.some.inj (hvalues.symm.trans (Dictionary.reread?_of_readsBack hread hf))
  · intro hf story settings g
    have hnone : ofText? s.toText = none := by simpa [hf] using ofText?_toText_isSome s
    rw [Playthrough.restore, hnone]

/-- Names and items with a quote, a line break, a bell and a character beyond sixteen bits. -/
def hoard : Save :=
  let values := (Dictionary.empty.insert "gold\n" (.number 0.1)).insert "debt" (.number (-0.0))
  ⟨⟨"the \"den\"", values.insert "𝄞" (.text "\u0007"), ["𝄞", "", "𝄞"], ["gate", "the \"den\""],
    ["depths"]⟩, some .epoch⟩

theorem round_trip_hoard : hoard.progress.isFinite = true ∧ hoard.progress.ReadsBack ∧
    ofText? hoard.toText = some hoard := by
  have hf : hoard.progress.isFinite = true := by decide +kernel
  have hread : hoard.progress.ReadsBack := by decide +kernel
  obtain ⟨values, hvalues, hsame⟩ := (round_trip hoard).2.2.1 hf
  obtain rfl := hsame hread
  exact ⟨hf, hread, hvalues⟩

end Save

end Gamebook
