import Gamebook.Proofs.History
import Gamebook.Proofs.Resuming
import Gamebook.Proofs.RoundTrip

namespace Gamebook

namespace Dictionary

variable {α : Type u}

theorem entries_of_isEmpty {d : Dictionary α} (h : d.isEmpty = true) : d.entries = [] := by
  simpa [isEmpty] using h

end Dictionary

namespace Effects

theorem apply_of_isEmpty {e : Effects} (h : e.isEmpty = true) (p : Progress) : e.apply p = p := by
  simp only [isEmpty, Bool.and_eq_true, List.isEmpty_iff] at h
  obtain ⟨⟨⟨⟨hassignments, hmodifications⟩, hgains⟩, hlosses⟩, hunlocks⟩ := h
  simp [apply, applyAssignments, applyModifications, applyUnlocks,
    Dictionary.entries_of_isEmpty hassignments, Dictionary.entries_of_isEmpty hmodifications,
    hgains, hlosses, hunlocks]

theorem applied_of_isEmpty {effects : Option Effects} (h : effects.all isEmpty = true)
    (p : Progress) : applied effects p = p := by
  cases effects with
  | none => rfl
  | some e => exact apply_of_isEmpty h p

end Effects

namespace Playthrough

variable {story : Story} {settings : Settings} {g : Generator}

theorem restore_of_readsBack {t : Playthrough} (hf : t.progress.isFinite = true)
    (hr : t.progress.ReadsBack) {n : Node}
    (hn : story.nodes.get? (story.entry t.progress) = some n) (now : Instant) :
    restore story (t.save now) settings g =
      .ok (begun story settings t.progress (story.entry t.progress) n g) := by
  rw [restore_save, Dictionary.reread?_of_readsBack hr hf]
  exact start_of_some hn

/-- Without effects, to begin where a playthrough stands adds a visit to its past. -/
theorem begun_alike (t : Playthrough) {n : Node} (h : n.effects.all Effects.isEmpty = true) :
    Alike t.progress.history (t.progress.history ++ [t.progress.node]) t
      (begun t.story t.settings t.progress t.progress.node n t.generator) := by
  have hbegun : begun t.story t.settings t.progress t.progress.node n t.generator =
      t.recalling (t.progress.history ++ [t.progress.node])
        (begun t.story t.settings t.progress t.progress.node n t.generator).last := by
    rw [begun, Effects.applied_of_isEmpty h]
    rfl
  rw [hbegun]
  exact alike_recalling t _ _

/-- What was visited before shows in no answer. A save whose numbers are finite and come back is
taken up with the node entered once more; if that has no effects, the same calls get the same
answers from then on, and the history has one visit more until a reset. -/
theorem resumed_indistinguishable {saved : Option Progress} {t₀ : Playthrough}
    (h : start story saved settings g = .ok t₀) (calls₀ : List Call) :
    let t := (t₀.run calls₀).2
    (∀ past calls,
      ({ t with progress := { t.progress with history := past } }.run calls).1 = (t.run calls).1) ∧
    (t.progress.isFinite = true → t.progress.ReadsBack → t.progress.node ≠ "" →
      ∃ n, story.nodes.get? t.progress.node = some n ∧
        (∀ settings' g', ∃ t', (∀ now, restore story (t.save now) settings' g' = .ok t') ∧
          t'.progress = Effects.applied n.effects (t.progress.visit t.progress.node)) ∧
        (n.effects.all Effects.isEmpty = true → ∀ now t',
          restore story (t.save now) t.settings t.generator = .ok t' → ∀ calls,
          let u := (t.run calls).2
          let u' := (t'.run calls).2
          (t'.run calls).1 = (t.run calls).1 ∧
          if .reset ∈ (deedsDone calls (t.run calls).1).map Prod.fst then u'.progress = u.progress
          else ∃ later, u.progress.history = t.progress.history ++ later ∧
            u'.progress = { u.progress with
              history := t.progress.history ++ t.progress.node :: later })) := by
  intro t
  have hs := (sound_start h).run calls₀
  refine ⟨?_, ?_⟩
  · intro past calls
    exact ((alike_recalling t past t.last).run calls).1
  · intro hf hr hnode
    obtain ⟨n, hn⟩ := Option.isSome_iff_exists.mp hs.present
    have hentry : story.entry t.progress = t.progress.node :=
      (story.entry_eq_node_iff t.progress).mpr (Or.inl hnode)
    have hrestore : ∀ settings' g' now, restore story (t.save now) settings' g' =
        .ok (begun story settings' t.progress t.progress.node n g') := by
      intro settings' g' now
      rw [restore_of_readsBack hf hr (hentry ▸ hn), hentry]
    refine ⟨n, hn, ?_, ?_⟩
    · intro settings' g'
      exact ⟨_, hrestore settings' g', rfl⟩
    · intro heffects now t' ht' calls
      obtain rfl := Except.ok.inj ((hrestore _ _ now).symm.trans ht')
      obtain rfl : t.story = story := hs.story_eq
      obtain ⟨hanswers, halike⟩ := (begun_alike t heffects).run calls
      refine ⟨hanswers, ?_⟩
      split
      next hreset =>
        simp only [remembered, if_pos hreset] at halike
        exact halike.progress_eq
      next hreset =>
        simp only [remembered, if_neg hreset] at halike
        obtain ⟨later, m, hhistory, heq⟩ := halike
        refine ⟨later, hhistory, ?_⟩
        rw [heq]
        simp [Progress.recalling]

theorem resumed_indistinguishable_coinage : start coinage none {} (.ofSeed 7) = .ok inMint ∧
    ∃ t', restore coinage (inMint.save .epoch) {} (.ofSeed 7) = .ok t' ∧
      t'.progress.history = ["mint", "mint"] ∧
      (t'.run [.choose "strike", .view]).1 = (inMint.run [.choose "strike", .view]).1 ∧
      (t'.run [.choose "strike", .view]).2.progress.history = ["mint", "mint", "mint"] := by
  have hcoins : inMint.progress.ReadsBack := by decide +kernel
  have h := (resumed_indistinguishable start_coinage []).2 (by decide +kernel) hcoins (by decide)
  obtain ⟨n, hn, hresumed, hindistinguishable⟩ := h
  obtain rfl : mint = n := Option.some.inj hn
  obtain ⟨t', ht', hprogress⟩ := hresumed {} (.ofSeed 7)
  obtain ⟨hanswers, hleft⟩ :=
    hindistinguishable rfl .epoch t' (ht' .epoch) [.choose "strike", .view]
  rw [if_neg (by decide +kernel)] at hleft
  obtain ⟨later, hlater, hlast⟩ := hleft
  have hhistory : ["mint"] ++ ["mint"] = ["mint"] ++ later := hlater
  obtain rfl := List.append_cancel_left hhistory
  exact ⟨start_coinage, t', ht' .epoch, by rw [hprogress]; rfl, hanswers, by rw [hlast]; rfl⟩

end Playthrough

end Gamebook
