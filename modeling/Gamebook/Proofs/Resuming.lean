import Gamebook.Proofs.Chronicle

namespace Gamebook

theorem Story.entry_eq_node_iff (story : Story) (p : Progress) :
    story.entry p = p.node ↔ p.node ≠ "" ∨ story.start = "" := by
  by_cases h : p.node = "" <;> simp [entry, h]

namespace Playthrough

variable {story : Story} {settings : Settings} {g : Generator}

theorem save_isJson (t : Playthrough) (now : Instant) : (Json.ofText? (t.save now)).isSome := by
  rw [save, Save.toText, Json.ofText?_toText]
  rfl

theorem restore_of_infinite {t : Playthrough} (h : t.progress.isFinite = false) (now : Instant) :
    restore story (t.save now) settings g = .error .invalidSave := by
  have hread : t.progress.values.reread?.isSome = false := (Dictionary.reread?_isSome _).trans h
  have hnone : t.progress.values.reread? = none := by simpa using hread
  rw [restore_save, hnone]

theorem restore_of_finite {t : Playthrough} (h : t.progress.isFinite = true)
    (hn : (story.nodes.get? (story.entry t.progress)).isSome) (now : Instant) :
    ∃ t', restore story (t.save now) settings g = .ok t' ∧
      t'.progress.node = story.entry t.progress := by
  obtain ⟨values, hv⟩ := Option.isSome_iff_exists.mp ((Dictionary.reread?_isSome _).trans h)
  obtain ⟨n, hn⟩ := Option.isSome_iff_exists.mp hn
  rw [restore_save, hv]
  exact ⟨_, start_of_some hn, begun_node ..⟩

theorem start_present {t : Playthrough} (h : start story none settings g = .ok t) :
    (story.nodes.get? story.start).isSome := by
  obtain ⟨n, hn, _⟩ := start_eq_ok_iff.mp h
  exact Option.isSome_iff_exists.mpr ⟨n, hn⟩

theorem Sound.entry_present {ch : Chronicle} {t : Playthrough} (hs : Sound story ch t)
    (hstart : (story.nodes.get? story.start).isSome) :
    (story.nodes.get? (story.entry t.progress)).isSome := by
  unfold Story.entry
  split
  · exact hstart
  · exact hs.present

/-- A new game that was played and saved is taken up again where it stands if its numbers are finite
and the node has an id. -/
theorem resume_outcome {t₀ : Playthrough} (h : start story none settings g = .ok t₀)
    (calls : List Call) (now : Instant) (settings' : Settings) (g' : Generator) :
    let t := (t₀.run calls).2
    let resumed := restore story (t.save now) settings' g'
    (Json.ofText? (t.save now)).isSome ∧
    ((∃ t', resumed = .ok t' ∧ t'.progress.node = t.progress.node) ↔
      t.progress.isFinite = true ∧ (t.progress.node ≠ "" ∨ story.start = "")) ∧
    (t.progress.isFinite = false → resumed = .error .invalidSave) ∧
    (t.progress.isFinite = true →
      ∃ t', resumed = .ok t' ∧ t'.progress.node = story.entry t.progress) := by
  intro t resumed
  have hs := (sound_start h).run calls
  have hinfinite : t.progress.isFinite = false → resumed = .error .invalidSave :=
    fun hf => restore_of_infinite hf now
  have hfinite : t.progress.isFinite = true →
      ∃ t', resumed = .ok t' ∧ t'.progress.node = story.entry t.progress :=
    fun hf => restore_of_finite hf (hs.entry_present (start_present h)) now
  refine ⟨save_isJson t now, ?_, hinfinite, hfinite⟩
  rw [← Story.entry_eq_node_iff]
  cases hf : t.progress.isFinite with
  | false => simp [hinfinite hf]
  | true =>
    obtain ⟨t', ht', hnode⟩ := hfinite hf
    simp [ht', hnode]

/-- Coins that are worth ten times as much every time they are struck. -/
def strike : Choice :=
  ⟨"strike", "Strike coins", "mint", ⟨[], []⟩,
    some ⟨.empty, Dictionary.empty.insert "coins" ⟨.multiply, .number 10⟩, [], [], []⟩, none⟩

def leave : Choice := ⟨"leave", "Leave", "", ⟨[], []⟩, none, none⟩

def mint : Node := ⟨"mint", none, ⟨"", none, none⟩, [strike, leave], none, false⟩

def street : Node := ⟨"", none, ⟨"", none, none⟩, [], none, true⟩

def coinage : Story :=
  ⟨"mint", (Dictionary.empty.insert "mint" mint).insert "" street,
    Dictionary.empty.insert "coins" (some (.number 1e307)), .empty, .empty, .empty⟩

def inMint : Playthrough := begun coinage {} coinage.opening "mint" mint (.ofSeed 7)

theorem start_coinage : start coinage none {} (.ofSeed 7) = .ok inMint := start_of_some rfl

theorem resume_outcome_coinage : start coinage none {} (.ofSeed 7) = .ok inMint ∧
    ∃ t', restore coinage ((inMint.run [.choose "strike"]).2.save .epoch) {} (.ofSeed 7) = .ok t' ∧
      t'.progress.node = "mint" := by
  have h := resume_outcome start_coinage [.choose "strike"] .epoch {} (.ofSeed 7)
  exact ⟨start_coinage, h.2.1.mpr ⟨by decide +kernel, Or.inl (by decide +kernel)⟩⟩

/-- The coins are worth more than any number after two strikes, and the street has no id. -/
theorem coinage_not_resumed : start coinage none {} (.ofSeed 7) = .ok inMint ∧
    restore coinage ((inMint.run [.choose "strike", .choose "strike"]).2.save .epoch) {} (.ofSeed 7) =
      .error .invalidSave ∧
    (inMint.run [.choose "leave"]).2.progress.node = "" ∧
    ∃ t', restore coinage ((inMint.run [.choose "leave"]).2.save .epoch) {} (.ofSeed 7) = .ok t' ∧
      t'.progress.node = "mint" :=
  ⟨start_coinage, restore_of_infinite (by decide +kernel) .epoch, rfl,
    restore_of_finite (by decide +kernel) rfl .epoch⟩

end Playthrough

end Gamebook
