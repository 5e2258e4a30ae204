import Gamebook.Program
import Gamebook.Proofs.Dictionary

namespace Gamebook

/-- Stories are read from trees and from texts, alone or in a package. -/
inductive Story.Loaded : Story → Prop
  | tree {room : Nat} {j : Json} {s : Story} (h : read room j = .ok s) : Loaded s
  | text {text : String} {s : Story} (h : ofText text = .ok s) : Loaded s
  | package {text : String} {p : Package} (h : Package.ofText text = .ok p) : Loaded p.story

namespace Story

theorem ofJson?_of_read {room : Nat} {j : Json} {s : Story} (h : read room j = .ok s) :
    ∃ raw, ofJson? room j = some raw ∧ finish raw = .ok s := by
  unfold read at h
  split at h
  next raw hraw => exact ⟨raw, hraw, h⟩
  next => cases h

theorem read_finished {room : Nat} {j : Json} {s : Story} (h : read room j = .ok s) :
    ∃ raw, finish raw = .ok s :=
  (ofJson?_of_read h).imp fun _ h => h.2

theorem ofText_read {text : String} {s : Story} (h : ofText text = .ok s) :
    ∃ j, read Json.depthLimit j = .ok s := by
  unfold ofText at h
  split at h
  next j _ =>
    split at h
    next =>
      refine ⟨body j.settle, ?_⟩
      cases hread : read Json.depthLimit (body j.settle) with
      | error flaw => rw [hread] at h; cases h
      | ok t => rw [hread] at h; cases h; rfl
    next => cases h
  next => cases h

theorem Loaded.finished {s : Story} (h : s.Loaded) : ∃ raw, finish raw = .ok s := by
  cases h with
  | tree h => exact read_finished h
  | text h =>
    obtain ⟨j, hread⟩ := ofText_read h
    exact read_finished hread
  | @package text p h =>
    unfold Package.ofText at h
    split at h
    next raw _ =>
      split at h
      next hfinish => cases h; exact ⟨raw.story, hfinish⟩
      next => cases h
    next => cases h

theorem finish_start {raw s : Story} (h : raw.finish = .ok s) :
    s.nodes.contains s.start = true := by
  unfold finish at h
  simp only at h
  split at h
  next hstart => cases h; exact hstart
  next => cases h

theorem Loaded.start_defined {s : Story} (h : s.Loaded) : s.nodes.contains s.start = true := by
  obtain ⟨raw, hfinish⟩ := h.finished
  exact finish_start hfinish

theorem finish_id {raw s : Story} (h : raw.finish = .ok s) {id : String} {n : Node}
    (hn : s.nodes.get? id = some n) : n.id = id := by
  unfold finish at h
  simp only at h
  split at h
  next =>
    cases h
    rw [Dictionary.get?_mapEntries] at hn
    obtain ⟨n, _, rfl⟩ := Option.map_eq_some_iff.mp hn
    rfl
  next => cases h

theorem Loaded.id_eq {s : Story} (h : s.Loaded) {id : String} {n : Node}
    (hn : s.nodes.get? id = some n) : n.id = id := by
  obtain ⟨raw, hfinish⟩ := h.finished
  exact finish_id hfinish hn

end Story

theorem Program.loadStory_of_read {disk : Disk} {path text : String} {story : Story}
    (h : disk.read path = .ok text) (hstory : Story.ofText text = .ok story) :
    loadStory disk path = .ok story := by
  rw [loadStory, h]
  simp only [hstory]

end Gamebook
