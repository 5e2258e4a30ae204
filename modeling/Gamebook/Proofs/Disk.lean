import Gamebook.Disk
import Gamebook.Proofs.Dictionary

namespace Gamebook

section Results

variable {ε α β : Type} {x : Except ε α}

theorem bind_eq_ok_iff {f : α → Except ε β} {b : β} :
    (x >>= f) = .ok b ↔ ∃ a, x = .ok a ∧ f a = .ok b := by
  cases x <;> simp [bind, Except.bind]

/-- What comes behind a check is only reached when it was passed. -/
theorem checked_eq_ok_iff {c : Prop} [Decidable c] {e : ε} {y : PUnit → Except ε α} {a : α} :
    (if c then throw e >>= y else x) = .ok a ↔ ¬c ∧ x = .ok a := by
  split <;> simp [*, throw, throwThe, MonadExceptOf.throw, bind, Except.bind]

end Results

namespace Disk

variable {d d' : Disk} {p q : Place} {path : String}

section Walking

theorem checkDirectory_eq_ok_iff : d.checkDirectory p = .ok () ↔ d.isDirectory p = true := by
  unfold checkDirectory
  split
  next h => simp [h]
  next h => split <;> simp [h]

theorem step_eq_ok_iff {name : String} : d.step p name = .ok q ↔
    d.isDirectory p = true ∧ name.utf8ByteSize ≤ nameLimit ∧ p.enter name = q := by
  simp only [step, bind_eq_ok_iff, checked_eq_ok_iff, ← checkDirectory_eq_ok_iff, Nat.not_lt, pure,
    Except.pure, Except.ok.injEq]
  exact ⟨fun ⟨_, h⟩ => h, fun h => ⟨(), h⟩⟩

/-- The same way leads through more directories to the same place. -/
theorem walk_mono (h : ∀ p, d.isDirectory p = true → d'.isDirectory p = true) {names : List String}
    (hw : d.walk p names = .ok q) : d'.walk p names = .ok q := by
  induction names generalizing p with
  | nil => exact hw
  | cons name names ih =>
    rw [walk, List.foldlM_cons, bind_eq_ok_iff] at hw ⊢
    obtain ⟨next, hstep, hrest⟩ := hw
    obtain ⟨hdirectory, hname⟩ := step_eq_ok_iff.mp hstep
    exact ⟨next, step_eq_ok_iff.mpr ⟨h p hdirectory, hname⟩, ih hrest⟩

theorem walk_append {names more : List String} (h : d.walk p names = .ok q) :
    d.walk p (names ++ more) = d.walk q more := by
  unfold walk at h ⊢
  rw [List.foldlM_append, h]
  rfl

end Walking

section Writing

/-- The disk with one file more, or with another text in it. -/
def put (d : Disk) (p : Place) (text : String) : Disk :=
  { d with files := d.files.insert p.text text }

/-- A path leads through directories to a place where a file may stand. -/
inductive LeadsTo (d : Disk) (path : String) (p : Place) : Prop
  | intro {way : Path} {outer : Place} (hway : pathOf path = .ok way)
    (houter : d.walk way.start way.names.dropLast = .ok outer) (hdirectory : d.isDirectory outer = true)
    (hclosed : way.closed = false) (hp : d.walk outer way.names.getLast?.toList = .ok p)
    (hfile : d.isDirectory p = false)

theorem write_eq_ok_iff {text : String} :
    d.write path text = .ok d' ↔ ∃ p, d.LeadsTo path p ∧ d.put p text = d' := by
  simp only [write, bind_eq_ok_iff, checked_eq_ok_iff, Bool.not_eq_true, pure, Except.pure,
    Except.ok.injEq]
  constructor
  · rintro ⟨way, hway, outer, houter, _, hdirectory, hclosed, p, hp, hfile, hput⟩
    exact ⟨p, ⟨hway, houter, checkDirectory_eq_ok_iff.mp hdirectory, hclosed, hp, hfile⟩, hput⟩
  · rintro ⟨p, ⟨hway, houter, hdirectory, hclosed, hp, hfile⟩, hput⟩
    exact ⟨_, hway, _, houter, (), checkDirectory_eq_ok_iff.mpr hdirectory, hclosed, p, hp, hfile, hput⟩

theorem isDirectory_put (d : Disk) (p q : Place) (text : String) :
    (d.put p text).isDirectory q = (d.isDirectory q || isInside p.text q.text) := by
  have hnames : (d.files.insert p.text text).names.any (isInside · q.text) =
      (d.files.names.any (isInside · q.text) || isInside p.text q.text) := by
    rw [Bool.eq_iff_iff, Bool.or_eq_true, List.any_eq_true, List.any_eq_true]
    simp only [Dictionary.mem_names_insert, or_and_right, exists_or, exists_eq_left]
    exact or_comm
  rw [isDirectory, isDirectory, put, hnames, ← Bool.or_assoc]

theorem isInside_self (name : String) : isInside name name = false := by
  cases h : isInside name name with
  | false => rfl
  | true =>
    have hle := (List.isPrefixOf_iff_prefix.mp h).length_le
    simp only [List.length_append, List.length_singleton] at hle
    omega

/-- Where a file has been put it can be put again. -/
theorem LeadsTo.put (h : d.LeadsTo path p) (text : String) : (d.put p text).LeadsTo path p := by
  obtain ⟨hway, houter, hdirectory, hclosed, hp, hfile⟩ := h
  have hmore : ∀ q, d.isDirectory q = true → (d.put p text).isDirectory q = true := by
    intro q hq
    rw [isDirectory_put, hq, Bool.true_or]
  refine ⟨hway, walk_mono hmore houter, hmore _ hdirectory, hclosed, walk_mono hmore hp, ?_⟩
  rw [isDirectory_put, hfile, isInside_self, Bool.or_false]

theorem write_write {text : String} (h : d.write path text = .ok d') (other : String) :
    ∃ d'', d.write path other = .ok d'' ∧ d'.write path other = .ok d'' := by
  obtain ⟨p, hp, rfl⟩ := write_eq_ok_iff.mp h
  refine ⟨d.put p other, write_eq_ok_iff.mpr ⟨p, hp, rfl⟩, write_eq_ok_iff.mpr ⟨p, hp.put text, ?_⟩⟩
  simp only [Disk.put, Dictionary.insert_insert]

theorem read_write {text : String} (h : d.write path text = .ok d') : d'.read path = .ok text := by
  obtain ⟨p, hp, rfl⟩ := write_eq_ok_iff.mp h
  cases hp.put text with
  | @intro way outer hway houter _ hclosed hlast hfile =>
    have hnames : way.names.dropLast ++ way.names.getLast?.toList = way.names := by
      rcases List.eq_nil_or_concat way.names with hnil | ⟨first, last, hconcat⟩
      · simp [hnil]
      · simp [hconcat]
    have hwalk : (d.put p text).walk way.start way.names = .ok p := by
      rw [← hlast, ← walk_append houter, hnames]
    have hget : (d.put p text).files.get? p.text = some text := Dictionary.get?_insert_self ..
    simp only [read, bind_eq_ok_iff, checked_eq_ok_iff, Bool.not_eq_true]
    exact ⟨way, hway, p, hwalk, hfile, by simp [hget, hclosed, pure, Except.pure]⟩

end Writing

end Disk

end Gamebook
