import Mathlib.Logic.Function.Basic
import Gamebook.Proofs.Applying

namespace Gamebook

/-- What is done with the items and achievements of a player or asked about them. -/
inductive Act
  | add (item : String)
  | removeFirst (item : String)
  | removeAll (item : String)
  | holds (item : String)
  | unlock (id : String)
  | isUnlocked (id : String)
deriving DecidableEq

inductive Reply
  | done
  | flag (b : Bool)
  | count (n : Nat)
deriving DecidableEq

namespace Act

/-- The item that an act names. -/
def item? : Act → Option String
  | add item | removeFirst item | removeAll item | holds item => some item
  | unlock _ | isUnlocked _ => none

def unlocked? : Act → Option String
  | unlock id => some id
  | _ => none

theorem mem_unlocked {id : String} {acts : List Act} :
    id ∈ acts.filterMap unlocked? ↔ unlock id ∈ acts := by
  rw [List.mem_filterMap]
  constructor
  · rintro ⟨act, hact, hid⟩
    cases act with
    | unlock other => cases hid; exact hact
    | _ => cases hid
  · exact fun h => ⟨unlock id, h, rfl⟩

end Act

/-- How many copies there are of each item, and which achievements are unlocked. -/
structure Stock where
  count : String → Nat
  unlocked : String → Bool

namespace Stock

def setCount (s : Stock) (item : String) (n : Nat) : Stock :=
  { s with count := Function.update s.count item n }

def act (s : Stock) : Act → Reply × Stock
  | .add item => (.done, s.setCount item (s.count item + 1))
  | .removeFirst item => (.flag (0 < s.count item), s.setCount item (s.count item - 1))
  | .removeAll item => (.count (s.count item), s.setCount item 0)
  | .holds item => (.flag (0 < s.count item), s)
  | .unlock id =>
    (.flag (!s.unlocked id), { s with unlocked := Function.update s.unlocked id true })
  | .isUnlocked id => (.flag (s.unlocked id), s)

def actAll (s : Stock) : List Act → List Reply × Stock
  | [] => ([], s)
  | a :: acts =>
    let (reply, next) := s.act a
    let (replies, last) := next.actAll acts
    (reply :: replies, last)

end Stock

namespace Progress

def act (p : Progress) : Act → Reply × Progress
  | .add item => (.done, p.addItem item)
  | .removeFirst item => (.flag (p.removeFirst item).1, (p.removeFirst item).2)
  | .removeAll item => (.count (p.removeAll item).1, (p.removeAll item).2)
  | .holds item => (.flag (p.holdsItem item), p)
  | .unlock id => (.flag (p.unlock id).1, (p.unlock id).2)
  | .isUnlocked id => (.flag (p.hasAchievement id), p)

def actAll (p : Progress) : List Act → List Reply × Progress
  | [] => ([], p)
  | a :: acts =>
    let (reply, next) := p.act a
    let (replies, last) := next.actAll acts
    (reply :: replies, last)

def stock (p : Progress) : Stock :=
  ⟨fun item => p.inventory.count item, fun id => p.achievements.contains id⟩

theorem holdsItem_eq (p : Progress) (item : String) :
    p.holdsItem item = decide (0 < p.stock.count item) := by
  rw [holdsItem, stock, Bool.eq_iff_iff]
  simp [List.count_pos_iff]

theorem removeAll_fst (p : Progress) (item : String) :
    (p.removeAll item).1 = p.stock.count item := by
  have hlength := List.length_eq_length_filter_add (l := p.inventory) (· == item)
  have hkept : p.inventory.filter (fun other => !other == item) =
      p.inventory.filter (· != item) := rfl
  rw [hkept, ← List.count_eq_length_filter] at hlength
  change p.inventory.length - (p.inventory.filter (· != item)).length = p.inventory.count item
  omega

/-- Where the copies of one item are another number, and those of the others as many as before. -/
theorem stock_of_count (p : Progress) {items : List String} {item : String} {n : Nat}
    (hitem : items.count item = n)
    (hothers : ∀ other, other ≠ item → items.count other = p.inventory.count other) :
    ({ p with inventory := items } : Progress).stock = p.stock.setCount item n := by
  have hcount : (fun other => items.count other) = Function.update p.stock.count item n := by
    funext other
    by_cases h : other = item
    · rw [h, hitem, Function.update_self]
    · rw [hothers other h, Function.update_of_ne h]
      rfl
  rw [stock, Stock.setCount, hcount]
  rfl

theorem stock_addItem (p : Progress) (item : String) :
    (p.addItem item).stock = p.stock.setCount item (p.stock.count item + 1) := by
  refine p.stock_of_count ?_ fun other h => ?_
  · rw [List.count_append, List.count_singleton_self]
    rfl
  · rw [List.count_append, List.count_singleton, if_neg (by simpa using Ne.symm h)]
    rfl

theorem stock_removeFirst (p : Progress) (item : String) :
    (p.removeFirst item).2.stock = p.stock.setCount item (p.stock.count item - 1) := by
  refine p.stock_of_count ?_ fun other h => ?_
  · rw [List.count_erase_self]
    rfl
  · rw [List.count_erase_of_ne h]

theorem stock_removeAll (p : Progress) (item : String) :
    (p.removeAll item).2.stock = p.stock.setCount item 0 := by
  refine p.stock_of_count ?_ fun other h => ?_
  · exact List.count_eq_zero.mpr fun hmem => by simpa using (List.mem_filter.mp hmem).2
  · exact List.count_filter (by simpa using h)

theorem unlock_of_mem {p : Progress} {id : String} (h : id ∈ p.achievements) :
    p.unlock id = (false, p) := if_pos (by simpa [hasAchievement] using h)

theorem unlock_of_notMem {p : Progress} {id : String} (h : id ∉ p.achievements) :
    p.unlock id = (true, { p with achievements := p.achievements ++ [id] }) :=
  if_neg (by simpa [hasAchievement] using h)

theorem unlock_fst (p : Progress) (id : String) : (p.unlock id).1 = !p.stock.unlocked id := by
  by_cases h : id ∈ p.achievements
  · simp [unlock_of_mem h, stock, h]
  · simp [unlock_of_notMem h, stock, h]

theorem stock_unlock (p : Progress) (id : String) : (p.unlock id).2.stock =
    { p.stock with unlocked := Function.update p.stock.unlocked id true } := by
  by_cases h : id ∈ p.achievements
  · have hheld : p.stock.unlocked id = true := by simpa [stock] using h
    rw [unlock_of_mem h, ← hheld, Function.update_eq_self]
  · have hnew : (fun other => (p.achievements ++ [id]).contains other) =
        Function.update p.stock.unlocked id true := by
      funext other
      by_cases hother : other = id
      · rw [hother, Function.update_self]
        simp
      · rw [Function.update_of_ne hother]
        simp [stock, hother]
    rw [unlock_of_notMem h, ← hnew]
    rfl

/-- A single act comes to the same for the stock. -/
theorem act_stock (p : Progress) (a : Act) :
    (p.act a).1 = (p.stock.act a).1 ∧ (p.act a).2.stock = (p.stock.act a).2 := by
  cases a with
  | add item => exact ⟨rfl, p.stock_addItem item⟩
  | removeFirst item =>
    exact ⟨congrArg Reply.flag (p.holdsItem_eq item), p.stock_removeFirst item⟩
  | removeAll item => exact ⟨congrArg Reply.count (p.removeAll_fst item), p.stock_removeAll item⟩
  | holds item => exact ⟨congrArg Reply.flag (p.holdsItem_eq item), rfl⟩
  | unlock id => exact ⟨congrArg Reply.flag (p.unlock_fst id), p.stock_unlock id⟩
  | isUnlocked id => exact ⟨rfl, rfl⟩

theorem actAll_stock (p : Progress) (acts : List Act) :
    (p.actAll acts).1 = (p.stock.actAll acts).1 ∧
      (p.actAll acts).2.stock = (p.stock.actAll acts).2 := by
  induction acts generalizing p with
  | nil => exact ⟨rfl, rfl⟩
  | cons a acts ih =>
    obtain ⟨hreply, hnext⟩ := p.act_stock a
    obtain ⟨hreplies, hlast⟩ := ih (p.act a).2
    rw [hnext] at hreplies hlast
    exact ⟨congrArg₂ List.cons hreply hreplies, hlast⟩

/-- The items that an act does not name stay as they are. -/
theorem act_others (p : Progress) (a : Act) :
    (p.act a).2.inventory.filter (fun item => a.item? ≠ some item) =
      p.inventory.filter fun item => a.item? ≠ some item := by
  cases a with
  | add item => simp [act, addItem, Act.item?, List.filter_append]
  | removeFirst item =>
    have hout : item ∉ p.inventory.filter fun other => (Act.removeFirst item).item? ≠ some other := by
      simp [Act.item?]
    change (p.inventory.erase item).filter _ = _
    rw [← List.erase_filter, List.erase_of_not_mem hout]
  | removeAll item =>
    change (p.inventory.filter (· != item)).filter _ = _
    rw [List.filter_filter]
    refine List.filter_congr fun other _ => ?_
    by_cases h : other = item
    · simp [Act.item?, h]
    · simp [Act.item?, h]
  | unlock id =>
    have hsame : (p.unlock id).2.inventory = p.inventory :=
      unlock_keeps Progress.inventory (fun _ _ => rfl) p id
    exact congrArg (List.filter _) hsame
  | holds item | isUnlocked id => rfl

theorem removeFirst_oldest {p : Progress} {item : String} {before after : List String}
    (h : p.inventory = before ++ item :: after) (hbefore : item ∉ before) :
    (p.removeFirst item).2.inventory = before ++ after := by
  change p.inventory.erase item = before ++ after
  rw [h, List.erase_append_right _ hbefore, List.erase_cons_head]

theorem act_achievements (p : Progress) (a : Act) : (p.act a).2.achievements =
    p.achievements ++ fresh p.achievements a.unlocked?.toList := by
  cases a with
  | unlock id =>
    have hact : (p.act (.unlock id)).2 = (p.unlock id).2 := rfl
    by_cases h : id ∈ p.achievements
    · rw [hact, unlock_of_mem h]
      simp [Act.unlocked?, fresh, h]
    · rw [hact, unlock_of_notMem h]
      simp [Act.unlocked?, fresh, h]
  | _ => simp [act, addItem, removeFirst, removeAll, Act.unlocked?, fresh]

/-- Achievements come in the order in which they are unlocked first. -/
theorem actAll_achievements (p : Progress) (acts : List Act) : (p.actAll acts).2.achievements =
    p.achievements ++ fresh p.achievements (acts.filterMap Act.unlocked?) := by
  induction acts generalizing p with
  | nil => simp [actAll, fresh]
  | cons a acts ih =>
    have hids : (a :: acts).filterMap Act.unlocked? =
        a.unlocked?.toList ++ acts.filterMap Act.unlocked? := by
      cases h : a.unlocked? <;> simp [h]
    calc (p.actAll (a :: acts)).2.achievements
        = ((p.act a).2.actAll acts).2.achievements := rfl
      _ = (p.act a).2.achievements ++ fresh (p.act a).2.achievements (acts.filterMap Act.unlocked?) :=
          ih (p.act a).2
      _ = p.achievements ++ fresh p.achievements ((a :: acts).filterMap Act.unlocked?) := by
          rw [act_achievements, hids, fresh_append, List.append_assoc]

/-- What a player holds over a run of acts. Every reply is that of the stock, in which an item is counted up when it
is added, down when one copy is removed if there is one, and to nothing when all are; at every point there are as many
copies of an item as the stock counts. Items that an act does not name keep their order, and of one that it does the
oldest copy goes first. Achievements stand in the order in which they were unlocked first, none of them twice. -/
theorem belongings_refine (p : Progress) (acts : List Act) :
    let now := (p.actAll acts).2
    (p.actAll acts).1 = (p.stock.actAll acts).1 ∧
    (∀ item, now.inventory.count item = (p.stock.actAll acts).2.count item) ∧
    (∀ a, (now.act a).2.inventory.filter (fun item => a.item? ≠ some item) =
      now.inventory.filter fun item => a.item? ≠ some item) ∧
    (∀ item, (now.act (.add item)).2.inventory = now.inventory ++ [item]) ∧
    (∀ item before after, now.inventory = before ++ item :: after → item ∉ before →
      (now.act (.removeFirst item)).2.inventory = before ++ after) ∧
    (∀ id, now.act (.unlock id) = if id ∈ now.achievements then (.flag false, now) else
      (.flag true, { now with achievements := now.achievements ++ [id] })) ∧
    (∀ id, now.act (.isUnlocked id) =
      (.flag (decide (id ∈ p.achievements ∨ .unlock id ∈ acts)), now)) ∧
    now.achievements = p.achievements ++
      ((acts.filterMap Act.unlocked?).filter fun id => id ∉ p.achievements).eraseDups ∧
    (p.achievements.Nodup → now.achievements.Nodup) := by
  intro now
  obtain ⟨hreplies, hstock⟩ := p.actAll_stock acts
  have hachievements : now.achievements = _ := p.actAll_achievements acts
  refine ⟨hreplies, fun item => ?_, now.act_others, fun item => rfl,
    fun item before after => removeFirst_oldest, fun id => ?_, fun id => ?_, ?_, fun hnodup => ?_⟩
  · exact congrFun (congrArg Stock.count hstock) item
  · split
    next h => simp [act, unlock_of_mem h]
    next h => simp [act, unlock_of_notMem h]
  · have hheld : now.hasAchievement id = decide (id ∈ p.achievements ∨ .unlock id ∈ acts) := by
      rw [hasAchievement, hachievements, fresh_eq, Bool.eq_iff_iff]
      simp only [List.contains_iff_mem, List.mem_append, List.mem_eraseDups, List.mem_filter,
        Act.mem_unlocked, decide_eq_true_eq]
      tauto
    exact Prod.ext (congrArg Reply.flag hheld) rfl
  · rw [hachievements, fresh_eq]
  · rw [hachievements, List.nodup_append]
    refine ⟨hnodup, fresh_nodup _ _, fun id hid other hother heq => ?_⟩
    exact notMem_of_mem_fresh hother (heq ▸ hid)

def diver : Progress where
  node := "reef"
  values := Dictionary.empty
  inventory := ["coin", "rope", "coin"]
  history := ["reef"]
  achievements := ["sailor"]

/-- The rope is gone when it is to be removed again, and what is unlocked twice counts once. -/
def dive : List Act :=
  [.add "coin", .removeFirst "coin", .removeAll "rope", .removeFirst "rope", .add "pearl",
    .unlock "sailor", .unlock "diver", .unlock "diver", .holds "rope"]

theorem belongings_refine_dive :
    (diver.actAll dive).1 = [.done, .flag true, .count 1, .flag false, .done, .flag false, .flag true,
      .flag false, .flag false] ∧
    (diver.actAll dive).2.inventory.count "coin" = 2 ∧
    ((diver.actAll dive).2.act (.removeFirst "coin")).2.inventory = ["coin", "pearl"] ∧
    ((diver.actAll dive).2.act (.isUnlocked "diver")).1 = .flag true ∧
    (diver.actAll dive).2.achievements = ["sailor", "diver"] ∧
    (diver.actAll dive).2.achievements.Nodup := by
  obtain ⟨hreplies, hcount, -, -, holdest, -, hheld, hachievements, hnodup⟩ :=
    belongings_refine diver dive
  refine ⟨hreplies.trans (by decide +kernel), (hcount "coin").trans (by decide +kernel),
    holdest "coin" [] ["coin", "pearl"] rfl (by simp), ?_, ?_, hnodup (by decide)⟩
  · rw [hheld]
    decide +kernel
  · rw [hachievements]
    decide +kernel

end Progress

end Gamebook
