import Mathlib.Data.List.Count
import Gamebook.Proofs.Variables

namespace Gamebook

/-- The items that are left where others are spent. A copy stays if the copies before it are as many as are
spent, so that the oldest ones go. -/
def left (spent items : List String) : List String :=
  (items.zipIdx.filter fun e => decide (spent.count e.1 ≤ (items.take e.2).count e.1)).map Prod.fst

theorem left_cons (spent : List String) (item : String) (items : List String) :
    left spent (item :: items) =
      if item ∈ spent then left (spent.erase item) items else item :: left spent items := by
  -- One place further on an item has one more before it, which is the one that may have been spent first.
  have hrest : ((items.zipIdx 1).filter fun e =>
      decide (spent.count e.1 ≤ ((item :: items).take e.2).count e.1)).map Prod.fst =
        left (spent.erase item) items := by
    rw [List.zipIdx_succ, List.filter_map, List.map_map, left]
    congr 1
    refine List.filter_congr fun e _ => ?_
    have hcount : spent.count e.1 ≤ (item :: items.take e.2).count e.1 ↔
        (spent.erase item).count e.1 ≤ (items.take e.2).count e.1 := by
      rw [List.count_cons, List.count_erase]
      omega
    exact decide_eq_decide.mpr hcount
  rw [left, List.zipIdx_cons, List.filter_cons, List.take_zero, List.count_nil]
  by_cases hitem : item ∈ spent
  · have hpos : ¬spent.count item ≤ 0 := by
      have := List.count_pos_iff.mpr hitem
      omega
    rw [if_neg (by simpa using hpos), if_pos hitem, hrest]
  · have hzero : spent.count item ≤ 0 := Nat.le_of_eq (List.count_eq_zero.mpr hitem)
    rw [if_pos (by simpa using hzero), if_neg hitem, List.map_cons, hrest,
      List.erase_of_not_mem hitem]

/-- To take away the first copy of each item in turn is to take away the oldest ones. -/
theorem diff_eq_left (spent items : List String) : items.diff spent = left spent items := by
  induction items generalizing spent with
  | nil => exact List.nil_diff spent
  | cons item items ih => rw [List.cons_diff, left_cons, ih, ih]

namespace Cost

/-- What is written under a name from which an amount is taken. -/
def deducted (amount : Float) (v : Option Value) : Value := .number (Value.amount v - amount)

theorem applyItems_eq (items : List String) (p : Progress) :
    applyItems items p = { p with inventory := p.inventory.diff items } := by
  induction items generalizing p with
  | nil => rfl
  | cons item items ih =>
    calc applyItems (item :: items) p
        = applyItems items { p with inventory := p.inventory.erase item } := rfl
      _ = { p with inventory := (p.inventory.erase item).diff items } := ih _
      _ = { p with inventory := p.inventory.diff (item :: items) } := by rw [List.diff_cons]

theorem apply_valueOf? (c : Cost) (p : Progress) (name : String) : (c.apply p).valueOf? name =
    ((c.amounts.get? name).map fun a => deducted a (p.valueOf? name)).or (p.valueOf? name) := by
  rw [apply, applyItems_eq]
  exact Progress.valueOf?_rewrite deducted c.amounts.entries_nodup p name

theorem apply_inventory (c : Cost) (p : Progress) :
    (c.apply p).inventory = p.inventory.diff c.items := by
  have hamounts : (applyAmounts c.amounts p).inventory = p.inventory :=
    Progress.rewrite_keeps deducted Progress.inventory (fun _ _ => rfl) c.amounts.entries p
  rw [apply, applyItems_eq, hamounts]

theorem apply_perm {c : Cost} {items : List String} (h : items.Perm c.items) (p : Progress) :
    apply ⟨c.amounts, items⟩ p = c.apply p := by
  rw [apply, apply, applyItems_eq, applyItems_eq, h.diff_left]

/-- A cost is deducted from what the player has. As many copies of an item go as are asked for and held, the
oldest ones, whatever the order in which they are named; an amount is taken from the number under its
name, or from zero where there is none, and nothing else changes. -/
theorem apply_deducts (c : Cost) (p : Progress) :
    let next := c.apply p
    (∀ item, next.inventory.count item = p.inventory.count item - c.items.count item) ∧
    next.inventory = left c.items p.inventory ∧
    (∀ items, items.Perm c.items → apply ⟨c.amounts, items⟩ p = next) ∧
    (∀ name a, c.amounts.get? name = some a → next.valueOf? name =
      some (.number (((p.valueOf? name).bind Value.number?).getD 0 - a))) ∧
    (∀ name, c.amounts.get? name = none → next.valueOf? name = p.valueOf? name) ∧
    next.achievements = p.achievements ∧ next.history = p.history ∧ next.node = p.node ∧
    ∀ amounts, amounts.Perm c.amounts.entries →
      applyItems c.items (Progress.rewrite deducted amounts p) = next := by
  intro next
  have hinventory : next.inventory = p.inventory.diff c.items := apply_inventory c p
  have hvalues : ∀ name, next.valueOf? name = _ := apply_valueOf? c p
  refine ⟨fun item => ?_, ?_, fun items h => apply_perm h p, fun name a ha => ?_,
    fun name ha => ?_, apply_achievements c p, apply_history c p, apply_node c p, fun amounts h => ?_⟩
  · rw [hinventory, List.count_diff]
  · rw [hinventory, diff_eq_left]
  · rw [hvalues, ha]
    rfl
  · rw [hvalues, ha]
    rfl
  · rw [Progress.rewrite_perm deducted h c.amounts.entries_nodup]
    rfl

/-- Two coins and a ticket for the ferry, and a fare besides. -/
def ferryToll : Cost :=
  ⟨(Dictionary.empty.insert "purse" 3).insert "mood" 1, ["coin", "ticket", "coin"]⟩

def ferryGuest : Progress where
  node := "pier"
  values := (Dictionary.empty.insert "purse" (.text "2")).insert "mood" (.text "merry")
  inventory := ["coin", "hat", "coin", "map", "coin"]
  history := ["pier"]
  achievements := []

theorem apply_deducts_ferry :
    (ferryToll.apply ferryGuest).inventory = ["hat", "map", "coin"] ∧
    (ferryToll.apply ferryGuest).inventory.count "ticket" = 0 ∧
    (ferryToll.apply ferryGuest).valueOf? "purse" = some (.number (-1)) ∧
    (ferryToll.apply ferryGuest).valueOf? "mood" = some (.number (-1)) ∧
    (ferryToll.apply ferryGuest).valueOf? "hope" = none ∧
    apply ⟨ferryToll.amounts, ["coin", "coin", "ticket"]⟩ ferryGuest =
      ferryToll.apply ferryGuest ∧
    applyItems ferryToll.items (Progress.rewrite deducted ferryToll.amounts.entries.reverse
      ferryGuest) = ferryToll.apply ferryGuest := by
  obtain ⟨hcount, hleft, hitems, hpaid, hkept, -, -, -, hamounts⟩ :=
    apply_deducts ferryToll ferryGuest
  refine ⟨hleft.trans (by decide +kernel), (hcount "ticket").trans (by decide +kernel),
    (hpaid "purse" 3 rfl).trans (by decide +kernel), (hpaid "mood" 1 rfl).trans (by decide +kernel),
    hkept "hope" rfl, hitems _ ?_, hamounts _ (List.reverse_perm _)⟩
  exact .cons _ (.swap _ _ _)

end Cost

end Gamebook
