import OrderDesk.Proofs.Desk.Price

/-!
# The basket of an order

An order is placed on a reply of the inventory that lists as many parts as were asked for. Nobody
compares the ids: that they are the right ones is left to an inventory that lists nothing else. From
such an inventory a reply that is long enough is the basket that was asked for; from any other one
it may be another basket, and the order is placed on its prices all the same.

## Main results

* `sum_congr`, `Sellable.of_prices`: a total is made without a look at the ids
* `basket_counted`: an order is placed on as many parts as were asked for, and on just those if the
  reply lists nothing else
* `placed_on_substitute`: an order for one part that is placed on another
-/

namespace OrderDesk.Desk

variable {ids : List String} {parts others : List Part}

/-- Parts at the same prices come to the same sum. -/
theorem sum_congr (h : others.map Part.price = parts.map Part.price) : sum others = sum parts := by
  have hfold : ∀ ps : List Part,
      sum ps = (ps.map Part.price).foldl (fun total x => total + x) (-0.0) := by
    intro ps
    rw [List.foldl_map]
    rfl
  rw [hfold, hfold, h]

/-- **Parts at the same prices** can be sold as well. -/
theorem Sellable.of_prices (h : Sellable ids parts)
    (prices : others.map Part.price = parts.map Part.price) : Sellable ids others where
  asked := h.asked
  all := by
    have hlength := congrArg List.length prices
    rw [List.length_map, List.length_map] at hlength
    rw [hlength, h.all]
  priced p mem := by
    have hprice : p.price ∈ parts.map Part.price := prices ▸ List.mem_map_of_mem mem
    obtain ⟨p', mem', hsame⟩ := List.mem_map.mp hprice
    rw [← hsame]
    exact h.priced p' mem'

section Placed

variable {draw : Draw} {user : String} {past : Past} {order : Order}

/-- **What was placed** was priced from the reply of the inventory. -/
theorem sellable_of_placed (h : (place user ids draw).Reaches past (.done (.ok order))) :
    ∃ parts more, past = listed ids parts :: more ∧ Sellable ids parts ∧
      (placePriced user ids draw (sum parts)).Reaches more (.done (.ok order)) := by
  rw [place] at h
  split at h
  · cases h
  · cases h with
    | @on _ _ reply more _ rest =>
      rcases reply with e | parts
      · cases rest
      · cases hprice : price ids.length parts with
        | error e =>
          simp only [hprice] at rest
          cases rest
        | ok total =>
          obtain ⟨sellable, rfl⟩ := sellable_of_price hprice
          simp only [hprice] at rest
          exact ⟨parts, more, rfl, sellable, rest⟩

/-- A priced reply goes on to the order. -/
theorem placed_of_sellable {more : Past} (h : Sellable ids parts)
    (rest : (placePriced user ids draw (sum parts)).Reaches more (.done (.ok order))) :
    (place user ids draw).Reaches (listed ids parts :: more) (.done (.ok order)) := by
  have hasked : ¬ ids.isEmpty = true := fun nothing => h.asked (List.isEmpty_iff.mp nothing)
  rw [place, if_neg hasked]
  refine .on ?_
  simp only [price_of_sellable h]
  exact rest

/-- **An order is placed on as many parts as were asked for**, at least one. If the reply lists
nothing that was not asked for, and nothing more often, then its ids are those that were asked for,
counted with multiplicity. The ids themselves are not looked at: on any other parts at the same
prices the same order is placed. -/
theorem basket_counted (h : (place user ids draw).Reaches past (.done (.ok order))) :
    ∃ parts more, past = listed ids parts :: more ∧ ids ≠ [] ∧ parts.length = ids.length ∧
      ((parts.map Part.id).Subperm ids → (parts.map Part.id).Perm ids) ∧
      ∀ others : List Part, others.map Part.price = parts.map Part.price →
        (place user ids draw).Reaches (listed ids others :: more) (.done (.ok order)) := by
  obtain ⟨parts, more, rfl, sellable, rest⟩ := sellable_of_placed h
  refine ⟨parts, more, rfl, sellable.asked, sellable.all, ?_, ?_⟩
  · intro among
    apply among.perm_of_length_le
    rw [List.length_map, sellable.all]
  · intro others prices
    apply placed_of_sellable (sellable.of_prices prices)
    rw [sum_congr prices]
    exact rest

end Placed

/-- A reply that lists a repeated part last. -/
def shelf : List Part := [⟨"p-1", "wing", 10⟩, ⟨"p-2", "bolt", 5⟩, ⟨"p-2", "bolt", 5⟩]

/-- The order that is placed on it. -/
def shelfOrder : Order := Order.placed .nil .epoch "user-1" ["p-2", "p-1", "p-2"] (sum shelf)

theorem sellable_shelf : Sellable ["p-2", "p-1", "p-2"] shelf where
  asked := by simp
  all := rfl
  priced := by decide +kernel

theorem basket_counted_shelf :
    ∃ past, (place "user-1" ["p-2", "p-1", "p-2"] ⟨.nil, .epoch⟩).Reaches
        (listed ["p-2", "p-1", "p-2"] shelf :: past) (.done (.ok shelfOrder)) ∧
      (shelf.map Part.id).Perm ["p-2", "p-1", "p-2"] := by
  have hplaced : (place "user-1" ["p-2", "p-1", "p-2"] ⟨.nil, .epoch⟩).Reaches
      [listed ["p-2", "p-1", "p-2"] shelf,
        ⟨.create shelfOrder, (.ok shelfOrder : Except StoreError Order)⟩,
        counted .created, counted (.earned shelfOrder.total)] (.done (.ok shelfOrder)) :=
    placed_of_sellable sellable_shelf (.on (.on (.on (.here _))))
  refine ⟨_, hplaced, ?_⟩
  obtain ⟨parts, more, hpast, -, -, among, -⟩ := basket_counted hplaced
  cases hpast
  exact among (by decide)

/-- A part that nobody asked for. -/
def substitute : Part := ⟨"p2", "p2", 50⟩

/-- **An order for one part is placed on another**, and stored with its price. -/
theorem placed_on_substitute :
    ∃ order after,
      (place "user-1" ["p1"] default).run
          (Ledger.answer ⟨.ok [substitute], .ok "", .ok (), []⟩ default) ⟨.empty, .zero, []⟩ =
        (some (.ok order), after) ∧
      after.store.orders = [order] ∧ order.parts = ["p1"] ∧
      ¬ ([substitute].map Part.id).Perm ["p1"] := by
  refine ⟨_, _, rfl, rfl, rfl, ?_⟩
  decide

end OrderDesk.Desk
