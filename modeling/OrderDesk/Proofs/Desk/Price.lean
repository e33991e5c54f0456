import OrderDesk.Proofs.Desk.Course
import OrderDesk.Proofs.Desk.Ledger
import OrderDesk.Proofs.Floating.AtLeastZero

/-!
# Prices and totals

The total of an order is the sum of the prices that the inventory replied, from the left. Prices
below zero are turned away, so what is stored is at least zero, unless one of the prices is no
number: such a price is not below zero, and no sum with it is a number.

## Main definitions

* `Declined`: why no order is placed, in the order in which the reasons count
* `Sellable`: parts that can be sold

## Main results

* `sellable_of_price`, `price_of_sellable`: what is priced can be sold, and the other way round
* `declined_of_quoted`: the refusals
* `sum_cons`: a sum starts with the first price
* `zero_le_sum_iff`: a total is at least zero unless a price is no number
* `zero_le_total_iff`: what every order has for a total that is created
-/

namespace OrderDesk.Desk

/-! ## Sums of prices -/

/-- **A sum starts with the first price.** -/
theorem sum_cons (part : Part) (parts : List Part) :
    sum (part :: parts) = parts.foldl (fun total p => total + p.price) part.price := by
  rw [sum, List.foldl_cons, Floating.negative_zero_add]

theorem zero_le_foldl {parts : List Part} (h : ∀ p ∈ parts, 0 ≤ p.price) {total : Float}
    (ht : 0 ≤ total) : 0 ≤ parts.foldl (fun total p => total + p.price) total := by
  induction parts generalizing total with
  | nil => exact ht
  | cons p parts ih =>
    rw [List.forall_mem_cons] at h
    exact ih h.2 (Floating.zero_le_add ht h.1)

/-- What is no number stays none, whatever is added. -/
theorem isNaN_foldl {total : Float} (h : total.isNaN = true) (parts : List Part) :
    (parts.foldl (fun total p => total + p.price) total).isNaN = true := by
  induction parts generalizing total with
  | nil => exact h
  | cons p parts ih => exact ih (Floating.isNaN_add_left h p.price)

/-- **A total is at least zero**, unless one of the prices is no number. -/
theorem zero_le_sum_iff {parts : List Part} (h : ∀ p ∈ parts, ¬ p.price < 0) :
    0 ≤ sum parts ↔ ∀ p ∈ parts, p.price.isNaN = false := by
  constructor
  · intro hsum p mem
    by_contra hprice
    rw [Bool.not_eq_false] at hprice
    obtain ⟨before, after, rfl⟩ := List.append_of_mem mem
    have hnan : (sum (before ++ p :: after)).isNaN = true := by
      rw [sum, List.foldl_append, List.foldl_cons]
      exact isNaN_foldl (Floating.isNaN_add_right hprice _) after
    exact Floating.not_zero_le_of_isNaN hnan hsum
  · intro hnumbers
    refine zero_le_foldl (fun p mem => ?_) (by decide +kernel)
    refine (Floating.not_lt_zero_iff.mp (h p mem)).resolve_right fun hnan => ?_
    rw [hnumbers p mem] at hnan
    cases hnan

/-! ## Refusals -/

/-- **Why no order is placed**: nothing is asked for, or there is no reply, or it is too short or
too long, or a price is below zero. The reasons count in this order. -/
inductive Declined (ids : List String) : Except ClientError (List Part) → DeskError → Prop
  | empty (reply : Except ClientError (List Part)) (nothing : ids = []) :
    Declined ids reply (.badRequest "order must contain at least one part")
  | unanswered (reason : ClientError) (asked : ids ≠ []) :
    Declined ids (.error reason) (.internal ("inventory lookup failed: " ++ reason.message))
  | missing (parts : List Part) (asked : ids ≠ []) (differ : parts.length ≠ ids.length) :
    Declined ids (.ok parts) (.partsNotFound ids.length parts.length)
  | negative (before : List Part) (part : Part) (after : List Part) (asked : ids ≠ [])
    (all : (before ++ part :: after).length = ids.length) (first : ∀ p ∈ before, ¬ p.price < 0)
    (below : part.price < 0) :
    Declined ids (.ok (before ++ part :: after))
      (.internal ("negative price for part " ++ part.id))

/-- **The parts that can be sold**: one for each id, with no price below zero. -/
structure Sellable (ids : List String) (parts : List Part) : Prop where
  asked : ids ≠ []
  all : parts.length = ids.length
  priced : ∀ p ∈ parts, ¬ p.price < 0

namespace Declined

variable {ids : List String} {parts : List Part} {reply : Except ClientError (List Part)}
  {e : DeskError}

/-- What can be sold is not declined. -/
theorem not_sellable (h : Declined ids reply e) (hreply : reply = .ok parts) :
    ¬ Sellable ids parts := by
  rintro ⟨asked, all, priced⟩
  cases h with
  | empty _ nothing => exact asked nothing
  | unanswered => cases hreply
  | missing _ _ differ =>
    cases hreply
    exact differ all
  | negative before part after _ _ _ below =>
    cases hreply
    exact priced part (by simp) below

end Declined

section Prices

variable {ids : List String} {parts : List Part} {reply : Except ClientError (List Part)}
  {total : Float} {e : DeskError}

/-- **The total of an order** is the sum of all its prices. -/
theorem sellable_of_price (h : price ids.length parts = .ok total) :
    Sellable ids parts ∧ total = sum parts := by
  rw [price] at h
  split at h
  · cases h
  · rename_i hcount
    obtain ⟨hsome, hall⟩ := not_or.mp hcount
    rw [not_not] at hall
    split at h
    · cases h
    · rename_i hfind
      refine ⟨⟨?_, hall, fun p mem => ?_⟩, (Except.ok.inj h).symm⟩
      · rintro rfl
        exact hsome (List.isEmpty_iff.mpr (List.length_eq_zero_iff.mp hall))
      · simpa using List.find?_eq_none.mp hfind p mem

/-- **What can be sold is priced.** -/
theorem price_of_sellable (h : Sellable ids parts) : price ids.length parts = .ok (sum parts) := by
  have hfind : parts.find? (fun p => decide (p.price < 0)) = none := by
    apply List.find?_eq_none.mpr
    intro p mem
    simpa using h.priced p mem
  have hcount : ¬ (parts.isEmpty = true ∨ parts.length ≠ ids.length) := by
    rintro (nothing | differ)
    · rw [List.isEmpty_iff.mp nothing] at h
      exact h.asked (List.length_eq_zero_iff.mp h.all.symm)
    · exact differ h.all
  rw [price, if_neg hcount, hfind]

/-- **What is not priced** is declined. -/
theorem declined_of_price (asked : ids ≠ []) (h : price ids.length parts = .error e) :
    Declined ids (.ok parts) e := by
  rw [price] at h
  split at h
  · rename_i hcount
    obtain rfl := Except.error.inj h
    refine .missing parts asked fun hall => ?_
    have hempty : parts.isEmpty = true := hcount.resolve_right (not_not.mpr hall)
    rw [List.isEmpty_iff.mp hempty] at hall
    exact asked (List.length_eq_zero_iff.mp hall.symm)
  · rename_i hcount
    have hall : parts.length = ids.length := not_not.mp (not_or.mp hcount).2
    split at h
    · rename_i part hfind
      obtain ⟨hbelow, before, after, rfl, hfirst⟩ := List.find?_eq_some_iff_append.mp hfind
      obtain rfl := Except.error.inj h
      exact .negative before part after asked hall (fun p mem => by simpa using hfirst p mem)
        (by simpa using hbelow)
    · cases h

/-- **A quotation** of parts that can be sold is their total. -/
theorem sellable_of_quoted (h : quoted ids reply = .ok total) :
    ∃ parts, reply = .ok parts ∧ Sellable ids parts ∧ total = sum parts := by
  rw [quoted.eq_def] at h
  split at h
  · cases h
  · cases reply with
    | error reason => cases h
    | ok parts => exact ⟨parts, rfl, sellable_of_price h⟩

/-- **What is not quoted** is declined. -/
theorem declined_of_quoted (h : quoted ids reply = .error e) : Declined ids reply e := by
  rw [quoted.eq_def] at h
  split at h
  · rename_i hids
    obtain rfl := Except.error.inj h
    exact .empty reply (List.isEmpty_iff.mp hids)
  · rename_i hids
    have asked : ids ≠ [] := fun nothing => hids (List.isEmpty_iff.mpr nothing)
    cases reply with
    | error reason =>
      obtain rfl := Except.error.inj h
      exact .unanswered reason asked
    | ok parts => exact declined_of_price asked h

end Prices

/-! ## What is stored -/

/-- **Orders are created for what can be sold**, and such an order has a total that is at least zero
exactly if every price is a number. -/
theorem zero_le_total_iff {draw : Draw} {user : String} {ids : List String} {past more : Past}
    {order : Order} {answer : Call.Answer (.create order)}
    {p : Program Call Call.Answer (Except DeskError Order)}
    (h : (place user ids draw).Reaches (past ++ ⟨.create order, answer⟩ :: more) p) :
    ∃ parts, past = [listed ids parts] ∧ Sellable ids parts ∧
      (0 ≤ order.total ↔ ∀ part ∈ parts, part.price.isNaN = false) := by
  have hasks : Asks draw (.place user ids) past (.create order) :=
    asks_of_program (.place user ids) (h.map Reply.order)
  obtain ⟨_, _, parts, total, ⟨⟩, rfl, priced, rfl⟩ := hasks.create_inv
  obtain ⟨sellable, rfl⟩ := sellable_of_price priced
  exact ⟨parts, rfl, sellable, zero_le_sum_iff sellable.priced⟩

/-- A part whose price is no number. -/
def priceless : Part := ⟨"p1", "", 0.0 / 0.0⟩

/-- The order that is to be created for it. -/
def pricelessOrder : Order := Order.placed .nil .epoch "user-1" ["p1"] (sum [priceless])

theorem price_priceless : price 1 [priceless] = .ok (sum [priceless]) := by
  have hfind : [priceless].find? (fun p => decide (p.price < 0)) = none := by decide +kernel
  simp [price, hfind]

theorem zero_le_total_iff_priceless :
    (place "user-1" ["p1"] default).Reaches
        ([listed ["p1"] [priceless]] ++
          [⟨.create pricelessOrder, (.error (.storage "closed") : Except StoreError Order)⟩])
        (.done (.error (.internal "closed"))) ∧
      ∃ parts, [listed ["p1"] [priceless]] = [listed ["p1"] parts] ∧ Sellable ["p1"] parts ∧
        (0 ≤ pricelessOrder.total ↔ ∀ part ∈ parts, part.price.isNaN = false) := by
  have hrun : (place "user-1" ["p1"] default).Reaches
      ([listed ["p1"] [priceless]] ++
        [⟨.create pricelessOrder, (.error (.storage "closed") : Except StoreError Order)⟩])
      (.done (.error (.internal "closed"))) := by
    refine .on ?_
    simp only [List.length_singleton, price_priceless]
    rw [placePriced]
    exact .on (.here _)
  exact ⟨hrun, zero_le_total_iff hrun⟩

/-- The inventory lists it, and all else goes well. -/
def pricelessOutcomes : Outcomes := ⟨.ok [priceless], .ok "", .ok (), []⟩

/-- Its total is no number, and so it is not at least zero. -/
theorem not_zero_le_pricelessOrder : ¬ 0 ≤ pricelessOrder.total := by decide +kernel

/-- Alone with a ledger, the placement has no result. -/
theorem run_priceless :
    (place "user-1" ["p1"] default).run (Ledger.answer pricelessOutcomes default)
        ⟨.empty, .zero, []⟩ =
      (none, Ledger.entered ⟨.empty, .zero, []⟩ ⟨[pricelessOrder], List.nodup_singleton _⟩) := by
  have hquoted : quoted ["p1"] pricelessOutcomes.parts = .ok (sum [priceless]) := price_priceless
  rw [run_place, hquoted]
  exact if_neg not_zero_le_pricelessOrder

/-- **An order is stored whose total is no number**: its price is none, and passes for one that is
not below zero. Where nothing is counted, it is what the caller gets; where totals are counted, the
placement is broken off at its total, and the order stays. -/
theorem stored_total_priceless :
    (∃ order store,
      (place "user-1" ["p1"] default).run (pricelessOutcomes.answer default) .empty =
          (some (.ok order), store) ∧
        store.orders = [order] ∧ ¬ 0 ≤ order.total) ∧
    ∃ order after,
      (place "user-1" ["p1"] default).run (Ledger.answer pricelessOutcomes default)
          ⟨.empty, .zero, []⟩ = (none, after) ∧
        after.store.orders = [order] ∧ ¬ 0 ≤ order.total :=
  ⟨⟨_, _, rfl, rfl, not_zero_le_pricelessOrder⟩,
    ⟨_, _, run_priceless, rfl, not_zero_le_pricelessOrder⟩⟩

end OrderDesk.Desk
