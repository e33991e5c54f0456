import OrderDesk.Proofs.Desk.Price

/-!
# Orders placed once or not at all

An order that is placed alone with a ledger is stored once, under an id that was free, with the sum
of the prices of its parts for a total; or nothing happens, and the caller is told why. What decides
is the reply of the inventory alone. Ids that are in use are drawn again, and among enough different
ones there is a free one.

A price that is no number passes for one that is not below zero, but no counter takes the total that
it makes. Such a reply is left out.

## Main definitions

* `Priceless`: parts that could be sold but for a price that is no number
* `Issued`: an order as it is placed
* `Ledger.Enters`: one order is stored and counted

## Main results

* `Store.create_eq_none_iff`, `Store.exists_free`: how long ids are drawn
* `placed_once`: what is placed, what is stored for it, and what happens otherwise
-/

namespace OrderDesk

/-! ## Ids that are drawn -/

namespace Store

variable {s : Store} {o : Order} {draws : List Uuid}

/-- **A creation has no outcome** while every id that was drawn is in use. -/
theorem create_eq_none_iff :
    s.create o draws = none ↔ ∀ id ∈ o.id :: draws, s.uses id = true := by
  cases hfree : (o.id :: draws).find? fun id => !s.uses id with
  | none =>
    have hused : ∀ id ∈ o.id :: draws, s.uses id = true := by
      simpa using List.find?_eq_none.mp hfree
    refine iff_of_true ?_ hused
    cases hcreate : s.create o draws with
    | none => rfl
    | some created =>
      rw [free_of_create hcreate] at hfree
      cases hfree
  | some free =>
    obtain ⟨unused, hcreate⟩ := create_of_free hfree
    rw [hcreate]
    refine iff_of_false (Option.some_ne_none _) fun hused => ?_
    rw [hused free (List.mem_of_find?_eq_some hfree)] at unused
    cases unused

/-- **One is free** among more different ids than there are orders. -/
theorem exists_free {ids : List Uuid} (nodup : ids.Nodup) (more : s.orders.length < ids.length) :
    ∃ id ∈ ids, s.uses id = false := by
  by_contra hused
  have hsub : ids ⊆ s.orders.map (·.id) := by
    intro id mem
    by_contra hnot
    exact hused ⟨id, mem, uses_eq_false_iff.mpr hnot⟩
  have hle : ids.length ≤ (s.orders.map (·.id)).length := (nodup.subperm hsub).length_le
  rw [List.length_map] at hle
  omega

end Store

namespace Desk

/-! ## What is placed -/

/-- **Parts that could be sold** but for a price that is no number. -/
def Priceless (ids : List String) (parts : List Part) : Prop :=
  Sellable ids parts ∧ ∃ p ∈ parts, p.price.isNaN = true

/-- **Parts that are sold**: one for each id, with prices that are numbers and not below zero. -/
structure Sold (ids : List String) (parts : List Part) : Prop extends Sellable ids parts where
  numbers : ∀ p ∈ parts, p.price.isNaN = false

theorem Sellable.sold_or_priceless {ids : List String} {parts : List Part}
    (h : Sellable ids parts) : Sold ids parts ∨ Priceless ids parts := by
  by_cases numbers : ∀ p ∈ parts, p.price.isNaN = false
  · exact .inl ⟨h, numbers⟩
  · simp only [not_forall, Bool.not_eq_false] at numbers
    obtain ⟨p, mem, hp⟩ := numbers
    exact .inr ⟨h, p, mem, hp⟩

theorem Sold.zero_le_sum {ids : List String} {parts : List Part} (h : Sold ids parts) :
    0 ≤ sum parts :=
  (zero_le_sum_iff h.priced).mpr h.numbers

theorem Priceless.not_zero_le_sum {ids : List String} {parts : List Part}
    (h : Priceless ids parts) : ¬ 0 ≤ sum parts := fun hsum => by
  obtain ⟨sellable, p, mem, hp⟩ := h
  rw [(zero_le_sum_iff sellable.priced).mp hsum p mem] at hp
  cases hp

theorem Priceless.not_sold {ids : List String} {parts : List Part} (h : Priceless ids parts) :
    ¬ Sold ids parts := fun sold =>
  h.not_zero_le_sum sold.zero_le_sum

/-- **An order as it is placed** for a user: it asks for these ids, waits for its payment, and its
total is made of the prices of the parts, added from the left. -/
structure Issued (user : String) (ids : List String) (parts : List Part) (order : Order) :
    Prop where
  user : order.user = user
  ids : order.parts = ids
  pending : order.status = .pendingPayment
  unpaid : order.transaction = none ∧ order.method = none
  total : ∃ first rest, parts = first :: rest ∧
    order.total = rest.foldl (fun total p => total + p.price) first.price

/-- **One order is stored and counted**, under an id that was free; and that is all. -/
structure Ledger.Enters (before after : Ledger) (order : Order) : Prop where
  free : before.store.uses order.id = false
  orders : after.store.orders = before.store.orders ++ [order]
  found : after.store.find? order.id = some order
  others : ∀ id, id ≠ order.id → after.store.find? id = before.store.find? id
  counters : after.counters = (before.counters.add .created).add (.earned order.total)
  outside : after.outside = before.outside

theorem issued_placed (id : Uuid) (now : Instant) (user : String) {ids : List String}
    {parts : List Part} (sellable : Sellable ids parts) :
    Issued user ids parts (Order.placed id now user ids (sum parts)) := by
  refine ⟨rfl, rfl, rfl, ⟨rfl, rfl⟩, ?_⟩
  cases parts with
  | nil => exact absurd (List.length_eq_zero_iff.mp sellable.all.symm) sellable.asked
  | cons first rest => exact ⟨first, rest, rfl, sum_cons first rest⟩

theorem enters_of_create {l : Ledger} {order created : Order} {draws : List Uuid} {store : Store}
    (h : l.store.create order draws = some (created, store)) :
    l.Enters ((l.entered store).earning created.total) created := by
  obtain ⟨hfree, -, hfind⟩ := Store.create_eq_some h
  refine ⟨?_, Store.orders_of_create h, ?_, fun id other => ?_, rfl, rfl⟩
  · rw [Store.uses_eq_isSome, hfree]
    rfl
  · exact (hfind created.id).trans (if_pos rfl)
  · exact (hfind id).trans (if_neg other.symm)

/-- Without ids nobody is asked anything. -/
theorem past_eq_nil_of_place_nil {draw : Draw} {user : String} {past : Past}
    {p : Program Call Call.Answer (Except DeskError Order)}
    (h : (place user [] draw).Reaches past p) : past = [] := by
  rw [place, List.isEmpty_nil, if_pos rfl] at h
  cases h with
  | here => rfl

/-! ## How it ends -/

/-- **How the placing of an order ends** alone with a ledger: the order is stored and counted, or
declined, or ids are still drawn for it, or its total is not counted. -/
inductive Ends (o : Outcomes) (draw : Draw) (l : Ledger) (user : String) (ids : List String) :
    Option (Except DeskError Order) → Ledger → Prop
  | stored {parts : List Part} {order : Order} {after : Ledger} (reply : o.parts = .ok parts)
    (sold : Sold ids parts) (free : ∃ id ∈ draw.id :: o.draws, l.store.uses id = false)
    (issued : Issued user ids parts order) (enters : l.Enters after order) :
    Ends o draw l user ids (some (.ok order)) after
  | declined {e : DeskError} (declined : Declined ids o.parts e) :
    Ends o draw l user ids (some (.error e)) l
  | drawing {parts : List Part} (reply : o.parts = .ok parts) (sellable : Sellable ids parts)
    (used : ∀ id ∈ draw.id :: o.draws, l.store.uses id = true) : Ends o draw l user ids none l
  | uncounted {parts : List Part} {after : Ledger} (reply : o.parts = .ok parts)
    (priceless : Priceless ids parts) : Ends o draw l user ids none after

theorem ends_of_run (o : Outcomes) (draw : Draw) (now : Instant) (l : Ledger) (user : String)
    (ids : List String) :
    ∃ result after, (place user ids draw).run (Ledger.answer o now) l = (result, after) ∧
      Ends o draw l user ids result after := by
  rw [run_place]
  cases hquoted : quoted ids o.parts with
  | error e => exact ⟨_, _, rfl, .declined (declined_of_quoted hquoted)⟩
  | ok total =>
    obtain ⟨parts, hreply, sellable, rfl⟩ := sellable_of_quoted hquoted
    cases hcreate : l.store.create (Order.placed draw.id draw.now user ids (sum parts)) o.draws with
    | none =>
      simp only [hcreate]
      exact ⟨_, _, rfl, .drawing hreply sellable (Store.create_eq_none_iff.mp hcreate)⟩
    | some created =>
      obtain ⟨order, store⟩ := created
      have hissued : Issued user ids parts order ∧ order.total = sum parts := by
        rw [(Store.create_eq_some hcreate).2.1]
        exact ⟨issued_placed order.id draw.now user sellable, rfl⟩
      simp only [hcreate]
      rcases sellable.sold_or_priceless with sold | priceless
      · have henters := enters_of_create hcreate
        have hmem : order.id ∈ draw.id :: o.draws :=
          List.mem_of_find?_eq_some (Store.free_of_create hcreate)
        rw [if_pos (hissued.2 ▸ sold.zero_le_sum)]
        exact ⟨_, _, rfl, .stored hreply sold ⟨order.id, hmem, henters.free⟩ hissued.1 henters⟩
      · rw [if_neg (hissued.2 ▸ priceless.not_zero_le_sum)]
        exact ⟨_, _, rfl, .uncounted hreply priceless⟩

/-- **An order is placed once or not at all.** Unless nothing but a price that is no number stands in
its way, it is stored and returned exactly if the inventory replies parts that can be sold and some
id that is drawn is free; there is no result only while all ids that were drawn are in use, and among
more different ids than there are orders one is free. What is returned is one order more, for the
user and the ids, with the sum of the prices. Where the caller is told an error, it is the first
reason that counts, and nothing has changed. -/
theorem placed_once (o : Outcomes) (draw : Draw) (now : Instant) (l : Ledger) (user : String)
    (ids : List String) :
    ∃ result after, (place user ids draw).run (Ledger.answer o now) l = (result, after) ∧
      ((∀ parts, o.parts = .ok parts → ¬ Priceless ids parts) →
        ((∃ order, result = some (.ok order)) ↔
          (∃ parts, o.parts = .ok parts ∧ Sellable ids parts) ∧
            ∃ id ∈ draw.id :: o.draws, l.store.uses id = false) ∧
        (result = none → (∀ id ∈ draw.id :: o.draws, l.store.uses id = true) ∧ after = l) ∧
        ((draw.id :: o.draws).Nodup → l.store.orders.length < (draw.id :: o.draws).length →
          result ≠ none)) ∧
      (∀ order, result = some (.ok order) →
        ∃ parts, o.parts = .ok parts ∧ Issued user ids parts order ∧ l.Enters after order) ∧
      (∀ e, result = some (.error e) → Declined ids o.parts e ∧ after = l) ∧
      (ids = [] → ∀ past p, (place user ids draw).Reaches past p → past = []) := by
  obtain ⟨result, after, hrun, hends⟩ := ends_of_run o draw now l user ids
  refine ⟨result, after, hrun, fun numbers => ⟨?_, ?_, ?_⟩, ?_, ?_, ?_⟩
  · cases hends with
    | stored reply sold free => exact iff_of_true ⟨_, rfl⟩ ⟨⟨_, reply, sold.toSellable⟩, free⟩
    | declined declined =>
      constructor
      · rintro ⟨order, ⟨⟩⟩
      · rintro ⟨⟨parts, reply, sellable⟩, -⟩
        exact absurd sellable (declined.not_sellable reply)
    | drawing reply sellable used =>
      constructor
      · rintro ⟨order, ⟨⟩⟩
      · rintro ⟨-, id, mem, unused⟩
        rw [used id mem] at unused
        cases unused
    | uncounted reply priceless => exact absurd priceless (numbers _ reply)
  · rintro rfl
    cases hends with
    | drawing _ _ used => exact ⟨used, rfl⟩
    | uncounted reply priceless => exact absurd priceless (numbers _ reply)
  · rintro nodup more rfl
    obtain ⟨id, mem, unused⟩ := Store.exists_free nodup more
    cases hends with
    | drawing _ _ used =>
      rw [used id mem] at unused
      cases unused
    | uncounted reply priceless => exact absurd priceless (numbers _ reply)
  · rintro order rfl
    cases hends with
    | stored reply _ _ issued enters => exact ⟨_, reply, issued, enters⟩
  · rintro e rfl
    cases hends with
    | declined declined => exact ⟨declined, rfl⟩
  · rintro rfl past p h
    exact past_eq_nil_of_place_nil h

/-- **An order is not placed although its parts could be sold**: one price is no number. -/
theorem unplaced_priceless :
    Sellable ["p1"] [priceless] ∧ pricelessOutcomes.parts = .ok [priceless] ∧
      Store.empty.uses (default : Draw).id = false ∧
      ¬ ∃ order after, (place "user-1" ["p1"] default).run
        (Ledger.answer pricelessOutcomes default) ⟨.empty, .zero, []⟩ =
          (some (.ok order), after) := by
  refine ⟨⟨by decide, rfl, by decide +kernel⟩, rfl, rfl, ?_⟩
  rintro ⟨order, after, hrun⟩
  rw [run_priceless] at hrun
  cases (Prod.mk.inj hrun).1

/-- A ledger with one order, under the id that is drawn first. -/
def taken : Ledger :=
  ⟨⟨[Order.placed .nil .epoch "u-1" ["p-3"] 2], List.nodup_singleton _⟩, .zero, []⟩

/-- The inventory replies two parts; the first id is drawn once more, and then another one. -/
def redrawn : Outcomes :=
  ⟨.ok [⟨"p-1", "", 0.1⟩, ⟨"p-2", "", 0.2⟩], .ok "", .ok (), [.nil, wanted]⟩

theorem placed_once_redrawn :
    ∃ order after, (place "u-2" ["p-2", "p-1"] default).run (Ledger.answer redrawn default) taken =
        (some (.ok order), after) ∧
      (∃ parts, redrawn.parts = .ok parts ∧ Issued "u-2" ["p-2", "p-1"] parts order) ∧
      taken.Enters after order := by
  obtain ⟨result, after, hrun, hstored, hissued, -⟩ :=
    placed_once redrawn default default taken "u-2" ["p-2", "p-1"]
  have sold : Sold ["p-2", "p-1"] [⟨"p-1", "", 0.1⟩, ⟨"p-2", "", 0.2⟩] :=
    ⟨⟨by decide, rfl, by decide +kernel⟩, by decide +kernel⟩
  have numbers : ∀ parts, redrawn.parts = .ok parts → ¬ Priceless ["p-2", "p-1"] parts := by
    rintro parts ⟨⟩ priceless
    exact priceless.not_sold sold
  obtain ⟨order, rfl⟩ :=
    (hstored numbers).1.mpr ⟨⟨_, rfl, sold.toSellable⟩, wanted, by simp [redrawn], by decide⟩
  obtain ⟨parts, hreply, hparts, henters⟩ := hissued order rfl
  exact ⟨order, after, hrun, ⟨parts, hreply, hparts⟩, henters⟩

end Desk

end OrderDesk
