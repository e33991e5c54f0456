import OrderDesk.Proofs.Json.Rendered
import OrderDesk.Proofs.Order.Json

/-!
# What the bodies of answers show

What a client finds in the body of an answer, under the names of its members. A total that is finite
is written as a decimal that rounds to it; there are no others in a JSON text, so in their place
stands the word for nothing.

## Main definitions

* `ShowsTotal`: how a body shows a total
* `ShowsPlaced`, `ShowsOrder`: how it shows a new order, and all of an order

## Main results

* `showsPlaced_render`, `showsOrder_render`: the bodies of answers show what they are made of
-/

namespace OrderDesk.Http

open Json

/-- **A body shows a total**: by a decimal that rounds to it, and as itself if the reader of numbers
maps its digits back to it. Nothing stands for a total that is not finite. -/
structure ShowsTotal (body : String) (total : Float) : Prop where
  rounds : total.isFinite = true →
    ∃ text q, Member body "total_price" text ∧ Denotes text q ∧ Decimal.RoundsTo q total
  readsBack : ReadsBack total → Shows body "total_price" readDouble total
  infinite : total.isFinite = false → Member body "total_price" "null".toList

/-- **A body shows the id and the total of an order.** -/
structure ShowsPlaced (body : String) (o : Order) : Prop where
  id : Shows body "order_uuid" readUuid o.id
  total : ShowsTotal body o.total

/-- **A body shows an order**: all of it, an absent transaction or method as absent, and its
instants as texts that are read back in the years that have four digits. -/
structure ShowsOrder (body : String) (o : Order) : Prop extends ShowsPlaced body o where
  user : Shows body "user_uuid" readString o.user
  parts : Shows body "part_uuids" (readList readString) o.parts
  transaction : Shows body "transaction_uuid" (readOption readString) o.transaction
  method : Shows body "payment_method" (readOption Method.readJson) o.method
  status : Shows body "status" Status.readJson o.status
  createdAt : Shows body "created_at" readString o.createdAt.toText
  updatedAt : Shows body "updated_at" readString o.updatedAt.toText
  created : o.createdAt.Ordinary → Shows body "created_at" readInstant o.createdAt
  updated : o.updatedAt.Ordinary → Shows body "updated_at" readInstant o.updatedAt

theorem showsTotal_render {members : List (String × Value)} {total : Float}
    (distinct : (members.map Prod.fst).Nodup) (mem : ("total_price", .ofFloat total) ∈ members) :
    ShowsTotal (Value.object members).render total where
  rounds finite := by
    obtain ⟨q, denotes, rounds⟩ := exists_denotes_ofFloat finite
    exact ⟨_, q, member_render distinct mem, denotes, rounds⟩
  readsBack back := shows_render distinct mem (takes_double back)
  infinite infinite := by
    have member := member_render distinct mem
    rwa [renderChars_ofFloat_infinite infinite] at member

/-- **The answer to a payment** shows its transaction. -/
theorem shows_payReply (transaction : String) :
    Shows (PayReply.toJson ⟨transaction⟩).render "transaction_uuid" readString transaction :=
  shows_render (List.nodup_singleton _) (List.mem_singleton_self _) (takes_text_toJson transaction)

/-- **The answer to a new order** shows its id and its total. -/
theorem showsPlaced_render (o : Order) :
    ShowsPlaced (PlaceReply.toJson ⟨o.id, o.total⟩).render o where
  id := shows_render (by simp) (List.mem_cons_self ..) (takes_uuid_toJson o.id)
  total := showsTotal_render (by simp) (by simp)

/-- **The view of an order** shows all of it. -/
theorem showsOrder_render (o : Order) : ShowsOrder (OrderView.ofOrder o).toJson.render o := by
  have distinct : ((OrderView.ofOrder o).members.map Prod.fst).Nodup := OrderView.nodup_names
  have shows {α : Type} {name : String} {v : Value} {a : α}
      {read : Cursor → Except Error (α × Cursor)} (mem : (name, v) ∈ (OrderView.ofOrder o).members)
      (takes : Takes read v.renderChars a) :
      Shows (OrderView.ofOrder o).toJson.render name read a := shows_render distinct mem takes
  refine ⟨⟨?_, ?_⟩, ?_, ?_, ?_, ?_, ?_, ?_, ?_, ?_, ?_⟩
  · exact shows (by simp [OrderView.members, OrderView.ofOrder]) (takes_uuid_toJson o.id)
  · exact showsTotal_render distinct (by simp [OrderView.ofOrder])
  · exact shows (by simp [OrderView.members, OrderView.ofOrder]) (takes_text_toJson o.user)
  · exact shows (by simp [OrderView.members, OrderView.ofOrder]) (takes_strings o.parts)
  · exact shows (by simp [OrderView.members, OrderView.ofOrder]) (takes_optional_text o.transaction)
  · exact shows (by simp [OrderView.members, OrderView.ofOrder]) (takes_optional_method o.method)
  · exact shows (by simp [OrderView.members, OrderView.ofOrder, Status.toJson])
      (takes_status_toJson o.status)
  · exact shows (by simp [OrderView.members, OrderView.ofOrder, Instant.toJson])
      (takes_text_toJson o.createdAt.toText)
  · exact shows (by simp [OrderView.members, OrderView.ofOrder, Instant.toJson])
      (takes_text_toJson o.updatedAt.toText)
  · exact fun ordinary => shows (by simp [OrderView.members, OrderView.ofOrder])
      (takes_instant_toJson ordinary)
  · exact fun ordinary => shows (by simp [OrderView.members, OrderView.ofOrder])
      (takes_instant_toJson ordinary)

end OrderDesk.Http
