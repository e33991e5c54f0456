import OrderDesk.Proofs.Desk.Law
import OrderDesk.Proofs.Traffic.Reaches

/-!
# How an assembly ends

The program that is told of an assembled order has seven ways to its end, each with its own
exchanges and its own result.

## Main definitions

* `Assembling`: the exchanges of an assembly, and what they end with

## Main results

* `assembling_of_reaches`: there are no other ways
* `asks_of_reaches`: on the way it asks what a request to assemble may ask
-/

namespace OrderDesk.Desk

/-- **All the ways in which an assembly ends.** -/
inductive Assembling (id : Uuid) (now : Instant) : Past → Except DeskError Unit → Prop
  /-- There was no order to be read. -/
  | missed {e : StoreError} : Assembling id now [missed id e] (.error (.ofStore e))
  /-- The order was assembled before, and that was stored once more. -/
  | again {o : Order} (assembled : o.status = .assembled) :
    Assembling id now [loaded id o, written o .assembled] (.ok ())
  | notAgain {o : Order} {e : StoreError} (assembled : o.status = .assembled) :
    Assembling id now [loaded id o, refused o .assembled e] (.error (.ofStore e))
  /-- The order was not paid for. -/
  | unpaid {o : Order} (status : o.status = .pendingPayment ∨ o.status = .cancelled) :
    Assembling id now [loaded id o] (.error (.ofOrder o))
  | applied {o w : Order} (assembled : o.markAssembled now = .ok w) :
    Assembling id now [loaded id o, written w o.status, counted (.moved .assembled)] (.ok ())
  /-- Another delivery of the same news was faster. -/
  | beaten {o w : Order} {id' : Uuid} {expected : Status}
    (assembled : o.markAssembled now = .ok w) :
    Assembling id now [loaded id o, refused w o.status (.conflict id' expected .assembled)] (.ok ())
  | overtaken {o w : Order} {e : StoreError} (assembled : o.markAssembled now = .ok w)
    (other : ∀ id' expected, e ≠ .conflict id' expected .assembled) :
    Assembling id now [loaded id o, refused w o.status e] (.error (.ofStore e))

/-- The law that binds only how an assembly ends. -/
def assemblingLaw (id : Uuid) (now : Instant) : Law Call Call.Answer (Except DeskError Unit) where
  asks _ _ := True
  ends := Assembling id now

theorem keeps_assemblingLaw (id : Uuid) (now : Instant) :
    (assemble id now).Keeps (assemblingLaw id now) [] := by
  refine ⟨trivial, ?_⟩
  rintro (e | o)
  · exact .missed
  · simp only
    by_cases ha : o.status = .assembled
    · rw [if_pos ha]
      refine ⟨trivial, ?_⟩
      rintro (e | _)
      · exact .notAgain ha
      · exact .again ha
    · rw [if_neg ha]
      cases hm : o.markAssembled now with
      | error e =>
        refine .unpaid ?_
        cases hs : o.status with
        | pendingPayment => exact .inl rfl
        | cancelled => exact .inr rfl
        | assembled => exact absurd hs ha
        | paid =>
          rw [Order.markAssembled_eq_ok_iff.mpr ⟨hs, rfl⟩] at hm
          cases hm
      | ok w =>
        refine ⟨trivial, ?_⟩
        rintro (e | _)
        · simp only
          split
          · rename_i he
            cases he
            exact .beaten hm
          · rename_i other he
            cases he
            exact .overtaken hm other
          · rename_i h
            cases h
        · exact ⟨trivial, fun _ => .applied hm⟩

/-- **There are no other ways.** -/
theorem assembling_of_reaches {id : Uuid} {now : Instant} {calls : Past}
    {result : Except DeskError Unit} (h : (assemble id now).Reaches calls (.done result)) :
    Assembling id now calls result :=
  (keeps_assemblingLaw id now).of_reaches h

/-- **On the way** it asks what a request to assemble may ask. -/
theorem asks_of_reaches {id : Uuid} {now : Instant} {calls : Past} {call : Call}
    {next : call.Answer → Program Call Call.Answer (Except DeskError Unit)}
    (h : (assemble id now).Reaches calls (.ask call next)) :
    Asks ⟨.nil, now⟩ (.assemble id) calls call := by
  have hkeeps := keeps_assemble ⟨.nil, now⟩ ⟨.ok [], .ok "", .ok (), []⟩ id
  have hreaches : ((assemble id now).map Reply.done).Reaches calls
      ((Program.ask call next).map .done) := h.map _
  exact (hkeeps.of_reaches hreaches).1

end OrderDesk.Desk
