import OrderDesk.Proofs.Desk.Request
import OrderDesk.Proofs.Order.Life
import OrderDesk.Proofs.Traffic.Law

/-!
# The law of the desk

What each request may ask after the exchanges it had, whatever it was answered. A request begins
with a look at its order, an order is charged for only while the copy waits for its payment, what is
written comes from the copy by one legal step, and a payment is announced only after its write
landed.

## Main definitions

* `loaded`, `charged`, `written`, `refused`, `published`, `created`: the exchanges that matter
* `Writes`: what a request writes over the copy it has
* `Asks`: what a request may ask next
* `law`: the law of a visit

## Main results

* `Writes.succeeds`: what is written is a next version of the copy
* `keeps_law`: the program of every visit keeps the law
-/

namespace OrderDesk.Desk

/-! ## Exchanges -/

/-- The parts with these ids were listed. -/
def listed (ids : List String) (parts : List Part) : Exchange Call Call.Answer :=
  ⟨.listParts ⟨ids⟩, (Except.ok parts : Except ClientError (List Part))⟩

/-- An order was stored, as `stored`. -/
def created (order stored : Order) : Exchange Call Call.Answer :=
  ⟨.create order, (Except.ok stored : Except StoreError Order)⟩

/-- A copy of an order was loaded. -/
def loaded (id : Uuid) (copy : Order) : Exchange Call Call.Answer :=
  ⟨.load id, (Except.ok copy : Except StoreError Order)⟩

/-- An order was charged for. -/
def charged (id : Uuid) (user : String) (method : Method) (transaction : String) :
    Exchange Call Call.Answer :=
  ⟨.charge id user method, (Except.ok transaction : Except ClientError String)⟩

/-- A write landed. -/
def written (order : Order) (expected : Status) : Exchange Call Call.Answer :=
  ⟨.update order expected, (Except.ok () : Except StoreError Unit)⟩

/-- A write did not land. -/
def refused (order : Order) (expected : Status) (reason : StoreError) : Exchange Call Call.Answer :=
  ⟨.update order expected, (Except.error reason : Except StoreError Unit)⟩

/-- An order was looked for and not found, or not read. -/
def missed (id : Uuid) (reason : StoreError) : Exchange Call Call.Answer :=
  ⟨.load id, (Except.error reason : Except StoreError Order)⟩

/-- Something was counted. -/
def counted (tally : Tally) : Exchange Call Call.Answer := ⟨.count tally, ()⟩

/-- A payment was announced. -/
def published (event : PaidEvent) : Exchange Call Call.Answer :=
  ⟨.publish event, (Except.ok () : Except PublishError Unit)⟩

section Questions

variable (id : Uuid) (user transaction : String) (method : Method) (o o' : Order)
  (ids : List String) (parts : List Part) (expected : Status) (tally : Tally) (event : PaidEvent)

@[simp] theorem question_listed : (listed ids parts).question = .listParts ⟨ids⟩ := rfl

@[simp] theorem question_created : (created o o').question = .create o := rfl

@[simp] theorem question_loaded : (loaded id o).question = .load id := rfl

@[simp] theorem question_charged :
    (charged id user method transaction).question = .charge id user method := rfl

@[simp] theorem question_written : (written o expected).question = .update o expected := rfl

@[simp] theorem question_refused (e : StoreError) :
    (refused o expected e).question = .update o expected := rfl

@[simp] theorem question_counted : (counted tally).question = .count tally := rfl

@[simp] theorem question_published : (published event).question = .publish event := rfl

end Questions

theorem ne_of_question {x y : Exchange Call Call.Answer} (h : x.question ≠ y.question) :
    x ≠ y :=
  fun hxy => h (congrArg Exchange.question hxy)

theorem loaded_inj {id id' : Uuid} {v v' : Order} (h : loaded id v = loaded id' v') :
    id = id' ∧ v = v' := by
  obtain ⟨hq, ha⟩ := Exchange.mk.inj h
  cases hq
  exact ⟨rfl, Except.ok.inj (eq_of_heq ha)⟩

theorem written_inj {w w' : Order} {expected expected' : Status}
    (h : written w expected = written w' expected') : w = w' ∧ expected = expected' :=
  Call.update.inj (congrArg Exchange.question h)

/-- The exchanges of a request so far. -/
abbrev Past := List (Exchange Call Call.Answer)

/-! ## The law -/

/-- The order that a request is about, if there is one already. -/
def Request.order? : Request → Option Uuid
  | .place _ _ => none
  | .get id => some id
  | .pay id _ => some id
  | .cancel id => some id
  | .assemble id => some id

/-- **What a request writes** over its copy `v` after some exchanges. -/
inductive Writes (draw : Draw) : Request → Past → Order → Order → Prop
  | pay {id : Uuid} {method : Method} {transaction : String} {v w : Order}
    (paid : v.markPaid transaction method draw.now = .ok w) :
    Writes draw (.pay id method) [loaded id v, charged v.id v.user method transaction] v w
  | cancel {id : Uuid} {v w : Order} (cancelled : v.cancel draw.now = .ok w) :
    Writes draw (.cancel id) [loaded id v] v w
  | assemble {id : Uuid} {v w : Order} (assembled : v.markAssembled draw.now = .ok w) :
    Writes draw (.assemble id) [loaded id v] v w
  | reassert {id : Uuid} {v : Order} (assembled : v.status = .assembled) :
    Writes draw (.assemble id) [loaded id v] v v

/-- **What a request may ask** after some exchanges. -/
inductive Asks (draw : Draw) : Request → Past → Call → Prop
  | listParts {user : String} {ids : List String} (some : ids.isEmpty = false) :
    Asks draw (.place user ids) [] (.listParts ⟨ids⟩)
  | create {user : String} {ids : List String} {parts : List Part} {total : Float}
    (priced : price ids.length parts = .ok total) :
    Asks draw (.place user ids) [listed ids parts]
      (.create (Order.placed draw.id draw.now user ids total))
  | countCreated {user : String} {ids : List String} {parts : List Part} {order stored : Order} :
    Asks draw (.place user ids) [listed ids parts, created order stored] (.count .created)
  | countEarned {user : String} {ids : List String} {parts : List Part} {order stored : Order} :
    Asks draw (.place user ids) [listed ids parts, created order stored, counted .created]
      (.count (.earned stored.total))
  | load {request : Request} {id : Uuid} (about : request.order? = some id) :
    Asks draw request [] (.load id)
  | charge {id : Uuid} {method : Method} {v : Order} (pending : v.status = .pendingPayment) :
    Asks draw (.pay id method) [loaded id v] (.charge v.id v.user method)
  | write {request : Request} {past : Past} {v w : Order} {expected : Status}
    (writes : Writes draw request past v w) (same : v.status = expected) :
    Asks draw request past (.update w expected)
  | countMoved {request : Request} {past : Past} {v w : Order}
    (writes : Writes draw request past v w) (moved : v.status.canBecome w.status = true) :
    Asks draw request (past ++ [written w v.status]) (.count (.moved w.status))
  | publish {id : Uuid} {method : Method} {transaction : String} {v w : Order}
    (paid : v.markPaid transaction method draw.now = .ok w) :
    Asks draw (.pay id method)
      [loaded id v, charged v.id v.user method transaction, written w v.status,
        counted (.moved w.status)]
      (.publish ⟨draw.id, w.id, w.user, method, transaction⟩)

/-- **The law of a visit.** It asks what its request may ask, and a payment that succeeds has been
announced. -/
def law (v : Visit) : Law Call Call.Answer Reply where
  asks := Asks v.draw v.request
  ends past r := ∀ transaction, r = .transaction (.ok transaction) →
    ∃ id method o w, v.request = .pay id method ∧ o.markPaid transaction method v.draw.now = .ok w ∧
      past = [loaded id o, charged o.id o.user method transaction, written w o.status,
        counted (.moved w.status),
        published ⟨v.draw.id, w.id, w.user, method, transaction⟩]

/-- What is written is a next version of the copy. -/
theorem Writes.succeeds {draw : Draw} {request : Request} {past : Past} {v w : Order}
    (h : Writes draw request past v w) : v.Succeeds w := by
  cases h with
  | pay paid => exact Order.succeeds_of_markPaid paid
  | cancel cancelled => exact Order.succeeds_of_cancel cancelled
  | assemble assembled => exact Order.succeeds_of_markAssembled assembled
  | reassert => exact .refl v

/-- What is written comes from a copy that was loaded. -/
theorem Writes.loaded_mem {draw : Draw} {request : Request} {past : Past} {v w : Order}
    (h : Writes draw request past v w) : ∃ id, loaded id v ∈ past := by
  cases h with
  | pay => exact ⟨_, List.mem_cons_self ..⟩
  | cancel => exact ⟨_, List.mem_cons_self ..⟩
  | assemble => exact ⟨_, List.mem_cons_self ..⟩
  | reassert => exact ⟨_, List.mem_cons_self ..⟩

/-! ## Every program keeps the law -/

/-- Whatever is no successful payment may be told at any time. -/
theorem keeps_done {v : Visit} {past : Past} {r : Reply}
    (h : ∀ transaction, r ≠ .transaction (.ok transaction)) :
    (Program.done r).Keeps (law v) past :=
  fun transaction hr => absurd hr (h transaction)

section Keeps

variable (draw : Draw) (outcomes : Outcomes)

theorem keeps_place (user : String) (ids : List String) :
    ((Request.place user ids).program draw).Keeps (law ⟨.place user ids, draw, outcomes⟩) [] := by
  simp only [Request.program, Desk.place]
  cases hids : ids.isEmpty with
  | true => exact keeps_done (by simp)
  | false =>
    refine ⟨.listParts hids, ?_⟩
    rintro (e | parts)
    · exact keeps_done (by simp)
    · simp only
      cases hprice : price ids.length parts with
      | error e => exact keeps_done (by simp)
      | ok total =>
        refine ⟨.create hprice, ?_⟩
        rintro (e | stored)
        · exact keeps_done (by simp)
        · exact ⟨.countCreated, fun _ => ⟨.countEarned, fun _ => keeps_done (by simp)⟩⟩

theorem keeps_get (id : Uuid) :
    ((Request.get id).program draw).Keeps (law ⟨.get id, draw, outcomes⟩) [] := by
  refine ⟨.load rfl, ?_⟩
  rintro (e | v)
  · exact keeps_done (by simp)
  · exact keeps_done (by simp)

theorem keeps_cancel (id : Uuid) :
    ((Request.cancel id).program draw).Keeps (law ⟨.cancel id, draw, outcomes⟩) [] := by
  refine ⟨.load rfl, ?_⟩
  rintro (e | v)
  · exact keeps_done (by simp)
  · simp only
    cases hc : v.cancel draw.now with
    | error e => exact keeps_done (by simp)
    | ok w =>
      refine ⟨.write (.cancel hc) rfl, ?_⟩
      rintro (e | _)
      · exact keeps_done (by simp)
      · obtain ⟨hs, rfl⟩ := Order.cancel_eq_ok_iff.mp hc
        exact ⟨.countMoved (.cancel hc) (by rw [hs]; rfl), fun _ => keeps_done (by simp)⟩

theorem keeps_assemble (id : Uuid) :
    ((Request.assemble id).program draw).Keeps (law ⟨.assemble id, draw, outcomes⟩) [] := by
  refine ⟨.load rfl, ?_⟩
  rintro (e | v)
  · exact keeps_done (by simp)
  · simp only
    by_cases ha : v.status = .assembled
    · rw [if_pos ha]
      refine ⟨.write (.reassert ha) ha, ?_⟩
      rintro (e | _)
      · exact keeps_done (by simp)
      · exact keeps_done (by simp)
    · rw [if_neg ha]
      cases hm : v.markAssembled draw.now with
      | error e => exact keeps_done (by simp)
      | ok w =>
        refine ⟨.write (.assemble hm) rfl, ?_⟩
        rintro (e | _)
        · simp only
          split
          · exact keeps_done (by simp)
          · exact keeps_done (by simp)
          · rename_i h
            cases h
        · obtain ⟨hs, rfl⟩ := Order.markAssembled_eq_ok_iff.mp hm
          exact ⟨.countMoved (.assemble hm) (by rw [hs]; rfl), fun _ => keeps_done (by simp)⟩

theorem keeps_pay (id : Uuid) (method : Method) :
    ((Request.pay id method).program draw).Keeps (law ⟨.pay id method, draw, outcomes⟩) [] := by
  refine ⟨.load rfl, ?_⟩
  rintro (e | v)
  · exact keeps_done (by simp)
  · simp only
    cases he : v.ensureCanBecome .paid with
    | error e => exact keeps_done (by simp)
    | ok _ =>
      refine ⟨.charge (Status.canBecome_paid_iff.mp (Order.ensureCanBecome_eq_ok_iff.mp he)), ?_⟩
      rintro (e | transaction)
      · exact keeps_done (by simp)
      · simp only [settle]
        cases hm : v.markPaid transaction method draw.now with
        | error e => exact keeps_done (by simp)
        | ok w =>
          refine ⟨.write (.pay hm) rfl, ?_⟩
          rintro (e | _)
          · exact keeps_done (by simp)
          · obtain ⟨hs, rfl⟩ := Order.markPaid_eq_ok_iff.mp hm
            refine ⟨.countMoved (.pay hm) (by rw [hs]; rfl), fun _ => ⟨.publish hm, ?_⟩⟩
            rintro (e | _)
            · exact keeps_done (by simp)
            · intro transaction' h
              obtain rfl : transaction = transaction' := by simpa using h
              exact ⟨id, method, v, _, rfl, hm, rfl⟩

end Keeps

/-- **The program of every visit keeps the law**, whatever it is answered. -/
theorem keeps_law (v : Visit) : v.program.Keeps (law v) [] := by
  obtain ⟨request, draw, outcomes⟩ := v
  cases request with
  | place user ids => exact keeps_place draw outcomes user ids
  | get id => exact keeps_get draw outcomes id
  | pay id method => exact keeps_pay draw outcomes id method
  | cancel id => exact keeps_cancel draw outcomes id
  | assemble id => exact keeps_assemble draw outcomes id

end OrderDesk.Desk
