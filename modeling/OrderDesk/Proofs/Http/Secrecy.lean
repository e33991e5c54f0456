import OrderDesk.Http.Service
import OrderDesk.Proofs.Traffic.InStep

/-!
# What a client cannot learn from a failure

How a collaborator fails is told to those who run the desk, and to nobody else. The desk itself
writes the wording of a failure into its refusals; over HTTP all of these are answered alike. So
whatever the collaborators and the store do, their failures can be worded in any other way, and
every request is answered as before.

## Main definitions

* `AgreeUpTo`: results that agree, or fail in ways that a relation does not tell apart
* `Call.AgreeUpToFailure`: answers that differ in the wording of a failure at the most
* `Wording`, `Wording.reword`: how failures are worded, and answers with their failures so worded

## Main results

* `inStep_place`, `inStep_get`, `inStep_pay`, `inStep_cancel`: the desk in step with itself after
  such answers
* `inStep_serve`: every request is answered alike
* `failures_untold`: the wording of failures never reaches a client
-/

namespace OrderDesk

/-- **Two results agree**, or both are failures that a relation does not tell apart. -/
inductive AgreeUpTo {ε α : Type} (failures : ε → ε → Prop) : Except ε α → Except ε α → Prop
  | ok (a : α) : AgreeUpTo failures (.ok a) (.ok a)
  | error {e e' : ε} (failed : failures e e') : AgreeUpTo failures (.error e) (.error e')

/-- **Failures of a store** are told apart, except for what storage says. -/
inductive StoreError.AlikeUpToReason : StoreError → StoreError → Prop
  | storage (reason reason' : String) : AlikeUpToReason (.storage reason) (.storage reason')
  | same (e : StoreError) : AlikeUpToReason e e

/-- **Refusals of the desk** are told apart, except for the reason of an internal failure. -/
inductive DeskError.AlikeUpToReason : DeskError → DeskError → Prop
  | internal (reason reason' : String) : AlikeUpToReason (.internal reason) (.internal reason')
  | same (e : DeskError) : AlikeUpToReason e e

/-- **Answers that differ in the wording of a failure** at the most. -/
def Call.AgreeUpToFailure : (call : Call) → call.Answer → call.Answer → Prop
  | .listParts _ => AgreeUpTo fun _ _ => True
  | .charge _ _ _ => AgreeUpTo fun _ _ => True
  | .publish _ => AgreeUpTo fun _ _ => True
  | .create _ => AgreeUpTo StoreError.AlikeUpToReason
  | .load _ => AgreeUpTo StoreError.AlikeUpToReason
  | .update _ _ => AgreeUpTo StoreError.AlikeUpToReason
  | .count _ => Eq

/-- What a refusal of the store means for a caller is told apart no better. -/
theorem DeskError.alike_ofStore {e e' : StoreError} (h : e.AlikeUpToReason e') :
    (DeskError.ofStore e).AlikeUpToReason (DeskError.ofStore e') := by
  cases h with
  | storage reason reason' => exact .internal reason reason'
  | same e => exact .same _

/-! ## The desk in step with itself -/

namespace Desk

/-- **Actions in step**: after answers that differ in the wording of a failure, they end with
results that differ in the reason of an internal failure at the most. -/
abbrev InStep {α : Type} (p p' : Action α) : Prop :=
  p.InStep Call.AgreeUpToFailure (AgreeUpTo DeskError.AlikeUpToReason) p'

variable {α : Type} {e e' : StoreError}

theorem inStep_done (a : α) : InStep (.done (.ok a)) (.done (.ok a)) :=
  .done (.ok a)

theorem inStep_refuse (e : DeskError) : InStep (refuse (α := α) e) (refuse e) :=
  .done (.error (.same e))

theorem inStep_internal (reason reason' : String) :
    InStep (refuse (α := α) (.internal reason)) (refuse (.internal reason')) :=
  .done (.error (.internal reason reason'))

theorem inStep_ofStore (h : e.AlikeUpToReason e') :
    InStep (refuse (α := α) (.ofStore e)) (refuse (.ofStore e')) :=
  .done (.error (DeskError.alike_ofStore h))

/-- **A new order**: a failed inventory is an internal failure, and so is a failed store. -/
theorem inStep_place (user : String) (ids : List String) (draw : Draw) :
    InStep (place user ids draw) (place user ids draw) := by
  unfold place
  split
  · exact inStep_refuse _
  · refine .ask fun parts parts' hparts => ?_
    cases hparts with
    | error => exact inStep_internal _ _
    | ok parts =>
      dsimp only
      split
      · exact inStep_refuse _
      · refine .ask fun stored stored' hstored => ?_
        cases hstored with
        | error he => exact inStep_ofStore he
        | ok stored => exact .ask fun _ _ _ => .ask fun _ _ _ => inStep_done _

theorem inStep_get (id : Uuid) : InStep (get id) (get id) := by
  refine .ask fun order order' horder => ?_
  cases horder with
  | error he => exact inStep_ofStore he
  | ok order => exact inStep_done _

/-- **A payment**: no cause of a failed charge is kept, and a failed announcement is an internal
failure. -/
theorem inStep_pay (id : Uuid) (method : Method) (draw : Draw) :
    InStep (pay id method draw) (pay id method draw) := by
  refine .ask fun order order' horder => ?_
  cases horder with
  | error he => exact inStep_ofStore he
  | ok order =>
    dsimp only
    split
    · exact inStep_refuse _
    · refine .ask fun charge charge' hcharge => ?_
      cases hcharge with
      | error => exact inStep_refuse _
      | ok transaction =>
        unfold settle
        dsimp only
        split
        · exact inStep_refuse _
        · refine .ask fun landed landed' hlanded => ?_
          cases hlanded with
          | error he => exact inStep_ofStore he
          | ok _ =>
            refine .ask fun _ _ _ => .ask fun told told' htold => ?_
            cases htold with
            | error => exact inStep_internal _ _
            | ok _ => exact inStep_done _

theorem inStep_cancel (id : Uuid) (now : Instant) : InStep (cancel id now) (cancel id now) := by
  refine .ask fun order order' horder => ?_
  cases horder with
  | error he => exact inStep_ofStore he
  | ok order =>
    dsimp only
    split
    · exact inStep_refuse _
    · refine .ask fun landed landed' hlanded => ?_
      cases hlanded with
      | error he => exact inStep_ofStore he
      | ok _ => exact .ask fun _ _ _ => inStep_done _

end Desk

/-! ## Answers over HTTP -/

namespace Http

/-- **Handlers in step** end with the same answer to the client. -/
abbrev InStep (p p' : Handler Response) : Prop :=
  p.InStep Call.AgreeUpToFailure Eq p'

theorem inStep_done (response : Response) : InStep (.done response) (.done response) :=
  .done rfl

/-- **Results that differ in the reason of an internal failure are answered alike.** -/
theorem respond_answer_eq {α : Type} (write : α → Reply) {result result' : Except DeskError α}
    (h : AgreeUpTo DeskError.AlikeUpToReason result result') :
    (answer write result).respond = (answer write result').respond := by
  cases h with
  | ok a => rfl
  | error failed =>
    cases failed with
    | internal reason reason' => rfl
    | same e => rfl

/-- What the desk does in step is answered alike. -/
theorem inStep_answer {α : Type} (write : α → Reply) {p p' : Action α} (h : Desk.InStep p p') :
    InStep ((p.map (answer write)).map Reply.respond)
      ((p'.map (answer write)).map Reply.respond) := by
  have hreplies : (p.map (answer write)).InStep Call.AgreeUpToFailure
      (fun reply reply' => reply.respond = reply'.respond) (p'.map (answer write)) :=
    h.map fun _ _ => respond_answer_eq write
  exact hreplies.map fun _ _ h => h

variable (r : Request) (draw : Desk.Draw)

theorem inStep_place :
    InStep ((place r draw).map Reply.respond) ((place r draw).map Reply.respond) := by
  unfold place
  split
  · exact inStep_done _
  · split
    · exact inStep_done _
    · exact inStep_answer _ (Desk.inStep_place _ _ draw)

/-- A handler of a path's id is in step with itself if it is so for every id that is a text. -/
theorem inStep_withId (segment : List Char) {handler : String → Handler Reply}
    (h : ∀ text, InStep ((handler text).map Reply.respond) ((handler text).map Reply.respond)) :
    InStep (withId segment handler) (withId segment handler) := by
  unfold withId
  split
  · exact inStep_done _
  · exact h _

theorem inStep_get (text : String) :
    InStep ((get text).map Reply.respond) ((get text).map Reply.respond) := by
  unfold get
  split
  · exact inStep_done _
  · exact inStep_answer _ (Desk.inStep_get _)

theorem inStep_pay (text : String) :
    InStep ((pay text r draw).map Reply.respond) ((pay text r draw).map Reply.respond) := by
  unfold pay
  split
  · exact inStep_done _
  · split
    · exact inStep_done _
    · split
      · exact inStep_done _
      · exact inStep_answer _ (Desk.inStep_pay _ _ draw)

theorem inStep_cancel (text : String) :
    InStep ((cancel text draw).map Reply.respond) ((cancel text draw).map Reply.respond) := by
  unfold cancel
  split
  · exact inStep_done _
  · exact inStep_answer _ (Desk.inStep_cancel _ _)

variable (shown : Option Counters)

theorem inStep_handle (route : Route) :
    InStep (handle shown draw r route) (handle shown draw r route) := by
  cases route with
  | health => exact inStep_done _
  | counters => exact inStep_done _
  | orders => exact inStep_place r draw
  | order segment => exact inStep_withId segment inStep_get
  | pay segment => exact inStep_withId segment (inStep_pay r draw)
  | cancel segment => exact inStep_withId segment (inStep_cancel draw)

/-- **Every request is answered alike** after answers that differ in the wording of a failure. -/
theorem inStep_serve : InStep (serve shown draw r) (serve shown draw r) := by
  unfold serve
  dsimp only
  split
  · exact inStep_done _
  · split
    · exact inStep_done _
    · split
      · exact (inStep_handle r draw shown _).map fun _ _ h => by rw [h]
      · exact inStep_done _

end Http

/-! ## Failures worded otherwise -/

/-- **How failures are worded**, by the question and by what there is after it: a failed call of the
inventory or of the payment service, a failed announcement, and a failure of storage. -/
structure Wording (σ : Type) where
  client : Call → σ → ClientError
  publish : Call → σ → PublishError
  storage : Call → σ → String

/-- A failure of a store, with another reason if storage failed. -/
def StoreError.withReason (reason : String) : StoreError → StoreError
  | .storage _ => .storage reason
  | e => e

namespace Wording

variable {σ : Type}

/-- **An answer with its failure worded otherwise.** What succeeded is not touched, nor is an order
that was not found or not in the expected status. -/
def rewordAnswer (w : Wording σ) (s : σ) : (call : Call) → call.Answer → call.Answer
  | call@(.listParts _) => Except.mapError fun _ => w.client call s
  | call@(.charge _ _ _) => Except.mapError fun _ => w.client call s
  | call@(.publish _) => Except.mapError fun _ => w.publish call s
  | call@(.create _) => Except.mapError (.withReason (w.storage call s))
  | call@(.load _) => Except.mapError (.withReason (w.storage call s))
  | call@(.update _ _) => Except.mapError (.withReason (w.storage call s))
  | .count _ => id

/-- **Answers with their failures worded otherwise.** -/
def reword (w : Wording σ) (answer : (call : Call) → σ → Option call.Answer × σ) (call : Call)
    (s : σ) : Option call.Answer × σ :=
  ((answer call s).1.map (w.rewordAnswer (answer call s).2 call), (answer call s).2)

theorem agreeUpTo_mapError {ε α : Type} {failures : ε → ε → Prop} {f f' : ε → ε}
    (h : ∀ e, failures (f e) (f' e)) (result : Except ε α) :
    AgreeUpTo failures (result.mapError f) (result.mapError f') := by
  cases result with
  | error e => exact .error (h e)
  | ok a => exact .ok a

theorem alike_withReason (reason reason' : String) (e : StoreError) :
    (e.withReason reason).AlikeUpToReason (e.withReason reason') := by
  cases e with
  | storage _ => exact .storage reason reason'
  | notFound id => exact .same _
  | conflict id expected actual => exact .same _

/-- **However failures are worded**, the answers agree up to that. -/
theorem agreeUpTo_rewordAnswer (w w' : Wording σ) (s : σ) (call : Call) (a : call.Answer) :
    call.AgreeUpToFailure (w.rewordAnswer s call a) (w'.rewordAnswer s call a) := by
  cases call with
  | listParts filter => exact agreeUpTo_mapError (fun _ => trivial) a
  | charge order user method => exact agreeUpTo_mapError (fun _ => trivial) a
  | publish event => exact agreeUpTo_mapError (fun _ => trivial) a
  | create order => exact agreeUpTo_mapError (alike_withReason _ _) a
  | load id => exact agreeUpTo_mapError (alike_withReason _ _) a
  | update order expected => exact agreeUpTo_mapError (alike_withReason _ _) a
  | count tally => rfl

theorem reword_corresponds (w w' : Wording σ)
    (answer : (call : Call) → σ → Option call.Answer × σ) (call : Call) (s : σ) :
    Option.Rel call.AgreeUpToFailure (w.reword answer call s).1 (w'.reword answer call s).1 := by
  unfold reword
  cases (answer call s).1 with
  | none => exact .none
  | some a => exact .some (agreeUpTo_rewordAnswer w w' _ call a)

end Wording

namespace Http

/-- **The wording of failures never reaches a client.** Whatever answers the desk gets, from
whatever there is (a store, other visits, scripted collaborators), and however its failures are
worded: any request is answered with the same status, the same headers and the same body, or in
neither case; and it leaves the same behind. -/
theorem failures_untold {σ : Type} (answer : (call : Call) → σ → Option call.Answer × σ)
    (w w' : Wording σ) (shown : Option Counters) (draw : Desk.Draw) (r : Request) (s : σ) :
    (serve shown draw r).run (w.reword answer) s =
      (serve shown draw r).run (w'.reword answer) s := by
  have hcorresponds : ∀ call (s t : σ), s = t →
      Option.Rel call.AgreeUpToFailure (w.reword answer call s).1 (w'.reword answer call t).1 ∧
        (w.reword answer call s).2 = (w'.reword answer call t).2 := by
    rintro call s _ rfl
    exact ⟨w.reword_corresponds w' answer call s, rfl⟩
  obtain ⟨hresponse, hstate⟩ := (inStep_serve r draw shown).run hcorresponds (rfl : s = s)
  refine Prod.ext ?_ hstate
  generalize ((serve shown draw r).run (w.reword answer) s).1 = x at hresponse
  generalize ((serve shown draw r).run (w'.reword answer) s).1 = y at hresponse
  cases hresponse with
  | none => rfl
  | some h => rw [h]

end Http

end OrderDesk
