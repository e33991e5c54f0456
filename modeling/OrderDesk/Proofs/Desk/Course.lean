import OrderDesk.Proofs.Desk.Assembling

/-!
# The course of each operation

Whatever its collaborators answer, an operation of the desk asks them in one order: it takes the
next step of its course only after the last one went well, and it stops at the first that did not.
Nothing is counted, and nothing succeeds, unless something was stored.

## Main definitions

* `Follows`: exchanges are the first ones of a course
* `Landed`: a creation or a write landed

## Main results

* `pay_follows`, `cancel_follows`, `assemble_follows`, `place_follows`: the course of each operation
* `landed_of_counted`, `landed_of_paid`, `landed_or_beaten`: what takes a landed write
* `calls_disciplined`: all of it, for the operations that write
-/

namespace OrderDesk

namespace Program.Reaches

variable {Q : Type} {A : Q → Type} {R : Type} {p p' : Program Q A R} {xs ys : List (Exchange Q A)}

/-- What was reached by more exchanges was reached by way of the first of them. -/
theorem split (h : p.Reaches (xs ++ ys) p') : ∃ q, p.Reaches xs q ∧ q.Reaches ys p' := by
  induction xs generalizing p with
  | nil => exact ⟨p, .here p, h⟩
  | cons x xs ih =>
    cases h with
    | on rest =>
      obtain ⟨q, hfirst, hlast⟩ := ih rest
      exact ⟨q, .on hfirst, hlast⟩

/-- Before an exchange its question was asked. -/
theorem asked {x : Exchange Q A} (h : p.Reaches (xs ++ x :: ys) p') :
    ∃ next, p.Reaches xs (ask x.question next) := by
  obtain ⟨q, hfirst, hlast⟩ := h.split
  cases hlast with
  | on rest => exact ⟨_, hfirst⟩

end Program.Reaches

namespace Desk

/-- **Exchanges follow a course**: their questions are the first ones of the course, and each but
the last was answered as in the course. -/
def Follows (course past : Past) : Prop :=
  past.map (·.question) <+: course.map (·.question) ∧ past.dropLast <+: course

/-- **A creation or a write landed** among some exchanges. -/
def Landed (past : Past) : Prop :=
  (∃ order stored, created order stored ∈ past) ∨ ∃ w expected, written w expected ∈ past

theorem follows_nil (course : Past) : Follows course [] :=
  ⟨List.nil_prefix, List.nil_prefix⟩

/-- One question more of the course, whatever it is answered. -/
theorem follows_snoc (past : Past) {more : Past} {x y : Exchange Call Call.Answer}
    (h : x.question = y.question) : Follows (past ++ y :: more) (past ++ [x]) := by
  constructor
  · refine ⟨more.map (·.question), ?_⟩
    simp [h]
  · rw [List.dropLast_concat]
    exact List.prefix_append _ _

section Courses

variable {draw : Draw} {past : Past}

/-- At every point a request asks what it may ask. -/
theorem asks_of_program (request : Request) {x : Exchange Call Call.Answer} {more : Past}
    {p : Program Call Call.Answer Reply}
    (h : (request.program draw).Reaches (past ++ x :: more) p) :
    Asks draw request past x.question := by
  obtain ⟨next, hasked⟩ := h.asked
  exact ((keeps_law ⟨request, draw, ⟨.ok [], .ok "", .ok (), []⟩⟩).of_reaches hasked).1

/-- The last question of a request was one it may ask. -/
theorem eq_nil_or_asks (request : Request) {p : Program Call Call.Answer Reply}
    (h : (request.program draw).Reaches past p) :
    past = [] ∨ ∃ before question, ∃ a : Call.Answer question,
      past = before ++ [⟨question, a⟩] ∧ Asks draw request before question := by
  rcases List.eq_nil_or_concat past with rfl | ⟨before, ⟨question, a⟩, rfl⟩
  · exact .inl rfl
  · rw [List.concat_eq_append] at h ⊢
    exact .inr ⟨before, question, a, rfl, asks_of_program request h⟩

/-- **What is created** was priced before. -/
theorem Asks.create_inv {request : Request} {order : Order}
    (h : Asks draw request past (.create order)) :
    ∃ user ids parts total, request = .place user ids ∧ past = [listed ids parts] ∧
      price ids.length parts = .ok total ∧
      order = Order.placed draw.id draw.now user ids total := by
  cases h with
  | @create user ids parts total priced => exact ⟨user, ids, parts, total, rfl, rfl, priced, rfl⟩

/-! ## Courses -/

/-- **The course of a payment**: look, charge, write, count, announce. -/
theorem pay_follows {id : Uuid} {method : Method}
    {p : Program Call Call.Answer (Except DeskError String)}
    (h : (pay id method draw).Reaches past p) :
    ∃ o transaction, Follows [loaded id o, charged o.id o.user method transaction,
        written (Store.revised o .paid (some transaction) (some method) draw.now) o.status,
        counted (.moved .paid), published ⟨draw.id, o.id, o.user, method, transaction⟩] past ∧
      (1 < past.length → o.status.canBecome .paid = true) := by
  have hlast := eq_nil_or_asks (.pay id method) (h.map Reply.transaction)
  rcases hlast with rfl | ⟨past, question, a, rfl, hasks⟩
  · exact ⟨default, "", follows_nil _, by simp⟩
  cases hasks with
  | load about =>
    obtain rfl : id = _ := Option.some.inj about
    exact ⟨default, "", follows_snoc [] rfl, by simp⟩
  | @charge _ _ v pending =>
    exact ⟨v, "", follows_snoc [loaded id v] rfl,
      fun _ => Status.canBecome_paid_iff.mpr pending⟩
  | @write _ _ v w expected writes same =>
    subst same
    cases writes with
    | @pay _ _ transaction _ _ paid =>
      obtain ⟨pending, rfl⟩ := Order.markPaid_eq_ok_iff.mp paid
      exact ⟨v, transaction,
        follows_snoc [loaded id v, charged v.id v.user method transaction] rfl,
        fun _ => Status.canBecome_paid_iff.mpr pending⟩
  | @countMoved _ _ v w writes moved =>
    cases writes with
    | @pay _ _ transaction _ _ paid =>
      obtain ⟨pending, rfl⟩ := Order.markPaid_eq_ok_iff.mp paid
      exact ⟨v, transaction, follows_snoc [loaded id v,
          charged v.id v.user method transaction, written _ v.status] rfl,
        fun _ => Status.canBecome_paid_iff.mpr pending⟩
  | @publish _ _ transaction v w paid =>
    obtain ⟨pending, rfl⟩ := Order.markPaid_eq_ok_iff.mp paid
    exact ⟨v, transaction, follows_snoc [loaded id v,
        charged v.id v.user method transaction, written _ v.status, counted (.moved .paid)] rfl,
      fun _ => Status.canBecome_paid_iff.mpr pending⟩

/-- **The course of a cancellation**: look, write, count. -/
theorem cancel_follows {id : Uuid} {p : Program Call Call.Answer (Except DeskError Unit)}
    (h : (cancel id draw.now).Reaches past p) :
    ∃ o, Follows [loaded id o,
      written (Store.revised o .cancelled o.transaction o.method draw.now) o.status,
      counted (.moved .cancelled)] past := by
  have hlast := eq_nil_or_asks (.cancel id) (h.map Reply.done)
  rcases hlast with rfl | ⟨past, question, a, rfl, hasks⟩
  · exact ⟨default, follows_nil _⟩
  cases hasks with
  | load about =>
    obtain rfl : id = _ := Option.some.inj about
    exact ⟨default, follows_snoc [] rfl⟩
  | @write _ _ v w expected writes same =>
    subst same
    cases writes with
    | cancel cancelled =>
      obtain ⟨-, rfl⟩ := Order.cancel_eq_ok_iff.mp cancelled
      exact ⟨v, follows_snoc [loaded id v] rfl⟩
  | @countMoved _ _ v w writes moved =>
    cases writes with
    | cancel cancelled =>
      obtain ⟨-, rfl⟩ := Order.cancel_eq_ok_iff.mp cancelled
      exact ⟨v, follows_snoc [loaded id v, written _ v.status] rfl⟩

/-- **The course of an assembly**: look, write, count; or look and write once more what is there. -/
theorem assemble_follows {id : Uuid} {p : Program Call Call.Answer (Except DeskError Unit)}
    (h : (assemble id draw.now).Reaches past p) :
    ∃ o, Follows [loaded id o,
        written (Store.revised o .assembled o.transaction o.method draw.now) o.status,
        counted (.moved .assembled)] past ∨
      o.status = .assembled ∧ Follows [loaded id o, written o o.status] past := by
  have hlast := eq_nil_or_asks (.assemble id) (h.map Reply.done)
  rcases hlast with rfl | ⟨past, question, a, rfl, hasks⟩
  · exact ⟨default, .inl (follows_nil _)⟩
  cases hasks with
  | load about =>
    obtain rfl : id = _ := Option.some.inj about
    exact ⟨default, .inl (follows_snoc [] rfl)⟩
  | @write _ _ v w expected writes same =>
    subst same
    cases writes with
    | assemble assembled =>
      obtain ⟨-, rfl⟩ := Order.markAssembled_eq_ok_iff.mp assembled
      exact ⟨v, .inl (follows_snoc [loaded id v] rfl)⟩
    | reassert assembled =>
      exact ⟨v, .inr ⟨assembled, follows_snoc [loaded id v] rfl⟩⟩
  | @countMoved _ _ v w writes moved =>
    cases writes with
    | assemble assembled =>
      obtain ⟨-, rfl⟩ := Order.markAssembled_eq_ok_iff.mp assembled
      exact ⟨v, .inl (follows_snoc [loaded id v, written _ v.status] rfl)⟩
    | reassert assembled =>
      rw [assembled] at moved
      cases moved

/-- **The course of a new order**: price, create, count the order, count its total. -/
theorem place_follows {user : String} {ids : List String}
    {p : Program Call Call.Answer (Except DeskError Order)}
    (h : (place user ids draw).Reaches past p) :
    ∃ parts total stored, Follows [listed ids parts,
      created (Order.placed draw.id draw.now user ids total) stored, counted .created,
      counted (.earned stored.total)] past := by
  have hlast := eq_nil_or_asks (.place user ids) (h.map Reply.order)
  rcases hlast with rfl | ⟨past, question, a, rfl, hasks⟩
  · exact ⟨[], 0, default, follows_nil _⟩
  cases hasks with
  | listParts some => exact ⟨[], 0, default, follows_snoc [] rfl⟩
  | @create _ _ parts total priced =>
    exact ⟨parts, total, default, follows_snoc [listed ids parts] rfl⟩
  | @countCreated _ _ parts order stored =>
    have hcreate : Asks draw (.place user ids) [listed ids parts] (.create order) :=
      asks_of_program (.place user ids) (x := created order stored) (h.map Reply.order)
    obtain ⟨_, _, _, total, ⟨⟩, -, -, rfl⟩ := hcreate.create_inv
    exact ⟨parts, total, stored, follows_snoc [listed ids parts, created _ stored] rfl⟩
  | @countEarned _ _ parts order stored =>
    have hcreate : Asks draw (.place user ids) [listed ids parts] (.create order) :=
      asks_of_program (.place user ids) (x := created order stored) (h.map Reply.order)
    obtain ⟨_, _, _, total, ⟨⟩, -, -, rfl⟩ := hcreate.create_inv
    exact ⟨parts, total, stored,
      follows_snoc [listed ids parts, created _ stored, counted .created] rfl⟩
  | load about => cases about
  | write writes same => cases writes
  | countMoved writes moved => cases writes

/-! ## What takes a landed write -/

/-- **Something is counted** only after a creation or a write landed. -/
theorem landed_of_counted (request : Request) {p : Program Call Call.Answer Reply}
    (h : (request.program draw).Reaches past p) {tally : Tally} (mem : counted tally ∈ past) :
    Landed past := by
  obtain ⟨before, after, rfl⟩ := List.append_of_mem mem
  have hasks : Asks draw request before (.count tally) := asks_of_program request h
  cases hasks with
  | @countCreated _ _ _ order stored => exact .inl ⟨order, stored, by simp⟩
  | @countEarned _ _ _ order stored => exact .inl ⟨order, stored, by simp⟩
  | @countMoved _ _ v w writes moved => exact .inr ⟨w, v.status, by simp⟩

/-- The law of operations that succeed only after a creation or a write landed. -/
def landedLaw (α : Type) : Law Call Call.Answer (Except DeskError α) where
  asks _ _ := True
  ends past r := ∀ a, r = .ok a → Landed past

theorem keeps_landedLaw_refuse {α : Type} (e : DeskError) :
    (refuse e : Action α).Keeps (landedLaw α) past :=
  fun a h => by cases h

theorem place_keeps_landedLaw (user : String) (ids : List String) :
    (place user ids draw).Keeps (landedLaw Order) [] := by
  rw [place]
  split
  · exact keeps_landedLaw_refuse _
  refine ⟨trivial, ?_⟩
  rintro (e | parts)
  · exact keeps_landedLaw_refuse _
  simp only
  cases price ids.length parts with
  | error e => exact keeps_landedLaw_refuse _
  | ok total =>
    refine ⟨trivial, ?_⟩
    rintro (e | stored)
    · exact keeps_landedLaw_refuse _
    · exact ⟨trivial, fun _ => ⟨trivial, fun _ _ _ =>
        .inl ⟨Order.placed draw.id draw.now user ids total, stored, by simp [created]⟩⟩⟩

theorem cancel_keeps_landedLaw (id : Uuid) :
    (cancel id draw.now).Keeps (landedLaw Unit) [] := by
  refine ⟨trivial, ?_⟩
  rintro (e | o)
  · exact keeps_landedLaw_refuse _
  simp only
  cases o.cancel draw.now with
  | error e => exact keeps_landedLaw_refuse _
  | ok w =>
    refine ⟨trivial, ?_⟩
    rintro (e | _)
    · exact keeps_landedLaw_refuse _
    · exact ⟨trivial, fun _ _ _ => .inr ⟨w, o.status, by simp [written]⟩⟩

/-- A payment that succeeds was written. -/
theorem landed_of_paid {id : Uuid} {method : Method} {transaction : String}
    (h : (pay id method draw).Reaches past (.done (.ok transaction))) : Landed past := by
  have hkeeps := keeps_pay draw ⟨.ok [], .ok "", .ok (), []⟩ id method
  obtain ⟨_, _, o, w, -, -, hpast⟩ :=
    hkeeps.of_reaches (h.map Reply.transaction) transaction rfl
  rw [List.nil_append] at hpast
  exact .inr ⟨w, o.status, by simp [hpast]⟩

/-- **An assembly succeeds** only after a write landed, or after a refusal that found the order
assembled. -/
theorem landed_or_beaten {id : Uuid}
    (h : (assemble id draw.now).Reaches past (.done (.ok ()))) :
    Landed past ∨ ∃ w expected id' expected',
      refused w expected (.conflict id' expected' .assembled) ∈ past := by
  cases assembling_of_reaches h with
  | @again o assembled => exact .inl (.inr ⟨o, .assembled, by simp⟩)
  | @applied o w assembled => exact .inl (.inr ⟨w, o.status, by simp⟩)
  | @beaten o w id' expected assembled => exact .inr ⟨w, o.status, id', expected, by simp⟩

end Courses

/-! ## The discipline of all operations -/

/-- **The operations keep their courses**, whatever their collaborators answer, and wherever they
are left. A payment loads the order, charges for it, writes it with its payment, and announces it:
each once, and only after the one before went well; and it charges only if the loaded status allows
that the order is paid. A cancellation and an assembly load the order and write it once. A new order
is priced and created, and what is counted is the stored order. And unless a creation or a write
landed, nothing is counted and nothing succeeds, but for an assembly that lost to another one. -/
theorem calls_disciplined (draw : Draw) :
    (∀ id method past p, (pay id method draw).Reaches past p →
      (∃ o transaction, Follows [loaded id o, charged o.id o.user method transaction,
          written (Store.revised o .paid (some transaction) (some method) draw.now) o.status,
          counted (.moved .paid), published ⟨draw.id, o.id, o.user, method, transaction⟩] past ∧
        (1 < past.length → o.status.canBecome .paid = true)) ∧
      (¬ Landed past → (∀ tally, counted tally ∉ past) ∧ ∀ transaction,
        p ≠ .done (.ok transaction))) ∧
    (∀ id past p, (cancel id draw.now).Reaches past p →
      (∃ o, Follows [loaded id o,
        written (Store.revised o .cancelled o.transaction o.method draw.now) o.status,
        counted (.moved .cancelled)] past) ∧
      (¬ Landed past → (∀ tally, counted tally ∉ past) ∧ p ≠ .done (.ok ()))) ∧
    (∀ id past p, (assemble id draw.now).Reaches past p →
      (∃ o, Follows [loaded id o,
          written (Store.revised o .assembled o.transaction o.method draw.now) o.status,
          counted (.moved .assembled)] past ∨
        o.status = .assembled ∧ Follows [loaded id o, written o o.status] past) ∧
      (¬ Landed past → (∀ tally, counted tally ∉ past) ∧ (p = .done (.ok ()) →
        ∃ w expected id' expected',
          refused w expected (.conflict id' expected' .assembled) ∈ past))) ∧
    (∀ user ids past p, (place user ids draw).Reaches past p →
      (∃ parts total stored, Follows [listed ids parts,
        created (Order.placed draw.id draw.now user ids total) stored, counted .created,
        counted (.earned stored.total)] past) ∧
      (¬ Landed past → (∀ tally, counted tally ∉ past) ∧ ∀ order, p ≠ .done (.ok order))) := by
  refine ⟨?_, ?_, ?_, ?_⟩
  · intro id method past p h
    refine ⟨pay_follows h, fun idle => ⟨fun tally mem => idle ?_, ?_⟩⟩
    · exact landed_of_counted (.pay id method) (h.map Reply.transaction) mem
    · rintro transaction rfl
      exact idle (landed_of_paid h)
  · intro id past p h
    refine ⟨cancel_follows h, fun idle => ⟨fun tally mem => idle ?_, ?_⟩⟩
    · exact landed_of_counted (.cancel id) (h.map Reply.done) mem
    · rintro rfl
      exact idle ((cancel_keeps_landedLaw id).of_reaches h () rfl)
  · intro id past p h
    refine ⟨assemble_follows h, fun idle => ⟨fun tally mem => idle ?_, ?_⟩⟩
    · exact landed_of_counted (.assemble id) (h.map Reply.done) mem
    · rintro rfl
      exact (landed_or_beaten h).resolve_left idle
  · intro user ids past p h
    refine ⟨place_follows h, fun idle => ⟨fun tally mem => idle ?_, ?_⟩⟩
    · exact landed_of_counted (.place user ids) (h.map Reply.order) mem
    · rintro order rfl
      exact idle ((place_keeps_landedLaw user ids).of_reaches h order rfl)

/-- An order that is not the one that was asked for, and waits for its payment. -/
def mistaken : Order := Order.placed .nil .epoch "u-2" [] (-1)

/-- The id that was asked for. -/
def wanted : Uuid := ⟨List.replicate 32 ⟨2, by decide⟩, rfl⟩

/-- The charge comes through, and the write does not. -/
def chargedInVain : Past :=
  [loaded wanted mistaken, charged mistaken.id mistaken.user .card "t-1",
    refused (Store.revised mistaken .paid (some "t-1") (some .card) .epoch) .pendingPayment
      (.conflict mistaken.id .pendingPayment .cancelled)]

theorem calls_disciplined_in_vain :
    (pay wanted .card default).Reaches chargedInVain
        (.done (.error (.invalidStatus mistaken.id .cancelled))) ∧
      ¬ Landed chargedInVain ∧
      ((∃ o transaction, Follows [loaded wanted o, charged o.id o.user .card transaction,
          written (Store.revised o .paid (some transaction) (some .card) .epoch) o.status,
          counted (.moved .paid), published ⟨.nil, o.id, o.user, .card, transaction⟩]
            chargedInVain ∧
        (1 < chargedInVain.length → o.status.canBecome .paid = true)) ∧
      ∀ tally, counted tally ∉ chargedInVain) := by
  have hrun : (pay wanted .card default).Reaches chargedInVain
      (.done (.error (.invalidStatus mistaken.id .cancelled))) :=
    .on (.on (.on (.here _)))
  have hidle : ¬ Landed chargedInVain := by
    rintro (⟨order, stored, mem⟩ | ⟨w, expected, mem⟩)
    · simp only [chargedInVain, List.mem_cons, List.not_mem_nil, or_false] at mem
      rcases mem with h | h | h
      all_goals cases congrArg Exchange.question h
    · simp only [chargedInVain, List.mem_cons, List.not_mem_nil, or_false] at mem
      rcases mem with h | h | h
      · cases congrArg Exchange.question h
      · cases congrArg Exchange.question h
      · cases h
  obtain ⟨hcourse, hnothing⟩ := (calls_disciplined default).1 _ _ _ _ hrun
  exact ⟨hrun, hidle, hcourse, (hnothing hidle).1⟩

end Desk

end OrderDesk
