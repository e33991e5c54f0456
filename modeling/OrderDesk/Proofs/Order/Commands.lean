import Mathlib.Data.List.Chain
import OrderDesk.Proofs.Order.Life

/-!
# Orders under commands

An order is given commands, any number of them and in any order. Each command changes the order in
place: a step writes what it is about, and a command that is refused, or only looks, writes nothing.
So the steps that are taken follow the legal ones, there are two at most, and the payment of an
order is the one of the step that paid it.

## Main definitions

* `Command.aim`: the status that a command asks for
* `Command.written`: what a command that is not refused makes of an order
* `Turn`, `turns`, `stepsTaken`: a history of commands and the steps that were taken in it
* `Accounted`: what is known of an order at the end of its history

## Main results

* `on_change`: what a command does in place
* `map_after_obey`: a change in place is the change of a copy
* `commands_accounted`: every history of every order is accounted for
-/

namespace OrderDesk

namespace Status

/-- How many steps can still be taken. -/
def stepsLeft : Status → Nat
  | pendingPayment => 2
  | paid => 1
  | cancelled | assembled => 0

theorem stepsLeft_lt {s t : Status} (legal : s.canBecome t = true) :
    t.stepsLeft < s.stepsLeft := by
  cases s <;> cases t <;> simp_all [canBecome, stepsLeft]

/-- **No step leads back** to the status that an order starts with. -/
theorem ne_pending_of_canBecome {s t : Status} (legal : s.canBecome t = true) :
    t ≠ .pendingPayment := by
  rintro rfl
  cases s <;> cases legal

/-- **A path** of legal steps. -/
abbrev Path (s : Status) (path : List Status) : Prop :=
  (s :: path).IsChain fun s t => s.canBecome t = true

variable {s : Status} {path : List Status}

theorem Path.length_le (h : s.Path path) : path.length ≤ s.stepsLeft := by
  induction path generalizing s with
  | nil => exact Nat.zero_le _
  | cons t path ih =>
    obtain ⟨legal, rest⟩ := List.isChain_cons_cons.mp h
    have hrest := ih rest
    have hlt := stepsLeft_lt legal
    rw [List.length_cons]
    omega

/-- **Payment comes first or never**: no path comes to it from another status than the first. -/
theorem Path.paid_notMem (h : s.Path path) (hs : s ≠ .pendingPayment) : .paid ∉ path := by
  induction path generalizing s with
  | nil => exact List.not_mem_nil
  | cons t path ih =>
    obtain ⟨legal, rest⟩ := List.isChain_cons_cons.mp h
    intro hmem
    rcases List.mem_cons.mp hmem with rfl | hmem
    · exact hs (canBecome_paid_iff.mp legal)
    · exact ih rest (ne_pending_of_canBecome legal) hmem

theorem Path.count_paid_le (h : s.Path path) : path.count .paid ≤ 1 := by
  cases path with
  | nil => exact Nat.zero_le _
  | cons t path =>
    obtain ⟨legal, rest⟩ := List.isChain_cons_cons.mp h
    have hnone : path.count .paid = 0 :=
      List.count_eq_zero.mpr (Path.paid_notMem rest (ne_pending_of_canBecome legal))
    rw [List.count_cons, hnone]
    split <;> decide

end Status

namespace Order

/-! ## One command -/

namespace Command

/-- **The status that a command asks for.** -/
def aim : Command → Status
  | markPaid _ _ => .paid
  | cancel => .cancelled
  | markAssembled => .assembled
  | ensure next => next

/-- Whether a command only looks. -/
def onlyLooks : Command → Bool
  | ensure _ => true
  | markPaid _ _ | cancel | markAssembled => false

/-- What a command that is not refused makes of an order. -/
def written (o : Order) (now : Instant) : Command → Order
  | markPaid transaction method => { o with
      status := .paid, transaction := some transaction, method := some method, updatedAt := now }
  | cancel => { o with status := .cancelled, updatedAt := now }
  | markAssembled => { o with status := .assembled, updatedAt := now }
  | ensure _ => o

end Command

variable {o : Order} {now : Instant} {command : Command} {given : List (Instant × Command)}

/-- **One change after another**: the second one is made where the first one was not refused. -/
theorem on_bind (first : Change) (second : Unit → Change) (o : Order) :
    Change.on (first >>= second) o =
      match first.on o with
      | (.ok u, o) => (second u).on o
      | (.error e, o) => (.error e, o) := by
  show (match first.run.run o with
    | (result, o) => (ExceptT.bindCont second result).run o) = _
  unfold Change.on
  rcases first.run.run o with ⟨e | u, o⟩ <;> rfl

theorem on_ensure (next : Status) (o : Order) :
    (Change.ensure next).on o =
      if o.status.canBecome next then (.ok (), o) else (.error ⟨o.status, next⟩, o) := by
  show Change.on (if o.status.canBecome next then pure () else throw ⟨o.status, next⟩) o = _
  split <;> rfl

/-- **A step in place** writes both of its fields or none. -/
theorem on_advance (next : Status) (now : Instant) (o : Order) :
    (Change.advance next now).on o =
      if o.status.canBecome next then (.ok (), { o with status := next, updatedAt := now })
      else (.error ⟨o.status, next⟩, o) := by
  rw [Change.advance, on_bind, on_ensure]
  by_cases legal : o.status.canBecome next = true
  · rw [if_pos legal, if_pos legal]
    rfl
  · rw [if_neg legal, if_neg legal]

/-- **A payment in place** is written only behind the step. -/
theorem on_markPaid (transaction : String) (method : Method) (now : Instant) (o : Order) :
    (Change.markPaid transaction method now).on o =
      if o.status.canBecome .paid then
        (.ok (), (Command.markPaid transaction method).written o now)
      else (.error ⟨o.status, .paid⟩, o) := by
  rw [Change.markPaid, on_bind, on_advance]
  by_cases legal : o.status.canBecome .paid = true
  · rw [if_pos legal, if_pos legal]
    rfl
  · rw [if_neg legal, if_neg legal]

/-- **What a command does.** If it asks for a legal step it succeeds, and what it writes is written;
otherwise it names the status that it found and the one that it asked for, and nothing is
written. -/
theorem on_change (o : Order) (now : Instant) (command : Command) :
    (command.change now).on o =
      if o.status.canBecome command.aim then (.ok (), command.written o now)
      else (.error ⟨o.status, command.aim⟩, o) := by
  cases command with
  | markPaid transaction method => exact on_markPaid transaction method now o
  | cancel => exact on_advance .cancelled now o
  | markAssembled => exact on_advance .assembled now o
  | ensure next => exact on_ensure next o

theorem obey_eq (o : Order) (now : Instant) (command : Command) :
    o.obey now command =
      if o.status.canBecome command.aim then .ok () else .error ⟨o.status, command.aim⟩ := by
  rw [obey, on_change]
  split <;> rfl

theorem after_of_legal (legal : o.status.canBecome command.aim = true) :
    o.after now command = command.written o now := by
  rw [after, on_change, if_pos legal]

theorem after_of_illegal (illegal : ¬ o.status.canBecome command.aim = true) :
    o.after now command = o := by
  rw [after, on_change, if_neg illegal]

/-- **A change in place is the change of a copy**: the copy is dropped where the change in place is
refused. -/
theorem map_after_obey (o : Order) (now : Instant) (command : Command) :
    ((o.obey now command).map fun _ => o.after now command) =
      match command with
      | .markPaid transaction method => o.markPaid transaction method now
      | .cancel => o.cancel now
      | .markAssembled => o.markAssembled now
      | .ensure next => (o.ensureCanBecome next).map fun _ => o := by
  rw [obey_eq]
  by_cases legal : o.status.canBecome command.aim = true
  · rw [if_pos legal, after_of_legal legal]
    cases command <;>
      simp_all [Except.map, Command.aim, Command.written, markPaid, cancel, markAssembled, advance,
        ensureCanBecome]
  · rw [if_neg legal]
    cases command <;>
      simp_all [Except.map, Command.aim, markPaid, cancel, markAssembled, advance,
        ensureCanBecome]

/-- A step leaves the status that it asks for. -/
theorem status_written (steps : command.onlyLooks = false) :
    (command.written o now).status = command.aim := by
  cases command <;> first | rfl | cases steps

/-- **What an order is does not change**, whatever the command. -/
theorem sameIdentity_after (o : Order) (now : Instant) (command : Command) :
    SameIdentity o (o.after now command) := by
  by_cases legal : o.status.canBecome command.aim = true
  · rw [after_of_legal legal]
    cases command <;> exact ⟨rfl, rfl, rfl, rfl, rfl⟩
  · rw [after_of_illegal legal]
    exact .refl o

/-! ## Histories -/

/-- **A turn**: a command given at a time, and the order that it finds. -/
structure Turn where
  before : Order
  now : Instant
  command : Command

namespace Turn

/-- What the command answers. -/
def answer (t : Turn) : Except InvalidTransition Unit := t.before.obey t.now t.command

/-- The order that the command leaves behind. -/
def after (t : Turn) : Order := t.before.after t.now t.command

/-- **Whether a step is taken**: the command does not only look, and succeeds. -/
def steps (t : Turn) : Bool := !t.command.onlyLooks && t.answer.isOk

variable {t : Turn}

theorem isOk_answer_iff : t.answer.isOk = true ↔ t.before.status.canBecome t.command.aim = true := by
  rw [answer, obey_eq]
  split <;> simp_all [Except.isOk, Except.toBool]

theorem steps_iff :
    t.steps = true ↔
      t.command.onlyLooks = false ∧ t.before.status.canBecome t.command.aim = true := by
  rw [steps, Bool.and_eq_true, isOk_answer_iff, Bool.not_eq_true']

/-- **A step that is taken** is legal, and leaves the status that was asked for. -/
theorem legal_of_steps (h : t.steps = true) :
    t.before.status.canBecome t.after.status = true ∧ t.after.status = t.command.aim := by
  obtain ⟨steps, legal⟩ := steps_iff.mp h
  have hstatus : t.after.status = t.command.aim := by
    rw [after, after_of_legal legal, status_written steps]
  exact ⟨hstatus ▸ legal, hstatus⟩

/-- **A turn that takes no step** leaves the order as it was. -/
theorem after_of_not_steps (h : ¬ t.steps = true) : t.after = t.before := by
  by_cases legal : t.before.status.canBecome t.command.aim = true
  · -- it only looks
    rw [after, after_of_legal legal]
    cases hc : t.command with
    | ensure next => rfl
    | _ => exact absurd (steps_iff.mpr ⟨by rw [hc]; rfl, legal⟩) h
  · exact after_of_illegal legal

/-- A payment that succeeds is written. -/
theorem payment_of_steps (h : t.steps = true) {transaction : String} {method : Method}
    (pays : t.command = .markPaid transaction method) :
    t.after.status = .paid ∧ t.after.transaction = some transaction ∧
      t.after.method = some method := by
  obtain ⟨-, legal⟩ := steps_iff.mp h
  rw [after, after_of_legal legal, pays]
  exact ⟨rfl, rfl, rfl⟩

/-- A step that does not pay leaves the payment as it is. -/
theorem samePayment_of_steps (h : t.steps = true) (other : t.command.aim ≠ .paid) :
    SamePayment t.before t.after := by
  obtain ⟨-, legal⟩ := steps_iff.mp h
  rw [after, after_of_legal legal]
  cases hc : t.command with
  | markPaid transaction method => exact absurd (by rw [hc]; rfl) other
  | _ => exact ⟨rfl, rfl⟩

/-- **Only the step that pays an order** writes its payment. -/
theorem payment_after (h : t.before.status ≠ .pendingPayment) : SamePayment t.before t.after := by
  by_cases steps : t.steps = true
  · apply samePayment_of_steps steps
    intro pays
    have legal := (steps_iff.mp steps).2
    rw [pays] at legal
    exact h (Status.canBecome_paid_iff.mp legal)
  · rw [after_of_not_steps steps]
    exact .refl _

end Turn

/-- **The turns of an order** that is given commands, one after another. -/
def turns (o : Order) : List (Instant × Command) → List Turn
  | [] => []
  | (now, command) :: given => ⟨o, now, command⟩ :: (o.after now command).turns given

/-- The order after all of them. -/
def afterAll (o : Order) (given : List (Instant × Command)) : Order :=
  given.foldl (fun o g => o.after g.1 g.2) o

/-- **The steps that were taken**, in their order. -/
def stepsTaken (o : Order) (given : List (Instant × Command)) : List Turn :=
  (o.turns given).filter (·.steps)

/-- **What is known of an order** at the end of a history of commands. -/
structure Accounted (o : Order) (given : List (Instant × Command)) : Prop where
  /-- A command succeeds exactly if it asks for a legal step, and is refused by the status that it
  found and the one that it asked for. -/
  answers : ∀ t ∈ o.turns given, t.answer =
    if t.before.status.canBecome t.command.aim then .ok ()
    else .error ⟨t.before.status, t.command.aim⟩
  /-- A command that is refused or only looks changes no field. -/
  untouched : ∀ t ∈ o.turns given,
    (∃ e, t.answer = .error e) ∨ (∃ next, t.command = .ensure next) → t.after = t.before
  /-- A step that is taken leaves the status that it asked for, as of its time. -/
  aims : ∀ t ∈ o.stepsTaken given, t.after.status = t.command.aim ∧ t.after.updatedAt = t.now
  /-- The statuses after the steps are a path of legal steps, which ends at the last status. -/
  path : o.status.Path ((o.stepsTaken given).map (·.after.status)) ∧
    (o.afterAll given).status =
      ((o.stepsTaken given).map (·.after.status)).getLastD o.status
  /-- So there are two steps at most, and at most one of them pays. -/
  few : (o.stepsTaken given).length ≤ 2 ∧
    (o.stepsTaken given).countP (fun t => t.command.aim = .paid) ≤ 1
  /-- Behind a last status everything fails. -/
  closed : ∀ earlier later, given = earlier ++ later →
    (o.afterAll earlier).status.isTerminal = true →
      ∀ t ∈ (o.afterAll earlier).turns later, ∃ e, t.answer = .error e
  /-- The payment is that of the step that paid, or the one from before if there is none. -/
  payment : (∀ t ∈ o.stepsTaken given, ∀ transaction method,
      t.command = .markPaid transaction method →
        (o.afterAll given).transaction = some transaction ∧
        (o.afterAll given).method = some method) ∧
    ((∀ t ∈ o.stepsTaken given, t.command.aim ≠ .paid) → SamePayment o (o.afterAll given))
  /-- What the order is never changes. -/
  identity : (∀ t ∈ o.turns given, SameIdentity o t.after) ∧ SameIdentity o (o.afterAll given)

/-- **The first turn of a history**, which takes a step or leaves the order as it was. -/
theorem stepsTaken_cons_cases (o : Order) (now : Instant) (command : Command)
    (given : List (Instant × Command)) :
    ((⟨o, now, command⟩ : Turn).steps = true ∧ o.stepsTaken ((now, command) :: given) =
      ⟨o, now, command⟩ :: (o.after now command).stepsTaken given) ∨
    (o.after now command = o ∧ o.stepsTaken ((now, command) :: given) = o.stepsTaken given) := by
  rw [stepsTaken, turns, List.filter_cons]
  by_cases steps : (⟨o, now, command⟩ : Turn).steps = true
  · exact .inl ⟨steps, if_pos steps⟩
  · have stays : o.after now command = o := Turn.after_of_not_steps steps
    refine .inr ⟨stays, ?_⟩
    rw [if_neg steps, stays]
    rfl

theorem afterAll_cons (o : Order) (now : Instant) (command : Command)
    (given : List (Instant × Command)) :
    o.afterAll ((now, command) :: given) = (o.after now command).afterAll given := rfl

/-- **The statuses after the steps** are a path, which ends at the last status. -/
theorem path_stepsTaken (o : Order) (given : List (Instant × Command)) :
    o.status.Path ((o.stepsTaken given).map (·.after.status)) ∧
      (o.afterAll given).status =
        ((o.stepsTaken given).map (·.after.status)).getLastD o.status := by
  induction given generalizing o with
  | nil => exact ⟨List.isChain_singleton _, rfl⟩
  | cons g given ih =>
    obtain ⟨now, command⟩ := g
    -- for every order, since the rest of the history finds the order that this turn leaves
    obtain ⟨hpath, hlast⟩ := ih (o.after now command)
    rcases stepsTaken_cons_cases o now command given with ⟨steps, htaken⟩ | ⟨stays, htaken⟩
    · rw [htaken, List.map_cons, afterAll_cons, List.getLastD_cons]
      exact ⟨.cons_cons (Turn.legal_of_steps steps).1 hpath, hlast⟩
    · rw [stays] at hpath hlast
      rw [htaken, afterAll_cons, stays]
      exact ⟨hpath, hlast⟩

/-- Each turn finds an order of the same identity, and leaves one. -/
theorem sameIdentity_turns (o : Order) (given : List (Instant × Command)) :
    (∀ t ∈ o.turns given, SameIdentity o t.after) ∧ SameIdentity o (o.afterAll given) := by
  induction given generalizing o with
  | nil => exact ⟨by simp [turns], .refl o⟩
  | cons g given ih =>
    obtain ⟨now, command⟩ := g
    have hfirst := sameIdentity_after o now command
    obtain ⟨hturns, hend⟩ := ih (o.after now command)
    refine ⟨?_, hfirst.trans hend⟩
    intro t ht
    rcases List.mem_cons.mp ht with rfl | ht
    · exact hfirst
    · exact hfirst.trans (hturns t ht)

/-- **Behind the first status** the payment stays as it is. -/
theorem samePayment_afterAll (h : o.status ≠ .pendingPayment) (given : List (Instant × Command)) :
    SamePayment o (o.afterAll given) := by
  induction given generalizing o with
  | nil => exact .refl o
  | cons g given ih =>
    obtain ⟨now, command⟩ := g
    -- the invariant is that the first status is left for good
    have hfirst : SamePayment o (o.after now command) :=
      Turn.payment_after (t := ⟨o, now, command⟩) h
    have hstatus : (o.after now command).status ≠ .pendingPayment := by
      by_cases steps : (⟨o, now, command⟩ : Turn).steps = true
      · exact Status.ne_pending_of_canBecome (Turn.legal_of_steps steps).1
      · rw [show o.after now command = o from Turn.after_of_not_steps steps]
        exact h
    exact hfirst.trans (ih hstatus)

/-- **The payment** is that of the step that paid, or the one from before if there is none. -/
theorem payment_afterAll (o : Order) (given : List (Instant × Command)) :
    (∀ t ∈ o.stepsTaken given, ∀ transaction method, t.command = .markPaid transaction method →
      (o.afterAll given).transaction = some transaction ∧
        (o.afterAll given).method = some method) ∧
    ((∀ t ∈ o.stepsTaken given, t.command.aim ≠ .paid) → SamePayment o (o.afterAll given)) := by
  induction given generalizing o with
  | nil => exact ⟨by simp [stepsTaken, turns], fun _ => .refl o⟩
  | cons g given ih =>
    obtain ⟨now, command⟩ := g
    obtain ⟨hpaid, hunpaid⟩ := ih (o.after now command)
    rw [afterAll_cons]
    rcases stepsTaken_cons_cases o now command given with ⟨steps, htaken⟩ | ⟨stays, htaken⟩
    · rw [htaken]
      constructor
      · intro t ht transaction method pays
        rcases List.mem_cons.mp ht with rfl | ht
        · -- nothing behind this step writes the payment again
          obtain ⟨hstatus, htransaction, hmethod⟩ := Turn.payment_of_steps steps pays
          have hsame : SamePayment (o.after now command) ((o.after now command).afterAll given) :=
            samePayment_afterAll (by rw [show (o.after now command).status = _ from hstatus]; simp)
              given
          exact ⟨hsame.transaction.trans htransaction, hsame.method.trans hmethod⟩
        · exact hpaid t ht transaction method pays
      · intro none
        have hfirst : SamePayment o (o.after now command) :=
          Turn.samePayment_of_steps steps (none _ (List.mem_cons_self ..))
        exact hfirst.trans (hunpaid fun t ht => none t (List.mem_cons_of_mem _ ht))
    · rw [stays] at hpaid hunpaid ⊢
      rw [htaken]
      exact ⟨hpaid, hunpaid⟩

/-- **A last status is never left**, and everything fails there. -/
theorem fails_of_isTerminal (last : o.status.isTerminal = true)
    (given : List (Instant × Command)) : ∀ t ∈ o.turns given, ∃ e, t.answer = .error e := by
  have illegal := (Status.isTerminal_iff _).mp last
  -- the order never changes, so every turn finds the same last status
  induction given with
  | nil => simp [turns]
  | cons g given ih =>
    obtain ⟨now, command⟩ := g
    have hillegal : ¬ o.status.canBecome command.aim = true := by simp [illegal]
    intro t ht
    rw [turns, after_of_illegal hillegal] at ht
    rcases List.mem_cons.mp ht with rfl | ht
    · exact ⟨_, (obey_eq o now command).trans (if_neg hillegal)⟩
    · exact ih t ht

/-- **Every history of every order is accounted for**: which commands succeed and what the others
report, which steps were taken, and what they have written. -/
theorem commands_accounted (o : Order) (given : List (Instant × Command)) :
    o.Accounted given := by
  have hpath := path_stepsTaken o given
  have hsteps : ∀ t ∈ o.stepsTaken given, t.steps = true :=
    fun t ht => (List.mem_filter.mp ht).2
  have haims : ∀ t ∈ o.stepsTaken given, t.after.status = t.command.aim :=
    fun t ht => (Turn.legal_of_steps (hsteps t ht)).2
  refine ⟨fun t _ => obey_eq .., ?_, ?_, hpath, ⟨?_, ?_⟩, ?_, payment_afterAll o given,
    sameIdentity_turns o given⟩
  · -- a command that is refused or only looks takes no step
    intro t _ h
    apply Turn.after_of_not_steps
    rintro steps
    rcases h with ⟨e, he⟩ | ⟨next, hnext⟩
    · simp [Turn.steps, he, Except.isOk, Except.toBool] at steps
    · simp [Turn.steps, hnext, Command.onlyLooks] at steps
  · intro t ht
    refine ⟨haims t ht, ?_⟩
    obtain ⟨steps, legal⟩ := Turn.steps_iff.mp (hsteps t ht)
    rw [Turn.after, after_of_legal legal]
    cases hc : t.command with
    | ensure next => rw [hc] at steps; cases steps
    | _ => rfl
  · -- each step takes the status further
    have hlength := hpath.1.length_le
    rw [List.length_map] at hlength
    refine hlength.trans ?_
    cases o.status <;> decide
  · have hcount := hpath.1.count_paid_le
    rw [List.count, List.countP_map] at hcount
    refine le_of_eq_of_le (List.countP_congr fun t ht => ?_) hcount
    simp [haims t ht]
  · rintro earlier later rfl last
    exact fails_of_isTerminal last later

end Order

end OrderDesk
