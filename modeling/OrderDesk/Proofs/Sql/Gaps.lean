import OrderDesk.Proofs.Sql.Sharing

/-!
# Between two statements

A call of the store is several statements, and anything may happen between them. Still no order that
is shown is torn, and no refusal contradicts itself: parts never change, and a status that was left
is not reached again.

## Main definitions

* `databaseAt`: the traffic of visits that share the tables
* `Tables.shown?`, `Tables.looked`: an order as the tables have it
* `Called`: a call that has come to its result

## Main results

* `sound_databaseAt`, `sound_later`: at all times the tables are those of a store, which evolves
* `load_at_first`, `shown_of_created`, `conflict_differs`: what the calls tell
* `gaps_safe`: the gaps between statements are safe
-/

namespace OrderDesk

/-- The order as it is read back from its rows. -/
def Order.recalled (o : Order) : Order := { o with parts := Sql.recalled o.id o.parts }

theorem Order.SameIdentity.recalled {v w : Order} (h : v.SameIdentity w) :
    v.recalled.SameIdentity w.recalled where
  id := h.id
  user := h.user
  parts := by rw [Order.recalled, Order.recalled, h.id, h.parts]
  total := h.total
  createdAt := h.createdAt

theorem Order.Evolves.recalled {v w : Order} (h : v.Evolves w) :
    v.recalled.Evolves w.recalled where
  identity := h.identity.recalled
  status := h.status
  payment hs := ⟨(h.payment hs).transaction, (h.payment hs).method⟩

theorem Order.Succeeds.recalled {v w : Order} (h : v.Succeeds w) :
    v.recalled.Succeeds w.recalled where
  identity := h.identity.recalled
  status := h.status
  payment := h.payment.imp_left fun p => ⟨p.transaction, p.method⟩

namespace Sql

open Desk (Visit Draw placer payer canceller)

/-- **An order as the tables have it**: its row, and its parts by their numbers. -/
def Tables.shown? (t : Tables) (id : Uuid) : Option Order :=
  match t.ordersOf id with
  | [] => none
  | r :: _ => (r.toOrder ((t.partsOf id).map (·.part))).toOption

/-- **What a look at the tables comes to**, at one moment. -/
def Tables.looked (t : Tables) (id : Uuid) : Except StoreError Order :=
  match t.shown? id with
  | some v => .ok v
  | none => .error (.notFound id)

/-- **The traffic of visits that share the tables** of a server, which are empty at first. -/
def databaseAt (moves : List (Move Visit Draw)) :
    Traffic Visit Query Query.Answer Desk.Reply Server :=
  (Traffic.opened Server.empty).run atServer moves

theorem shown?_of (s : Store) (id : Uuid) :
    (Tables.of s.orders).shown? id = (s.find? id).map Order.recalled := by
  rw [Tables.shown?, Tables.ordersOf_of]
  cases h : s.find? id with
  | none => rfl
  | some v =>
    obtain rfl := Store.id_of_find? h
    simp [Tables.partsOf_of h, Order.recalled, Except.toOption]

variable {moves : List (Move Visit Draw)} {who : Nat} {past zs rest : List Sent}

/-! ## At all times -/

theorem sound_databaseAt (moves : List (Move Visit Draw)) :
    ∃ s, Sound (databaseAt moves).state (databaseAt moves).exchanges s := by
  refine Traffic.exchange_invariant (I := fun srv xs => ∃ s, Sound srv xs s) keeps_atServer ?_
    ⟨.empty, sound_empty⟩ moves
  rintro who v c q srv a srv' xs asks answered ⟨s, hs⟩
  obtain ⟨s', hs', -⟩ := hs.exchange asks answered
  exact ⟨s', hs'⟩

/-- **A move is a step** of the orders. -/
theorem sound_move {s : Store} (h : Sound (databaseAt moves).state (databaseAt moves).exchanges s)
    (m : Move Visit Draw) :
    ∃ s', Sound (databaseAt (moves ++ [m])).state (databaseAt (moves ++ [m])).exchanges s' ∧
      s.Steps s' := by
  have hstep := Traffic.move_step atServer (databaseAt moves) m
  rw [databaseAt, ← Traffic.run_snoc] at hstep
  obtain ⟨hstate, hexchanges⟩ | ⟨who, v, x, hasked⟩ := hstep.still_or_asked
  · refine ⟨s, ?_, .refl s⟩
    rw [databaseAt, hstate, hexchanges]
    exact h
  · obtain ⟨next, standing⟩ := hasked.standing
    obtain ⟨c, answered⟩ := hasked.answered
    have hkeeps := (Traffic.lawful_run keeps_atServer Server.empty moves).within standing
    obtain ⟨s', hs', hsteps⟩ := h.exchange hkeeps.1 answered
    refine ⟨s', ?_, hsteps⟩
    rw [databaseAt, hasked.exchanges]
    exact hs'

/-- **Later on** all orders are there, in later versions. -/
theorem sound_later {s : Store}
    (h : Sound (databaseAt moves).state (databaseAt moves).exchanges s)
    (more : List (Move Visit Draw)) :
    ∃ s', Sound (databaseAt (moves ++ more)).state (databaseAt (moves ++ more)).exchanges s' ∧
      s.Evolves s' := by
  induction more using List.reverseRecOn with
  | nil => exact ⟨s, by rwa [List.append_nil], .refl s⟩
  | append_singleton more m ih =>
    obtain ⟨s₁, h₁, hevolves⟩ := ih
    obtain ⟨s₂, h₂, hsteps⟩ := sound_move h₁ m
    rw [← List.append_assoc]
    exact ⟨s₂, h₂, hevolves.trans hsteps.evolves⟩

/-! ## The moments of a call -/

/-- **A statement of a visit was answered** from the tables of one moment. -/
theorem statement_moment {added : Tables} {q : Statement} {a : Query.Answer (.statement added q)}
    (h : own who (databaseAt moves).exchanges = past ++ ⟨.statement added q, a⟩ :: rest) :
    ∃ before m after, moves = before ++ m :: after ∧
      own who (databaseAt before).exchanges = past ∧
      own who (databaseAt (before ++ [m])).exchanges = past ++ [⟨.statement added q, a⟩] ∧
      ∃ c, a = (⟨(databaseAt before).state.tables, added⟩ : Connection).report c q := by
  obtain ⟨before, m, after, v, rfl, hpast, hasked⟩ := Traffic.moment h
  obtain ⟨c, answered⟩ := hasked.answered
  change Server.answer v.outcomes c (.statement added q) (databaseAt before).state = (some a, _)
    at answered
  have hown := hasked.own
  rw [hpast] at hown
  exact ⟨before, m, after, rfl, hpast, hown, c, (answer_statement answered).1⟩

/-- The moments of a visit come in the order of its exchanges. -/
theorem later_moment {before before' after after' : List (Move Visit Draw)} {x : Sent}
    {ys : List Sent} (same : before ++ after = before' ++ after')
    (h : own who (databaseAt before).exchanges = ys)
    (h' : own who (databaseAt before').exchanges = ys ++ [x]) :
    ∃ more, before' = before ++ more := by
  obtain ⟨more, hmore, -⟩ | ⟨more, hmore, -⟩ := List.append_eq_append_iff.mp same
  · exact ⟨more, hmore⟩
  · -- the later one would have fewer exchanges
    have hprefix :
        own who (databaseAt before').exchanges <+: own who (databaseAt before).exchanges :=
      own_mono (hmore ▸ Traffic.exchanges_prefix_append atServer _ before' more)
    have hlength := hprefix.length_le
    rw [h, h', List.length_append, List.length_singleton] at hlength
    omega

/-- **Parts that are asked for later** are those of the order that was there. -/
theorem parts_later {before after : List (Move Visit Draw)} {s : Store} {u : Order} {x : Sent}
    {a : Query.Answer (.statement .empty (.selectParts u.id))}
    (h : Sound (databaseAt before).state (databaseAt before).exchanges s)
    (found : s.find? u.id = some u) (hpast : own who (databaseAt before).exchanges = past)
    (hown : own who (databaseAt (before ++ after)).exchanges =
      past ++ [x] ++ ⟨.statement .empty (.selectParts u.id), a⟩ :: rest) :
    a = (.ok ((recalled u.id u.parts).map some), .empty) := by
  obtain ⟨before', m, after', hmoves, hpast', -, c, ha⟩ := statement_moment hown
  obtain ⟨more, rfl⟩ := later_moment hmoves hpast hpast'
  obtain ⟨s', hs', evolves⟩ := sound_later h more
  obtain ⟨w, hw, hevolves⟩ := evolves _ u found
  rw [← hevolves.identity.id] at hw
  have hanswer := answer_selectParts c.id c.now hw
  rw [hevolves.identity.id, hevolves.identity.parts] at hanswer
  rw [ha, hs'.report, Connection.report, hanswer]
  rfl

/-! ## What the calls tell -/

/-- **A call has come to its result**, by some exchanges of a visit. -/
structure Called (moves : List (Move Visit Draw)) (who : Nat) (past zs : List Sent) (call : Call)
    (result : call.Answer) : Prop where
  own : ∃ rest, own who (databaseAt moves).exchanges = past ++ (zs ++ rest)
  reaches : (inDatabase call).Reaches zs (.done result)

/-- **A look tells what was there at its first statement**, whatever happens before the second. -/
theorem load_at_first {id : Uuid} {result : Except StoreError Order}
    (h : Called moves who past zs (.load id) result) :
    ∃ before m after, moves = before ++ m :: after ∧
      own who (databaseAt before).exchanges = past ∧
      own who (databaseAt (before ++ [m])).exchanges = past ++ zs.take 1 ∧
      result = (databaseAt before).state.tables.looked id := by
  obtain ⟨⟨rest, hown⟩, looks⟩ := h
  change (Program.ask (.statement .empty (.selectOrder id)) _).Reaches zs _ at looks
  cases looks with
  | @on q next a zs p looks =>
  rw [List.cons_append] at hown
  obtain ⟨before, m, after, rfl, hpast, hlast, c, ha⟩ := statement_moment hown
  refine ⟨before, m, after, rfl, hpast, hlast, ?_⟩
  obtain ⟨s, hs⟩ := sound_databaseAt before
  rw [hs.report, Connection.report, answer_selectOrder] at ha
  subst ha
  rw [Tables.looked, hs.tables, shown?_of]
  cases hfind : s.find? id with
  | none =>
    simp only [hfind] at looks
    cases looks
    rfl
  | some u =>
    obtain rfl := Store.id_of_find? hfind
    simp only [hfind, Option.toList_some, List.map_cons, read_toRow, proceed] at looks
    change (Program.ask (.statement .empty (.selectParts u.id)) _).Reaches zs _ at looks
    cases looks with
    | @on q next a zs p looks =>
    rw [List.cons_append, List.append_cons past] at hown
    obtain rfl := parts_later hs hfind hpast hown
    simp only [onlyColumns_map_some, toOrder_ofOrder] at looks
    cases looks
    rfl

/-- **A conflict never has the status that was expected.** That status had been left when the write
changed nothing, and was not reached again before it was asked for. -/
theorem conflict_differs {order : Order} {expected e actual : Status} {id : Uuid}
    (h : Called moves who past zs (.update order expected) (.error (.conflict id e actual))) :
    id = order.id ∧ e = expected ∧ actual ≠ expected := by
  obtain ⟨⟨rest, hown⟩, writes⟩ := h
  change (Program.ask (.statement .empty (updateOrder order expected)) _).Reaches zs _ at writes
  cases writes with
  | @on q next a zs p writes =>
  rw [List.cons_append] at hown
  obtain ⟨before, m, after, rfl, hpast, -, c, ha⟩ := statement_moment hown
  obtain ⟨reason | (changed : Nat), added⟩ := a
  · cases writes
  obtain ⟨-, rfl⟩ := Prod.mk.inj ha
  change (onConnection .empty (if 0 < changed then .done (.ok ())
    else explain order.id expected)).Reaches zs _ at writes
  by_cases hchanged : 0 < changed
  · rw [if_pos hchanged] at writes
    cases writes
  rw [if_neg hchanged] at writes
  change (Program.ask (.statement .empty (.selectStatus order.id)) _).Reaches zs _ at writes
  cases writes with
  | @on q next a zs p writes =>
  rw [List.cons_append, List.append_cons past] at hown
  obtain ⟨before', m', after', -, hpast', -, c', ha'⟩ := statement_moment hown
  obtain ⟨s, hs⟩ := sound_databaseAt before'
  have hmem : (_ : Sent) ∈ own who (databaseAt before').exchanges :=
    hpast' ▸ List.mem_concat_self
  obtain ⟨e', cur, hname, hcur, -, hne⟩ :=
    hs.tells (mem_own.mp hmem) (Nat.eq_zero_of_not_pos hchanged)
  obtain rfl := Status.name_inj.mp hname
  rw [hs.report, Connection.report, answer_selectStatus, hcur] at ha'
  subst ha'
  simp only [Option.toList_some, List.map_cons, List.map_nil, required, proceed, readStatus,
    Status.ofName?_name] at writes
  cases writes
  exact ⟨rfl, rfl, hne⟩

/-- **A creation stays**: from its end on, the tables have its order, in a later version and with
all of its parts. -/
theorem shown_of_created {order stored : Order}
    (h : Called moves who past zs (.create order) (.ok stored)) :
    stored = { order with
      id := stored.id, createdAt := stored.createdAt, updatedAt := stored.updatedAt } ∧
    ∃ v, (databaseAt moves).state.tables.shown? stored.id = some v ∧ stored.recalled.Evolves v := by
  obtain ⟨⟨rest, hown⟩, creates⟩ := h
  have hends : CallEnds (.create order) zs (.ok stored) := (keeps_call _).of_reaches creates
  obtain ⟨zs', added, added', made, rfl, adding, rfl⟩ := hends stored rfl
  obtain ⟨s, hs⟩ := sound_databaseAt moves
  have htold : ∀ x ∈ zs' ++ [sent added .commit (.ok ()) added'],
      (who, x) ∈ (databaseAt moves).exchanges := fun x hx => by
    refine mem_own.mp ?_
    rw [hown]
    exact List.mem_append_right _ (List.mem_append_left _ hx)
  obtain ⟨now, hmade, hadded⟩ := adding.rows fun x hx =>
    hs.sane (htold x (List.mem_append_left _ hx))
  obtain ⟨o, cur, hrows, hcur, hevolves⟩ := hs.tells (htold _ List.mem_concat_self)
  obtain rfl : numbered order made.id now = o := newRows_inj (hadded.symm.trans hrows)
  rw [hmade] at *
  refine ⟨rfl, cur.recalled, ?_, hevolves.recalled⟩
  rw [hs.tables, shown?_of]
  exact congrArg (Option.map Order.recalled) hcur

/-- **The gaps between the statements are safe**, whatever visits share the tables and however their
statements come between each other. Every row is that of an order that can be read, and has an id of
its own. With each move the orders that are there stay as they are or take a step of their lives,
and new ones wait for their payment. A look tells what was there at its first statement; an order
that was created before is there then, with all of its parts. They are in the order in which they
were given while their numbers do not wrap around: an order comes in one message of less than
`2 ^ 32` bytes, and each of its parts takes two of them. A conflict never has the status that was
expected. -/
theorem gaps_safe (moves : List (Move Visit Draw)) :
    ((databaseAt moves).state.tables.orders.map (·.id)).Nodup ∧
    (∀ r ∈ (databaseAt moves).state.tables.orders, ∃ v,
      (databaseAt moves).state.tables.shown? r.id = some v ∧ r = Record.ofOrder v ∧ v.Unpaid) ∧
    (∀ m id,
      (∀ v, (databaseAt moves).state.tables.shown? id = some v →
        ∃ w, (databaseAt (moves ++ [m])).state.tables.shown? id = some w ∧ v.Succeeds w) ∧
      ((databaseAt moves).state.tables.shown? id = none →
        ∀ w, (databaseAt (moves ++ [m])).state.tables.shown? id = some w → w.Fresh)) ∧
    (∀ who past zs id result, Called moves who past zs (.load id) result →
      ∃ before m after, moves = before ++ m :: after ∧
        own who (databaseAt before).exchanges = past ∧
        own who (databaseAt (before ++ [m])).exchanges = past ++ zs.take 1 ∧
        result = (databaseAt before).state.tables.looked id ∧
        ∀ who' past' zs' order stored, Called before who' past' zs' (.create order) (.ok stored) →
          stored.id = id → ∃ v, result = .ok v ∧ stored.recalled.Evolves v ∧
            v.parts.Perm order.parts ∧ (order.parts.length ≤ mostParts → v.parts = order.parts)) ∧
    (∀ who past zs order expected id e actual,
      Called moves who past zs (.update order expected) (.error (.conflict id e actual)) →
        id = order.id ∧ e = expected ∧ actual ≠ expected) := by
  obtain ⟨s, hs⟩ := sound_databaseAt moves
  refine ⟨?_, fun r hr => ?_, fun m id => ?_, fun who past zs id result h => ?_,
    fun who past zs order expected id e actual h => conflict_differs h⟩
  · rw [hs.tables, Tables.of, List.map_map]
    exact s.nodup
  · rw [hs.tables] at hr ⊢
    obtain ⟨v, hv, rfl⟩ := List.mem_map.mp hr
    refine ⟨v.recalled, ?_, rfl, hs.unpaid v hv⟩
    rw [shown?_of]
    exact congrArg (Option.map Order.recalled) (Store.find?_of_mem hv)
  · obtain ⟨s', hs', hsteps⟩ := sound_move hs m
    rw [hs.tables, hs'.tables, shown?_of, shown?_of]
    refine ⟨fun v hv => ?_, fun hn w hw => ?_⟩
    · obtain ⟨u, hu, rfl⟩ := Option.map_eq_some_iff.mp hv
      obtain ⟨w, hw, hsucceeds⟩ := (hsteps id).1 u hu
      exact ⟨w.recalled, by rw [hw]; rfl, hsucceeds.recalled⟩
    · obtain ⟨u, hu, rfl⟩ := Option.map_eq_some_iff.mp hw
      obtain ⟨hstatus, htransaction, hmethod⟩ := (hsteps id).2 (Option.map_eq_none_iff.mp hn) u hu
      exact ⟨hstatus, htransaction, hmethod⟩
  · obtain ⟨before, m, after, rfl, hpast, hlast, rfl⟩ := load_at_first h
    refine ⟨before, m, after, rfl, hpast, hlast, rfl, ?_⟩
    rintro who' past' zs' order stored created rfl
    obtain ⟨hstored, v, hv, hevolves⟩ := shown_of_created created
    have hparts : v.parts = recalled stored.id order.parts := by
      rw [hevolves.identity.parts, Order.recalled, hstored]
    refine ⟨v, by rw [Tables.looked, hv], hevolves, hparts ▸ recalled_perm _ _, fun few => ?_⟩
    rw [hparts, recalled_eq _ few]

/-- An order that waits for its payment. -/
def waiting : Order := Order.placed .nil .epoch "u-1" ["p-1"] 1

/-- The order as a payer would leave it. -/
def settled : Order :=
  { waiting with status := .paid, transaction := some "t-1", method := some .card }

/-- The order is placed, and a payer looks at it. Before the parts are read it is cancelled. -/
def overtaken : List (Move Visit Draw) :=
  (.arrive placer :: List.replicate 6 (.proceed 0 ⟨.nil, .epoch⟩)) ++
    [.arrive payer, .arrive canceller, .proceed 1 ⟨.nil, .epoch⟩] ++
    List.replicate 4 (.proceed 2 ⟨.nil, .epoch⟩) ++ List.replicate 4 (.proceed 1 ⟨.nil, .epoch⟩)

/-- What the payer is told before the charge. -/
def looks : List Sent :=
  [sent .empty (.selectOrder .nil) (.ok [(Record.ofOrder waiting).toRow]) .empty,
    sent .empty (.selectParts .nil) (.ok [some "p-1"]) .empty]

/-- What the payer is told of the charge. -/
def charges : List Sent := [⟨.outside (.charge .nil "u-1" .card), .ok "t-1"⟩]

/-- What the payer is told after the charge. -/
def misses : List Sent :=
  [sent .empty (updateOrder settled .pendingPayment) (.ok (0 : Nat)) .empty,
    sent .empty (.selectStatus .nil) (.ok [some Status.cancelled.name]) .empty]

set_option maxRecDepth 20000 in
theorem own_overtaken : own 1 (databaseAt overtaken).exchanges = looks ++ (charges ++ misses) := by
  with_unfolding_all rfl

/-- The payer still sees the order that waits, and is told later what it has become. -/
theorem gaps_safe_overtaken :
    Called overtaken 1 [] looks (.load .nil) (.ok waiting) ∧
      (∃ before m after, overtaken = before ++ m :: after ∧
        own 1 (databaseAt (before ++ [m])).exchanges = looks.take 1 ∧
        Except.ok waiting = (databaseAt before).state.tables.looked .nil) ∧
      Called overtaken 1 (looks ++ charges) misses (.update settled .pendingPayment)
        (.error (.conflict .nil .pendingPayment .cancelled)) ∧
      Status.cancelled ≠ .pendingPayment := by
  obtain ⟨-, -, -, hlooks, hconflicts⟩ := gaps_safe overtaken
  have looked : Called overtaken 1 [] looks (.load .nil) (.ok waiting) :=
    ⟨⟨_, own_overtaken⟩, .on (.on (.here _))⟩
  have missed : Called overtaken 1 (looks ++ charges) misses (.update settled .pendingPayment)
      (.error (.conflict .nil .pendingPayment .cancelled)) :=
    ⟨⟨[], own_overtaken⟩, .on (.on (.here _))⟩
  obtain ⟨before, m, after, hmoves, -, hlast, hlooked, -⟩ := hlooks _ _ _ _ _ looked
  exact ⟨looked, ⟨before, m, after, hmoves, hlast, hlooked⟩, missed,
    (hconflicts _ _ _ _ _ _ _ _ missed).2.2⟩

end Sql

end OrderDesk
