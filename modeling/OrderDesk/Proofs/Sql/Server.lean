import OrderDesk.Proofs.Sql.Sending
import OrderDesk.Proofs.Traffic.Moment

/-!
# Visits that share the tables

Visits to the desk, with the store in the tables of one server. Each statement is carried out as a
whole, and between two statements of a visit any others may be. What visits were told of the tables
stays true of them, up to later versions, as nothing that was shown goes back.

## Main definitions

* `Server`, `Server.answer`, `atServer`: the tables, and visits that share them
* `Tells`, `Sane`, `Inserts`: what an exchange tells of the tables
* `Sound`: the tables are those of a store, and all that was told is true of it
* `Store.Steps`: what an exchange can do to the orders

## Main results

* `keeps_atServer`: the law of a visit that works with the tables
* `Tells.mono`: what was told stays true
* `Sound.extend`: what an exchange has to say for all to stay sound
-/

namespace OrderDesk

/-- **What one exchange can do to the orders**: each stays, or takes one step of its life, and new
ones wait for their payment. -/
def Store.Steps (s s' : Store) : Prop :=
  ∀ id, (∀ v, s.find? id = some v → ∃ w, s'.find? id = some w ∧ v.Succeeds w) ∧
    (s.find? id = none → ∀ w, s'.find? id = some w → w.Fresh)

theorem Store.Steps.refl (s : Store) : s.Steps s :=
  fun _ => ⟨fun v hv => ⟨v, hv, .refl v⟩, fun hn w hw => by rw [hn] at hw; cases hw⟩

theorem Store.Steps.evolves {s s' : Store} (h : s.Steps s') : s.Evolves s' := by
  intro id v hv
  obtain ⟨w, hw, hsucceeds⟩ := (h id).1 v hv
  exact ⟨w, hw, hsucceeds.evolves⟩

/-- **Nothing has been paid** while an order waits for it. -/
def Order.Unpaid (v : Order) : Prop :=
  v.status = .pendingPayment → v.transaction = none ∧ v.method = none

theorem Order.Succeeds.unpaid {v w : Order} (h : v.Succeeds w) (hv : v.Unpaid) : w.Unpaid := by
  intro hw
  have hpending : v.status = .pendingPayment := by
    rcases h.status with hs | hs
    · exact hs.symm.trans hw
    · rw [hw] at hs
      cases hv' : v.status <;> simp [hv', Status.canBecome] at hs
  rcases h.payment with hp | ⟨-, hpaid⟩
  · exact ⟨hp.transaction.trans (hv hpending).1, hp.method.trans (hv hpending).2⟩
  · rw [hw] at hpaid
    cases hpaid

namespace Sql

open Desk (Visit Draw Outcomes)

/-! ## The server -/

/-- **A server**: the tables, and the ids that it has made up. -/
structure Server where
  tables : Tables
  made : List Uuid

/-- A server without orders. -/
def Server.empty : Server := ⟨.empty, []⟩

/-- What the others say to a visit. They do not answer for the store. -/
def outside (o : Outcomes) : (call : Call) → Option call.Answer
  | .listParts _ => some o.parts
  | .charge _ _ _ => some o.charge
  | .publish _ => some o.publish
  | .count _ => some ()
  | .create _ | .load _ | .update _ _ => none

/-- Whether a statement lets the server make up an id. -/
def Statement.makesUp : Statement → Bool
  | .insertOrder .. => true
  | _ => false

/-- **What a statement is answered** on a connection, and what its transaction has added then. -/
def Connection.report (conn : Connection) (c : Draw) (q : Statement) : q.Answer × Tables :=
  ((conn.answer c.id c.now q).1, (conn.answer c.id c.now q).2.added)

/-- **The answers of a server**, with the id and the instant that it makes up. A row whose id was
made up before, but is not to be seen, waits: a transaction that is not over may have added it. -/
def Server.answer (o : Outcomes) (c : Draw) : (q : Query) → Server → Option q.Answer × Server
  | .outside call, srv => (outside o call, srv)
  | .statement added q, srv =>
    if q.makesUp && srv.made.contains c.id && !srv.tables.hasOrder c.id then (none, srv)
    else
      let c' := (⟨srv.tables, added⟩ : Connection).answer c.id c.now q
      (some (c'.1, c'.2.added), ⟨c'.2.tables, if q.makesUp then c.id :: srv.made else srv.made⟩)

/-- **The rules of visits that share the tables** of a server. -/
def atServer : Rules Visit Draw Query Query.Answer Desk.Reply Server where
  program v := v.program.through inDatabase
  answer v c := Server.answer v.outcomes c

/-- The law of a visit that works with the tables. -/
def lawAt (v : Visit) : Law Query Query.Answer Desk.Reply := (Desk.law v).over callLaw

/-- **Every visit keeps the law**: it asks what the desk may ask, by the statements of its calls. -/
theorem keeps_atServer (v : Visit) : (atServer.program v).Keeps (lawAt v) [] :=
  (Desk.keeps_law v).through keeps_call .nil

/-! ## What an exchange tells -/

/-- **What an exchange tells of the orders**, for all times: a row was shown, a write did not find
the status that it expected, or rows were added. -/
def Tells (s : Store) : Sent → Prop
  | ⟨.statement _ (.selectOrder id), (.ok (row :: _), _)⟩ =>
    ∃ u cur, row = (Record.ofOrder u).toRow ∧ s.find? id = some cur ∧ u.Evolves cur
  | ⟨.statement _ (.updateOrder _ _ _ id expected), (.ok changed, _)⟩ =>
    @Eq Nat changed 0 → ∃ (e : Status) (cur : Order), expected = e.name ∧
      s.find? id = some cur ∧ e.LeadsTo cur.status ∧ cur.status ≠ e
  | ⟨.statement added .commit, _⟩ =>
    ∃ o cur, added = newRows o o.parts ∧ s.find? o.id = some cur ∧ o.Evolves cur
  | _ => True

/-- **An answer of the tables**, such as they were. -/
def Sane : Sent → Prop
  | ⟨.outside _, _⟩ => True
  | ⟨.statement added q, a⟩ => ∃ (tables : Tables) (c : Draw),
    a = (⟨tables, added⟩ : Connection).report c q

/-- **A row was added under an id** that the server made up. -/
def Inserts (id : Uuid) : Sent → Prop
  | ⟨.statement _ (.insertOrder ..), (.ok (row :: _), _)⟩ => row.id = some id
  | _ => False

/-- What was told stays true of later versions. -/
theorem Tells.mono {s s' : Store} (evolves : s.Evolves s') {x : Sent} (h : Tells s x) :
    Tells s' x := by
  unfold Tells at h ⊢
  split at h
  · obtain ⟨u, cur, hrow, hcur, hu⟩ := h
    obtain ⟨cur', hcur', hevolves⟩ := evolves _ cur hcur
    exact ⟨u, cur', hrow, hcur', hu.trans hevolves⟩
  · intro hnone
    obtain ⟨e, cur, he, hcur, hleads, hne⟩ := h hnone
    obtain ⟨cur', hcur', hevolves⟩ := evolves _ cur hcur
    refine ⟨e, cur', he, hcur', hleads.trans hevolves.status, fun hback => hne ?_⟩
    exact (hback ▸ hevolves.status).antisymm hleads
  · obtain ⟨o, cur, hadded, hcur, ho⟩ := h
    obtain ⟨cur', hcur', hevolves⟩ := evolves _ cur hcur
    exact ⟨o, cur', hadded, hcur', ho.trans hevolves⟩
  · trivial

/-! ## What holds at all times -/

/-- **The tables are those of a store**, and all that was told is true of it. An id that was made up
for a row was made up once, and orders that are there were added and committed by one visit. -/
structure Sound (srv : Server) (xs : List (Nat × Sent)) (s : Store) : Prop where
  tables : srv.tables = Tables.of s.orders
  unpaid : ∀ v ∈ s.orders, v.Unpaid
  tells : ∀ {who x}, (who, x) ∈ xs → Tells s x
  sane : ∀ {who x}, (who, x) ∈ xs → Sane x
  made : ∀ {who x id}, (who, x) ∈ xs → Inserts id x → id ∈ srv.made
  single : ∀ {who who' x x' id}, (who, x) ∈ xs → (who', x') ∈ xs → Inserts id x → Inserts id x' →
    who = who'
  committed : ∀ {id}, s.uses id = true → ∃ who x y, (who, x) ∈ xs ∧ Inserts id x ∧
    (who, y) ∈ xs ∧ y.question.commits = true

variable {srv srv' : Server} {xs : List (Nat × Sent)} {s s' : Store} {who : Nat} {x : Sent}
  {o : Outcomes} {c : Draw}

theorem sound_empty : Sound .empty [] .empty where
  tables := rfl
  unpaid v hv := absurd hv List.not_mem_nil
  tells hx := absurd hx List.not_mem_nil
  sane hx := absurd hx List.not_mem_nil
  made hx := absurd hx List.not_mem_nil
  single hx := absurd hx List.not_mem_nil
  committed h := by cases h

/-- **An exchange more.** -/
theorem Sound.extend (h : Sound srv xs s) (steps : s.Steps s')
    (tables : srv'.tables = Tables.of s'.orders) (grows : srv.made ⊆ srv'.made) (tells : Tells s' x)
    (sane : Sane x) (inserts : ∀ id, Inserts id x → id ∈ srv'.made ∧ id ∉ srv.made)
    (commits : ∀ id, s'.uses id = true → s.uses id = true ∨
      x.question.commits = true ∧ ∃ y, (who, y) ∈ xs ∧ Inserts id y) :
    Sound srv' (xs ++ [(who, x)]) s' where
  tables := tables
  unpaid v hv := by
    have hfind := Store.find?_of_mem hv
    cases hv' : s.find? v.id with
    | none => exact fun _ =>
        ⟨((steps v.id).2 hv' v hfind).transaction, ((steps v.id).2 hv' v hfind).method⟩
    | some u =>
      obtain ⟨w, hw, hsucceeds⟩ := (steps v.id).1 u hv'
      obtain rfl := Option.some.inj (hfind.symm.trans hw)
      exact hsucceeds.unpaid (h.unpaid u (List.mem_of_find?_eq_some hv'))
  tells hx := by
    rcases List.mem_append.mp hx with hx | hx
    · exact (h.tells hx).mono steps.evolves
    · obtain ⟨-, rfl⟩ := Prod.mk.inj (List.mem_singleton.mp hx)
      exact tells
  sane hx := by
    rcases List.mem_append.mp hx with hx | hx
    · exact h.sane hx
    · obtain ⟨-, rfl⟩ := Prod.mk.inj (List.mem_singleton.mp hx)
      exact sane
  made hx hid := by
    rcases List.mem_append.mp hx with hx | hx
    · exact grows (h.made hx hid)
    · obtain ⟨-, rfl⟩ := Prod.mk.inj (List.mem_singleton.mp hx)
      exact (inserts _ hid).1
  single hx hx' hid hid' := by
    rcases List.mem_append.mp hx with old | new <;> rcases List.mem_append.mp hx' with old' | new'
    · exact h.single old old' hid hid'
    · obtain ⟨-, rfl⟩ := Prod.mk.inj (List.mem_singleton.mp new')
      exact absurd (h.made old hid) (inserts _ hid').2
    · obtain ⟨-, rfl⟩ := Prod.mk.inj (List.mem_singleton.mp new)
      exact absurd (h.made old' hid') (inserts _ hid).2
    · obtain ⟨rfl, -⟩ := Prod.mk.inj (List.mem_singleton.mp new)
      obtain ⟨rfl, -⟩ := Prod.mk.inj (List.mem_singleton.mp new')
      rfl
  committed hid := by
    rcases commits _ hid with hid | ⟨hcommits, y, hy, hid⟩
    · obtain ⟨who', y, z, hy, hinserts, hz, hcommits⟩ := h.committed hid
      exact ⟨who', y, z, List.mem_append_left _ hy, hinserts, List.mem_append_left _ hz, hcommits⟩
    · exact ⟨who, y, x, List.mem_append_left _ hy, hid, List.mem_append_right _ (by simp), hcommits⟩

/-- An exchange more that leaves the tables as they are. -/
theorem Sound.quiet (h : Sound srv xs s) (tables : srv'.tables = srv.tables)
    (grows : srv.made ⊆ srv'.made) (tells : Tells s x) (sane : Sane x)
    (inserts : ∀ id, Inserts id x → id ∈ srv'.made ∧ id ∉ srv.made) :
    Sound srv' (xs ++ [(who, x)]) s :=
  h.extend (.refl s) (tables.trans h.tables) grows tells sane inserts fun _ hid => .inl hid

/-! ## Answers -/

/-- **An answer to a statement.** A row is added under an id that is there, and so refused, or under
one that was not made up before. -/
theorem answer_statement {added : Tables} {q : Statement} {a : Query.Answer (.statement added q)}
    (h : Server.answer o c (.statement added q) srv = (some a, srv')) :
    a = (⟨srv.tables, added⟩ : Connection).report c q ∧
    srv'.tables = ((⟨srv.tables, added⟩ : Connection).answer c.id c.now q).2.tables ∧
    srv.made ⊆ srv'.made ∧
    (q.makesUp = true → c.id ∈ srv'.made ∧
      (srv.tables.hasOrder c.id = false → c.id ∉ srv.made)) := by
  simp only [Server.answer] at h
  split at h
  · cases h
  · rename_i hwaits
    obtain ⟨rfl, rfl⟩ := Desk.answered_inj h
    refine ⟨rfl, rfl, ?_, fun hmakes => ⟨by simp [hmakes], fun hnew hmade => hwaits ?_⟩⟩
    · split
      · exact List.subset_cons_self _ _
      · exact List.Subset.refl _
    · simp [hmakes, hnew, hmade]

/-- Outside of any transaction a statement is answered from the store. -/
theorem Sound.report (h : Sound srv xs s) (c : Draw) (q : Statement) :
    (⟨srv.tables, .empty⟩ : Connection).report c q = (idle s).report c q := by
  rw [h.tables, idle]

theorem sane_of_answer {q : Query} {a : q.Answer}
    (h : Server.answer o c q srv = (some a, srv')) : Sane ⟨q, a⟩ := by
  cases q with
  | outside call => trivial
  | statement added q => exact ⟨srv.tables, c, (answer_statement h).1⟩

/-- Only commits and writes change the tables. -/
theorem tables_answer (fresh : Uuid) (now : Instant) {q : Statement} (c : Connection)
    (commit : q ≠ .commit)
    (update : ∀ status transaction method id expected,
      q ≠ .updateOrder status transaction method id expected) :
    (c.answer fresh now q).2.tables = c.tables := by
  cases q with
  | commit => exact absurd rfl commit
  | updateOrder status transaction method id expected =>
    exact absurd rfl (update status transaction method id expected)
  | insertOrder user total status transaction method =>
    simp only [Connection.answer]
    split
    · rfl
    · split
      · rfl
      · split <;> rfl
  | insertPart order position part =>
    simp only [Connection.answer]
    split
    · rfl
    · split <;> rfl
  | _ => rfl

theorem answer_insertOrder_ok {fresh : Uuid} {now : Instant} {order : Order} {c c' : Connection}
    {rows : List CreatedRow} (h : c.answer fresh now (insertOrder order) = (.ok rows, c')) :
    rows = [⟨some fresh, some now, some now⟩] ∧ c.view.hasOrder fresh = false ∧
      c' = { c with added := { c.added with
        orders := c.added.orders ++ [Record.ofOrder (numbered order fresh now)] } } := by
  simp only [Connection.answer, insertOrder] at h
  split at h
  · cases h
  · split at h
    · cases h
    · split at h
      · cases h
      · rename_i hfree
        obtain ⟨hrows, rfl⟩ := Prod.mk.inj h
        exact ⟨(Except.ok.inj hrows).symm, by simpa using hfree, rfl⟩

theorem answer_insertPart_ok {fresh : Uuid} {now : Instant} {id : Uuid} {position : Int32}
    {part : String} {c c' : Connection} {changed : Nat}
    (h : c.answer fresh now (.insertPart id position part) = (.ok changed, c')) :
    c' = { c with added := { c.added with parts := c.added.parts ++ [⟨id, position, part⟩] } } := by
  simp only [Connection.answer] at h
  split at h
  · cases h
  · split at h
    · cases h
    · exact (Prod.mk.inj h).2.symm

end Sql

end OrderDesk
