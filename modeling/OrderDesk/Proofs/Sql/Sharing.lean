import OrderDesk.Proofs.Sql.Server

/-!
# One exchange with the shared tables

Whatever a visit may ask, the tables stay those of a store, and all that was told stays true. A
write comes from a copy that was shown, so it is a step if it lands. A commit makes an order visible
whose id only this visit could use.

## Main results

* `Adding.rows`: what a creation has added
* `Sound.copy`: a copy is an earlier version of what is there
* `Sound.updateOrder`, `Sound.commit`: the statements that change the tables
* `Sound.exchange`: one exchange of a lawful visit
-/

namespace OrderDesk

namespace Sql

open Desk (Visit Draw Outcomes)

variable {srv srv' : Server} {xs : List (Nat × Sent)} {s s' : Store} {who : Nat} {x : Sent}
  {o : Outcomes} {c : Draw}

/-! ## Creations -/

/-- **What a creation has added**: the row of the order, with what was made up for it, and the rows
of its first parts. -/
theorem Adding.rows {order : Order} {made : Created} {zs : List Sent} {added : Tables}
    {done : List String} (h : Adding order made zs added done) (sane : ∀ x ∈ zs, Sane x) :
    ∃ now, made = ⟨made.id, now, now⟩ ∧ added = newRows (numbered order made.id now) done := by
  induction h with
  | @order begun added row rows read =>
    obtain ⟨tables, c, hbegun⟩ := sane _ List.mem_cons_self
    obtain ⟨tables', c', hadded⟩ := sane _ (List.mem_cons_of_mem _ List.mem_cons_self)
    obtain rfl : begun = .empty := (Prod.mk.inj hbegun).2
    obtain ⟨hrows, rfl⟩ := Prod.mk.inj hadded
    obtain ⟨hmade, -, hc⟩ := answer_insertOrder_ok (Prod.ext hrows.symm rfl)
    obtain ⟨rfl, -⟩ := List.cons.inj hmade
    obtain rfl : _ = made := Except.ok.inj read
    exact ⟨c'.now, rfl, congrArg Connection.added hc⟩
  | @part zs added done adding part changed added' ih =>
    obtain ⟨now, hmade, rfl⟩ := ih fun x hx => sane x (List.mem_append_left _ hx)
    obtain ⟨tables, c, hadded⟩ := sane _ (List.mem_append_right _ (List.mem_singleton_self _))
    obtain ⟨hchanged, rfl⟩ := Prod.mk.inj hadded
    have hc := answer_insertPart_ok (Prod.ext hchanged.symm rfl)
    refine ⟨now, hmade, (congrArg Connection.added hc).trans ?_⟩
    simp [newRows, partRows_append, partRows, numbered]

/-- The row of the order was added under the id that was made up. -/
theorem Adding.inserts {order : Order} {made : Created} {zs : List Sent} {added : Tables}
    {done : List String} (h : Adding order made zs added done) : ∃ x ∈ zs, Inserts made.id x := by
  induction h with
  | @order begun added row rows read =>
    refine ⟨_, List.mem_cons_of_mem _ List.mem_cons_self, ?_⟩
    obtain ⟨id, createdAt, updatedAt⟩ := row
    cases id <;> cases createdAt <;> cases updatedAt <;> cases read
    rfl
  | part adding part changed added' ih =>
    obtain ⟨x, hx, hinserts⟩ := ih
    exact ⟨x, List.mem_append_left _ hx, hinserts⟩

/-- Nothing of it has been committed. -/
theorem Adding.uncommitted {order : Order} {made : Created} {zs : List Sent} {added : Tables}
    {done : List String} (h : Adding order made zs added done) :
    ∀ x ∈ zs, x.question.commits = false := by
  induction h with
  | order read =>
    intro x hx
    rcases List.mem_cons.mp hx with rfl | hx
    · rfl
    · obtain rfl := List.mem_singleton.mp hx
      rfl
  | part adding part changed added' ih =>
    intro x hx
    rcases List.mem_append.mp hx with hx | hx
    · exact ih x hx
    · obtain rfl := List.mem_singleton.mp hx
      rfl

/-! ## Copies -/

/-- **A copy that was loaded** is an earlier version of what is there, but for its parts. -/
theorem Sound.copy (h : Sound srv xs s) {cs : List (Exchange Call Call.Answer)} {ys : List Sent}
    (carried : Carried callLaw cs ys) (told : ys ⊆ own who xs) {id : Uuid} {copy : Order}
    (loaded : Desk.loaded id copy ∈ cs) :
    ∃ (u cur : Order) (parts : List String), copy = { u with parts } ∧ s.find? id = some cur ∧
      u.Evolves cur := by
  obtain ⟨zs, hended, hsub⟩ := carried.mem loaded
  obtain ⟨row, rows, added, record, parts, hsent, hread, horder⟩ := hended copy rfl
  obtain ⟨u, cur, rfl, hcur, hu⟩ := h.tells (mem_own.mp (told (hsub hsent)))
  obtain rfl : Record.ofOrder u = record := Except.ok.inj hread
  rw [toOrder_ofOrder] at horder
  exact ⟨u, cur, parts, (Except.ok.inj horder).symm, hcur, hu⟩

/-- What follows a copy follows the order that was copied, whatever its parts. -/
theorem succeeds_of_parts {u w : Order} {parts : List String}
    (h : ({ u with parts } : Order).Succeeds w) : u.Succeeds { w with parts := u.parts } where
  identity := ⟨h.identity.id, h.identity.user, rfl, h.identity.total, h.identity.createdAt⟩
  status := h.status
  payment := h.payment.imp_left fun p => ⟨p.transaction, p.method⟩

/-- **A write from a copy** is a step. -/
theorem steps_of_update {u cur w : Order} {parts : List String} {id : Uuid} {now : Instant}
    (found : s.find? id = some cur) (evolves : u.Evolves cur)
    (succeeds : ({ u with parts } : Order).Succeeds w) (lands : s.update w u.status now = .ok s') :
    s.Steps s' := by
  have hid : w.id = cur.id := succeeds.identity.id.trans evolves.identity.id.symm
  have hcur : s.find? w.id = some cur := by
    rw [hid, Store.id_of_find? found]
    exact found
  obtain ⟨cur', hcur', hstatus, -⟩ := Store.update_eq_ok_iff.mp lands
  obtain rfl : cur = cur' := Option.some.inj (hcur.symm.trans hcur')
  have hstep := evolves.succeeds_revised hstatus (succeeds_of_parts succeeds) now
  refine fun other => ⟨fun v hv => ?_, fun hn x hx => ?_⟩
  · rw [Store.find?_of_update lands, hv]
    refine ⟨_, rfl, ?_⟩
    split
    · rename_i hother
      rw [hother, hcur] at hv
      obtain rfl := Option.some.inj hv
      exact hstep
    · exact .refl v
  · rw [Store.find?_of_update lands, hn] at hx
    cases hx

/-- **An order more** that waits for its payment is a step. -/
theorem steps_of_add {order : Order} (unused : s.uses order.id = false) (fresh : order.Fresh) :
    s.Steps (s.add order unused) := by
  have hnone : s.find? order.id = none := by simpa [Store.uses_eq_isSome] using unused
  refine fun id => ⟨fun v hv => ?_, fun hn w hw => ?_⟩
  · refine ⟨v, ?_, .refl v⟩
    rw [Store.find?_add, if_neg]
    · exact hv
    · rintro rfl
      rw [hnone] at hv
      cases hv
  · rw [Store.find?_add] at hw
    split at hw
    · obtain rfl := Option.some.inj hw
      exact fresh
    · rw [hn] at hw
      cases hw

/-! ## One exchange -/

variable {v : Visit}

/-- A statement that only looks, or adds to a transaction, tells nothing that could change. -/
theorem Sound.statement (h : Sound srv xs s) {added : Tables} {q : Statement}
    {a : Query.Answer (.statement added q)}
    (answered : Server.answer o c (.statement added q) srv = (some a, srv'))
    (commit : q ≠ .commit)
    (update : ∀ status transaction method id expected,
      q ≠ .updateOrder status transaction method id expected)
    (tells : Tells s ⟨.statement added q, a⟩)
    (inserts : ∀ id, Inserts id ⟨.statement added q, a⟩ → id ∈ srv'.made ∧ id ∉ srv.made) :
    Sound srv' (xs ++ [(who, ⟨.statement added q, a⟩)]) s :=
  h.quiet ((answer_statement answered).2.1.trans (tables_answer _ _ _ commit update))
    (answer_statement answered).2.2.1 tells (sane_of_answer answered) inserts

/-- A look at an order tells what is there. -/
theorem Sound.selectOrder (h : Sound srv xs s) {id : Uuid}
    {a : Query.Answer (.statement .empty (.selectOrder id))}
    (answered : Server.answer o c (.statement .empty (.selectOrder id)) srv = (some a, srv')) :
    Sound srv' (xs ++ [(who, ⟨.statement .empty (.selectOrder id), a⟩)]) s := by
  refine h.statement answered (by simp) (by simp) ?_ fun _ hid => hid.elim
  obtain ⟨ha, -⟩ := answer_statement answered
  rw [h.report, Connection.report, answer_selectOrder] at ha
  subst ha
  cases hfind : s.find? id with
  | none => trivial
  | some u => exact ⟨u, u, rfl, hfind, .refl u⟩

/-- **A write from a copy** lands and is a step, or the expected status has been left. -/
theorem Sound.updateOrder (h : Sound srv xs s) {w : Order} {expected : Status}
    {a : Query.Answer (.statement .empty (updateOrder w expected))}
    (answered : Server.answer o c (.statement .empty (updateOrder w expected)) srv = (some a, srv'))
    {u cur : Order} {parts : List String} {id : Uuid} (found : s.find? id = some cur)
    (evolves : u.Evolves cur) (succeeds : ({ u with parts } : Order).Succeeds w)
    (same : u.status = expected) :
    ∃ s', Sound srv' (xs ++ [(who, ⟨.statement .empty (Sql.updateOrder w expected), a⟩)]) s' ∧
      s.Steps s' := by
  subst same
  have hsane := sane_of_answer answered
  obtain ⟨ha, htables, hgrows, -⟩ := answer_statement answered
  have hanswer := answer_updateOrder c.id c.now s w u.status .empty
  rw [← h.tables] at hanswer
  have hcur : s.find? w.id = some cur := by
    rw [succeeds.identity.id.trans evolves.identity.id.symm, Store.id_of_find? found]
    exact found
  cases hupdate : s.update w u.status c.now with
  | ok s' =>
    rw [hupdate] at hanswer
    rw [Connection.report, hanswer] at ha
    rw [hanswer] at htables
    subst ha
    have hsteps := steps_of_update found evolves succeeds hupdate
    refine ⟨s', h.extend hsteps htables hgrows (fun hnone => by cases hnone) hsane
      (fun _ hid => hid.elim) (fun id hid => .inl ?_), hsteps⟩
    rwa [← Store.uses_of_update hupdate]
  | error e =>
    rw [hupdate] at hanswer
    rw [Connection.report, hanswer] at ha
    rw [hanswer] at htables
    subst ha
    have hne : cur.status ≠ u.status := fun he => by
      rw [Store.update_of_find? hcur he] at hupdate
      cases hupdate
    exact ⟨s, h.quiet htables hgrows
      (fun _ => ⟨u.status, cur, rfl, hcur, evolves.status, hne⟩) hsane fun _ hid => hid.elim,
      .refl s⟩

/-- **A commit** makes the order visible, under an id that was not there. -/
theorem Sound.commit (h : Sound srv xs s) {order : Order} {made : Created} {zs : List Sent}
    {added : Tables} {a : Query.Answer (.statement added .commit)}
    (answered : Server.answer o c (.statement added .commit) srv = (some a, srv'))
    (adding : Adding order made zs added order.parts) (told : zs ⊆ own who xs)
    (uncommitted : ∀ x ∈ own who xs, x.question.commits = false) (fresh : order.Fresh) :
    ∃ s', Sound srv' (xs ++ [(who, ⟨.statement added .commit, a⟩)]) s' ∧ s.Steps s' := by
  obtain ⟨now, -, rfl⟩ := adding.rows fun x hx => h.sane (mem_own.mp (told hx))
  obtain ⟨y, hy, hinserts⟩ := adding.inserts
  have hy := mem_own.mp (told hy)
  -- whoever is there was committed by the visit that added it, and that is this one
  have hunused : s.uses (numbered order made.id now).id = false := by
    rw [Bool.eq_false_iff]
    intro huses
    obtain ⟨who', x, z, hx, hid, hz, hcommits⟩ := h.committed huses
    obtain rfl := h.single hx hy hid hinserts
    rw [uncommitted z (mem_own.mpr hz)] at hcommits
    cases hcommits
  have hsteps := steps_of_add hunused
    ⟨fresh.status, fresh.transaction, fresh.method⟩
  obtain ⟨-, htables, hgrows, -⟩ := answer_statement answered
  refine ⟨_, h.extend hsteps ?_ hgrows ?_ (sane_of_answer answered) (fun _ hid => hid.elim)
    (fun id hid => ?_), hsteps⟩
  · rw [htables]
    exact (congrArg (Tables.append · _) h.tables).trans (Tables.of_append s.orders _).symm
  · exact ⟨_, _, rfl, by rw [Store.find?_add, if_pos rfl], .refl _⟩
  · rw [Store.uses_eq_isSome, Store.find?_add] at hid
    split at hid
    · rename_i he
      exact .inr ⟨rfl, y, hy, he ▸ hinserts⟩
    · exact .inl (by rwa [Store.uses_eq_isSome])

/-- **A new row** has an id that was not made up before. -/
theorem Sound.insertOrder (h : Sound srv xs s) {order : Order} {added : Tables}
    {a : Query.Answer (.statement added (insertOrder order))}
    (answered : Server.answer o c (.statement added (insertOrder order)) srv = (some a, srv')) :
    Sound srv' (xs ++ [(who, ⟨.statement added (Sql.insertOrder order), a⟩)]) s := by
  refine h.statement answered (by simp [Sql.insertOrder]) (by simp [Sql.insertOrder]) trivial ?_
  obtain ⟨ha, -, -, hmakes⟩ := answer_statement answered
  rcases a with ⟨reason | rows, added'⟩
  · exact fun _ hid => hid.elim
  cases rows with
  | nil => exact fun _ hid => hid.elim
  | cons row rows =>
    intro id hid
    obtain ⟨hrows, hfree, -⟩ := answer_insertOrder_ok (Prod.ext (Prod.mk.inj ha).1.symm rfl)
    obtain ⟨rfl, -⟩ := List.cons.inj hrows
    obtain rfl : c.id = id := Option.some.inj hid
    have hnew : srv.tables.hasOrder c.id = false := by
      rw [Connection.view, Tables.append, Tables.hasOrder, List.any_append,
        Bool.or_eq_false_iff] at hfree
      exact hfree.1
    exact ⟨(hmakes rfl).1, (hmakes rfl).2 hnew⟩

/-- **One exchange of a lawful visit**: all stays sound, and the orders take a step. -/
theorem Sound.exchange (h : Sound srv xs s) {q : Query} {a : q.Answer}
    (asks : (lawAt v).asks (own who xs) q)
    (answered : atServer.answer v c q srv = (some a, srv')) :
    ∃ s', Sound srv' (xs ++ [(who, ⟨q, a⟩)]) s' ∧ s.Steps s' := by
  obtain ⟨request, draw, outcomes⟩ := v
  obtain ⟨cs, ys, zs, call, hpast, carried, hasks, hcall⟩ := asks
  change Desk.Asks draw request cs call at hasks
  change Server.answer outcomes c q srv = (some a, srv') at answered
  cases hcall with
  | outside =>
    obtain rfl : srv = srv' := (Prod.mk.inj answered).2
    exact ⟨s, h.quiet rfl (List.Subset.refl _) trivial trivial fun _ hid => hid.elim, .refl s⟩
  | selectOrder => exact ⟨s, h.selectOrder answered, .refl s⟩
  | selectParts =>
    exact ⟨s, h.statement answered (by simp) (by simp) trivial fun _ hid => hid.elim, .refl s⟩
  | updateOrder =>
    cases hasks with
    | write writes same =>
      obtain ⟨id, hloaded⟩ := writes.loaded_mem
      obtain ⟨u, cur, parts, rfl, hfound, hevolves⟩ :=
        h.copy carried (hpast ▸ List.subset_append_left _ _) hloaded
      exact h.updateOrder answered hfound hevolves writes.succeeds same
  | selectStatus =>
    exact ⟨s, h.statement answered (by simp) (by simp) trivial fun _ hid => hid.elim, .refl s⟩
  | begin =>
    exact ⟨s, h.statement answered (by simp) (by simp) trivial fun _ hid => hid.elim, .refl s⟩
  | insertOrder => exact ⟨s, h.insertOrder answered, .refl s⟩
  | insertPart =>
    exact ⟨s, h.statement answered (by simp) (by simp) trivial fun _ hid => hid.elim, .refl s⟩
  | commit adding =>
    cases hasks with
    | create priced =>
      have hlisted : ys = _ := carried.single
      refine h.commit answered adding (hpast ▸ List.subset_append_right _ _) ?_ ⟨rfl, rfl, rfl⟩
      rw [hpast, hlisted]
      intro x hx
      rcases List.mem_append.mp hx with hx | hx
      · obtain rfl := List.mem_singleton.mp hx
        rfl
      · exact adding.uncommitted x hx
  | rollback =>
    exact ⟨s, h.statement answered (by simp) (by simp) trivial fun _ hid => hid.elim, .refl s⟩

end Sql

end OrderDesk
