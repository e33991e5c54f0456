import OrderDesk.Proofs.Sql.Calls
import OrderDesk.Proofs.Store.Renamed

/-!
# The database and the memory agree

The same calls are made of a store in two tables and of one in memory. Either assigns its own ids;
up to these, and up to the times, both say the same to every call. The database is a store in
disguise: what it says to a call is what a store in memory would, had it drawn the same id.

## Main definitions

* `Request`, `Reply`: the calls of a store, and what it says
* `Trial`: a call of both stores, with what each of them makes up
* `Trial.onDatabase`, `Trial.inMemory`, `replies`: what is said to one call and to many

## Main results

* `onDatabase_eq`: the database is a store in disguise
* `twin_step`: what both say to one call
* `stores_agree`: what both say to any calls
-/

namespace OrderDesk.Sql

/-- **A call of a store.** -/
inductive Request where
  | create (order : Order)
  | load (id : Uuid)
  | update (order : Order) (expected : Status)

/-- **What a store says to a call.** -/
inductive Reply where
  | created (result : Except StoreError Order)
  | loaded (result : Except StoreError Order)
  | updated (result : Except StoreError Unit)

namespace Request

/-- The same call about the order with another id. The id of an order that is created means nothing.
-/
def renamed (e : Equiv.Perm Uuid) : Request → Request
  | create o => create o
  | load id => load (e id)
  | update o expected => update (o.renamed e) expected

/-- **What the tables have room for.** -/
def Admissible : Request → Prop
  | create o => ¬ o.total < 0 ∧ o.parts.length ≤ mostParts
  | load _ | update _ _ => True

/-- The call, as statements. -/
def session : Request → Session Reply
  | create o => (Sql.create o).map .created
  | load id => (Sql.load id).map .loaded
  | update o expected => (Sql.update o expected).map .updated

end Request

namespace Reply

/-- The id that was assigned. -/
def assigned? : Reply → Option Uuid
  | created (.ok o) => some o.id
  | created (.error _) | loaded _ | updated _ => none

/-- The same words about the order with another id. -/
def renamed (e : Equiv.Perm Uuid) : Reply → Reply
  | created result => created ((result.map (Order.renamed e)).mapError (StoreError.renamed e))
  | loaded result => loaded ((result.map (Order.renamed e)).mapError (StoreError.renamed e))
  | updated result => updated (result.mapError (StoreError.renamed e))

/-- The same words without times. -/
def untimed : Reply → Reply
  | created result => created (result.map Order.untimed)
  | loaded result => loaded (result.map Order.untimed)
  | updated result => updated result

end Reply

/-- **A trial of both stores**: a call, the id that the database makes up and those that are drawn
in memory, and the times of either. -/
structure Trial where
  request : Request
  fresh : Uuid
  draws : List Uuid
  now : Instant
  now' : Instant

namespace Trial

/-- The same trial about other ids. -/
def renamed (e : Equiv.Perm Uuid) (t : Trial) : Trial := { t with request := t.request.renamed e }

/-- **What the database says.** -/
def onDatabase (t : Trial) (c : Connection) : Option Reply × Connection :=
  t.request.session.run (Connection.respond t.fresh t.now) c

/-- **What the store in memory says.** It has no answer while every id that is drawn is in use. -/
def inMemory (t : Trial) (s : Store) : Option Reply × Store :=
  match t.request with
  | .create o =>
    match s.create o t.draws with
    | some (created, s') => (some (.created (.ok created)), s')
    | none => (none, s)
  | .load id => (some (.loaded (s.load id)), s)
  | .update o expected =>
    match s.update o expected t.now' with
    | .ok s' => (some (.updated (.ok ())), s')
    | .error e => (some (.updated (.error e)), s)

/-- The id that the database makes up. -/
def made? (t : Trial) : Option Uuid :=
  match t.request with
  | .create _ => some t.fresh
  | .load _ | .update _ _ => none

/-- **The trial in disguise**: the store in memory has to take what the database makes up. -/
def disguised (t : Trial) : Trial where
  request := match t.request with
    | .create o => .create (numbered o t.fresh t.now)
    | .load id => .load id
    | .update o expected => .update o expected
  fresh := t.fresh
  draws := []
  now := t.now
  now' := t.now

end Trial

/-- **What is said to some calls**, one after the other. -/
def replies {σ : Type} (say : Trial → σ → Option Reply × σ) : List Trial → σ → Option (List Reply)
  | [], _ => some []
  | t :: trials, s =>
    match say t s with
    | (some reply, s) => (replies say trials s).map (reply :: ·)
    | (none, _) => none

/-- The ids that were assigned. -/
def assigned (replies : List Reply) : List Uuid := replies.filterMap Reply.assigned?

/-! ## The database in disguise -/

/-- The orders whose parts are read back in their order. -/
def Short (s : Store) : Prop := ∀ o ∈ s.orders, o.parts.length ≤ mostParts

variable {t : Trial} {s s' : Store} {reply : Reply}

theorem create_numbered {o : Order} {fresh : Uuid} (unused : s.uses fresh = false) (now : Instant) :
    s.create (numbered o fresh now) [] =
      some (numbered o fresh now, s.add (numbered o fresh now) unused) := by
  have hfree : ((numbered o fresh now).id :: []).find? (fun id => !s.uses id) = some fresh := by
    simp [numbered, unused]
  obtain ⟨_, h⟩ := Store.create_of_free hfree
  exact h

/-- **The database is a store in disguise.** -/
theorem onDatabase_eq (short : Short s) (admissible : t.request.Admissible)
    (unused : ∀ id, t.made? = some id → s.uses id = false) :
    t.onDatabase (idle s) = ((t.disguised.inMemory s).1, idle (t.disguised.inMemory s).2) := by
  obtain ⟨request, fresh, draws, now, now'⟩ := t
  cases request with
  | create o =>
    have hunused : s.uses fresh = false := unused fresh rfl
    simp only [Trial.onDatabase, Request.session, Program.run_map, Trial.inMemory, Trial.disguised,
      run_create fresh now hunused admissible.1 admissible.2, create_numbered hunused]
    rfl
  | load id =>
    simp only [Trial.onDatabase, Request.session, Program.run_map, Trial.inMemory, Trial.disguised,
      run_load]
    cases h : s.find? id with
    | none => simp [Store.load_of_find?_none h]
    | some v =>
      have hparts := recalled_eq v.id (short v (List.mem_of_find?_eq_some h))
      simp [Store.load_of_find? h, hparts]
  | update o expected =>
    simp only [Trial.onDatabase, Request.session, Program.run_map, Trial.inMemory, Trial.disguised,
      run_update]
    cases s.update o expected now <;> rfl

/-! ## In memory -/

/-- **All that a trial in memory can come to.** -/
theorem inMemory_cases (h : t.inMemory s = (some reply, s')) :
    (∃ o created, t.request = .create o ∧ s.create o t.draws = some (created, s') ∧
      reply = .created (.ok created)) ∨
    (∃ id, t.request = .load id ∧ reply = .loaded (s.load id) ∧ s' = s) ∨
    (∃ o expected, t.request = .update o expected ∧ s.update o expected t.now' = .ok s' ∧
      reply = .updated (.ok ())) ∨
    ∃ o expected e, t.request = .update o expected ∧ s.update o expected t.now' = .error e ∧
      reply = .updated (.error e) ∧ s' = s := by
  unfold Trial.inMemory at h
  cases hrequest : t.request with
  | create o =>
    simp only [hrequest] at h
    split at h
    · rename_i created s₁ hcreate
      obtain ⟨rfl, rfl⟩ := Desk.answered_inj h
      exact .inl ⟨o, created, rfl, hcreate, rfl⟩
    · cases h
  | load id =>
    simp only [hrequest] at h
    obtain ⟨rfl, rfl⟩ := Desk.answered_inj h
    exact .inr (.inl ⟨id, rfl, rfl, rfl⟩)
  | update o expected =>
    simp only [hrequest] at h
    split at h
    · rename_i s₁ hupdate
      obtain ⟨rfl, rfl⟩ := Desk.answered_inj h
      exact .inr (.inr (.inl ⟨o, expected, rfl, hupdate, rfl⟩))
    · rename_i e hupdate
      obtain ⟨rfl, rfl⟩ := Desk.answered_inj h
      exact .inr (.inr (.inr ⟨o, expected, e, rfl, hupdate, rfl, rfl⟩))

/-- **A trial in memory takes the id that it assigns**, and no other. -/
theorem uses_inMemory (h : t.inMemory s = (some reply, s')) (id : Uuid) :
    s'.uses id = (decide (reply.assigned? = some id) || s.uses id) := by
  obtain ⟨o, created, -, hcreate, rfl⟩ | ⟨id', -, rfl, rfl⟩ | ⟨o, expected, -, hupdate, rfl⟩ |
    ⟨o, expected, e, -, -, rfl, rfl⟩ := inMemory_cases h
  · simp [Store.uses_of_create hcreate, Reply.assigned?]
  · simp [Reply.assigned?]
  · simp [Store.uses_of_update hupdate, Reply.assigned?]
  · simp [Reply.assigned?]

/-- An id that is assigned was not in use. -/
theorem unused_inMemory (h : t.inMemory s = (some reply, s')) {id : Uuid}
    (assigned : reply.assigned? = some id) : s.uses id = false := by
  obtain ⟨o, created, -, hcreate, rfl⟩ | ⟨id', -, rfl, rfl⟩ | ⟨o, expected, -, hupdate, rfl⟩ |
    ⟨o, expected, e, -, -, rfl, rfl⟩ := inMemory_cases h
  · obtain rfl : created.id = id := Option.some.inj assigned
    simp [Store.uses_eq_isSome, (Store.create_eq_some hcreate).1]
  all_goals cases assigned

/-- Ids are assigned to creations, and to nothing else. -/
theorem assigned?_isSome (h : t.inMemory s = (some reply, s')) :
    reply.assigned?.isSome = t.made?.isSome := by
  obtain ⟨o, created, hrequest, -, rfl⟩ | ⟨id', hrequest, rfl, rfl⟩ |
    ⟨o, expected, hrequest, -, rfl⟩ | ⟨o, expected, e, hrequest, -, rfl, rfl⟩ := inMemory_cases h
  all_goals simp [Reply.assigned?, Trial.made?, hrequest]

/-- **The id that is assigned** depends only on the ids that are in use. -/
theorem inMemory_renamed (e : Equiv.Perm Uuid) {m : Store} (h : t.inMemory s = (some reply, s'))
    (huses : s.uses = m.uses) :
    ∃ reply' m', (t.renamed e).inMemory m = (some reply', m') ∧
      reply'.assigned? = reply.assigned? ∧ s'.uses = m'.uses := by
  have hsome : ∃ reply' m', (t.renamed e).inMemory m = (some reply', m') ∧
      reply'.assigned? = reply.assigned? := by
    obtain ⟨o, created, hrequest, hcreate, rfl⟩ | ⟨id, hrequest, rfl, rfl⟩ |
      ⟨o, expected, hrequest, -, rfl⟩ | ⟨o, expected, e', hrequest, -, rfl, rfl⟩ := inMemory_cases h
    · -- the first free one among the same ids
      have hfree := Store.free_of_create hcreate
      rw [huses] at hfree
      obtain ⟨unused, hcreate'⟩ := Store.create_of_free hfree
      exact ⟨.created (.ok { o with id := created.id }), m.add { o with id := created.id } unused,
        by simp only [Trial.inMemory, Trial.renamed, Request.renamed, hrequest, hcreate'], rfl⟩
    · exact ⟨.loaded (m.load (e id)), m,
        by simp only [Trial.inMemory, Trial.renamed, Request.renamed, hrequest], rfl⟩
    all_goals
      cases hm : m.update (o.renamed e) expected t.now' with
      | ok m' =>
        exact ⟨.updated (.ok ()), m',
          by simp [Trial.inMemory, Trial.renamed, Request.renamed, hrequest, hm], rfl⟩
      | error e' =>
        exact ⟨.updated (.error e'), m,
          by simp [Trial.inMemory, Trial.renamed, Request.renamed, hrequest, hm], rfl⟩
  obtain ⟨reply', m', h', hassigned⟩ := hsome
  refine ⟨reply', m', h', hassigned, funext fun id => ?_⟩
  rw [uses_inMemory h, uses_inMemory h', hassigned, huses]

/-! ## Twins -/

/-- **Twins**: the same orders under other ids, up to the times. -/
def Twin (e : Equiv.Perm Uuid) (s m : Store) : Prop := (s.renamed e).Alike m

section Twins

variable {e : Equiv.Perm Uuid} {m m' : Store}

/-- Twins create the same order, under the ids that they assign. -/
theorem twin_create (twin : Twin e s m) {o created created' : Order} {fresh : Uuid} {now : Instant}
    {draws draws' : List Uuid} (hs : s.create (numbered o fresh now) draws = some (created, s'))
    (hm : m.create o draws' = some (created', m')) (same : created'.id = e created.id) :
    created'.untimed = (created.renamed e).untimed ∧ Twin e s' m' := by
  have halike : created'.untimed = (created.renamed e).untimed := by
    rw [(Store.create_eq_some hs).2.1, (Store.create_eq_some hm).2.1, same]
    rfl
  refine ⟨halike, ?_⟩
  change (s'.orders.map (Order.renamed e)).map Order.untimed = m'.orders.map Order.untimed
  rw [Store.orders_of_create hs, Store.orders_of_create hm, List.map_append, List.map_append,
    List.map_append]
  exact congrArg₂ _ twin (congrArg (fun o => [o]) halike.symm)

/-- Twins show the same order. -/
theorem twin_load (twin : Twin e s m) (id : Uuid) :
    (m.load (e id)).map Order.untimed =
      (((s.load id).map (Order.renamed e)).mapError (StoreError.renamed e)).map Order.untimed := by
  rw [← Store.load_renamed]
  exact (twin.map_load (e id)).symm

/-- Twins take the same writes, and refuse the others for the same reason. -/
theorem twin_update (twin : Twin e s m) (o : Order) (expected : Status) (now now' : Instant) :
    (∃ s' m', s.update o expected now = .ok s' ∧
      m.update (o.renamed e) expected now' = .ok m' ∧ Twin e s' m') ∨
      ∃ err, s.update o expected now = .error err ∧
        m.update (o.renamed e) expected now' = .error (err.renamed e) := by
  have hrenamed := Store.update_renamed e s o expected now
  have hm := Store.Alike.update twin (o.renamed e) expected now now'
  rw [hrenamed] at hm
  cases hs : s.update o expected now with
  | ok s' =>
    obtain ⟨t, m', ht, hm', halike⟩ | ⟨err, herr, -⟩ := hs ▸ hm
    · obtain rfl := Except.ok.inj ht
      exact .inl ⟨s', m', rfl, hm', halike⟩
    · cases herr
  | error err =>
    obtain ⟨t, m', ht, -⟩ | ⟨err', herr, hm'⟩ := hs ▸ hm
    · cases ht
    · obtain rfl := Except.error.inj herr
      exact .inr ⟨err, rfl, hm'⟩

/-- **Twins say the same** to a call, if they assign the same id. -/
theorem twin_step {reply' : Reply} (twin : Twin e s m)
    (h : t.disguised.inMemory s = (some reply, s'))
    (h' : (t.renamed e).inMemory m = (some reply', m'))
    (same : reply'.assigned? = reply.assigned?.map e) :
    reply'.untimed = (reply.renamed e).untimed ∧ Twin e s' m' := by
  obtain ⟨request, fresh, draws, now, now'⟩ := t
  cases request with
  | create o =>
    simp only [Trial.inMemory, Trial.disguised, Trial.renamed, Request.renamed] at h h'
    split at h
    · rename_i created s₁ hs
      obtain ⟨rfl, rfl⟩ := Desk.answered_inj h
      split at h'
      · rename_i created' m₁ hm
        obtain ⟨rfl, rfl⟩ := Desk.answered_inj h'
        obtain ⟨halike, twin'⟩ := twin_create twin hs hm (Option.some.inj same)
        exact ⟨congrArg (fun o => Reply.created (.ok o)) halike, twin'⟩
      · cases h'
    · cases h
  | load id =>
    obtain ⟨rfl, rfl⟩ := Desk.answered_inj h
    obtain ⟨rfl, rfl⟩ := Desk.answered_inj h'
    exact ⟨congrArg Reply.loaded (twin_load twin id), twin⟩
  | update o expected =>
    simp only [Trial.inMemory, Trial.disguised, Trial.renamed, Request.renamed] at h h'
    obtain ⟨s₁, m₁, hs, hm, twin'⟩ | ⟨err, hs, hm⟩ := twin_update twin o expected now now'
    · rw [hs] at h
      rw [hm] at h'
      obtain ⟨rfl, rfl⟩ := Desk.answered_inj h
      obtain ⟨rfl, rfl⟩ := Desk.answered_inj h'
      exact ⟨rfl, twin'⟩
    · rw [hs] at h
      rw [hm] at h'
      obtain ⟨rfl, rfl⟩ := Desk.answered_inj h
      obtain ⟨rfl, rfl⟩ := Desk.answered_inj h'
      exact ⟨rfl, twin⟩

end Twins

/-! ## Many calls -/

variable {trials : List Trial} {told kept : List Reply}

theorem replies_cons_eq_some_iff {σ : Type} {say : Trial → σ → Option Reply × σ} {s : σ}
    {rs : List Reply} :
    replies say (t :: trials) s = some rs ↔ ∃ reply s' rest, say t s = (some reply, s') ∧
      replies say trials s' = some rest ∧ rs = reply :: rest := by
  rw [replies]
  constructor
  · intro h
    split at h
    · rename_i reply s' hsay
      obtain ⟨rest, hrest, rfl⟩ := Option.map_eq_some_iff.mp h
      exact ⟨reply, s', rest, hsay, hrest, rfl⟩
    · cases h
  · rintro ⟨reply, s', rest, hsay, hrest, rfl⟩
    simp [hsay, hrest]

theorem assigned_cons (reply : Reply) (rest : List Reply) :
    assigned (reply :: rest) = reply.assigned?.toList ++ assigned rest := by
  rw [assigned, List.filterMap_cons]
  cases reply.assigned? <;> rfl

/-- A store in disguise answers every call, assigns what was made up, and keeps short orders. -/
theorem disguised_step (short : Short s) (admissible : t.request.Admissible)
    (unused : ∀ id, t.made? = some id → s.uses id = false) :
    ∃ reply s', t.disguised.inMemory s = (some reply, s') ∧ reply.assigned? = t.made? ∧
      Short s' := by
  obtain ⟨request, fresh, draws, now, now'⟩ := t
  cases request with
  | create o =>
    have hunused : s.uses fresh = false := unused fresh rfl
    refine ⟨.created (.ok (numbered o fresh now)), s.add (numbered o fresh now) hunused, ?_, rfl,
      ?_⟩
    · simp only [Trial.inMemory, Trial.disguised, create_numbered hunused]
    · intro o' ho'
      obtain ho' | ho' := List.mem_append.mp ho'
      · exact short o' ho'
      · obtain rfl := List.mem_singleton.mp ho'
        exact admissible.2
  | load id => exact ⟨_, s, rfl, rfl, short⟩
  | update o expected =>
    cases hupdate : s.update o expected now with
    | error err =>
      exact ⟨.updated (.error err), s, by simp only [Trial.inMemory, Trial.disguised, hupdate], rfl,
        short⟩
    | ok s' =>
      refine ⟨.updated (.ok ()), s', by simp only [Trial.inMemory, Trial.disguised, hupdate], rfl,
        ?_⟩
      obtain ⟨cur, -, -, rfl⟩ := Store.update_eq_ok_iff.mp hupdate
      intro o' ho'
      obtain ⟨o₁, ho₁, rfl⟩ := List.mem_map.mp ho'
      split
      · exact short o₁ ho₁
      · exact short o₁ ho₁

/-- **The database answers every call**, as a store in disguise, and assigns what it makes up. -/
theorem replies_onDatabase (short : Short s) (admissible : ∀ t ∈ trials, t.request.Admissible)
    (distinct : (trials.filterMap Trial.made?).Nodup)
    (unused : ∀ id ∈ trials.filterMap Trial.made?, s.uses id = false) :
    ∃ told, replies Trial.onDatabase trials (idle s) = some told ∧
      replies (fun t => t.disguised.inMemory) trials s = some told ∧
      assigned told = trials.filterMap Trial.made? := by
  induction trials generalizing s with
  | nil => exact ⟨[], rfl, rfl, rfl⟩
  | cons t trials ih =>
    have hmade : (t :: trials).filterMap Trial.made? =
        t.made?.toList ++ trials.filterMap Trial.made? := by
      rw [List.filterMap_cons]
      cases t.made? <;> rfl
    rw [hmade] at distinct unused
    have hadmissible := admissible t List.mem_cons_self
    have hunused : ∀ id, t.made? = some id → s.uses id = false :=
      fun id hid => unused id (List.mem_append_left _ (by simp [hid]))
    obtain ⟨reply, s', hstep, hassigned, hshort⟩ := disguised_step short hadmissible hunused
    have hdatabase := onDatabase_eq short hadmissible hunused
    rw [hstep] at hdatabase
    have hlater : ∀ id ∈ trials.filterMap Trial.made?, s'.uses id = false := by
      intro id hid
      rw [uses_inMemory hstep, hassigned, unused id (List.mem_append_right _ hid), Bool.or_false,
        decide_eq_false_iff_not]
      intro hmade'
      exact (List.nodup_append.mp distinct).2.2 id (by simp [hmade']) id hid rfl
    obtain ⟨rest, hrest, hrest', hids⟩ :=
      ih hshort (fun t ht => admissible t (List.mem_cons_of_mem _ ht))
        (List.nodup_append.mp distinct).2.1 hlater
    refine ⟨reply :: rest, ?_, ?_, ?_⟩
    · exact replies_cons_eq_some_iff.mpr ⟨reply, _, rest, hdatabase, hrest, rfl⟩
    · exact replies_cons_eq_some_iff.mpr ⟨reply, s', rest, hstep, hrest', rfl⟩
    · rw [assigned_cons, hids, hassigned, hmade]

/-- **The store in memory assigns different ids**, to the creations. -/
theorem assigned_inMemory (h : replies Trial.inMemory trials s = some kept) :
    (assigned kept).Nodup ∧ (∀ id ∈ assigned kept, s.uses id = false) ∧
      (assigned kept).length = (trials.filterMap Trial.made?).length := by
  induction trials generalizing s kept with
  | nil =>
    obtain rfl : [] = kept := Option.some.inj h
    exact ⟨.nil, by simp [assigned], rfl⟩
  | cons t trials ih =>
    obtain ⟨reply, s', rest, hstep, hrest, rfl⟩ := replies_cons_eq_some_iff.mp h
    obtain ⟨hnodup, hunused, hlength⟩ := ih hrest
    have hsome := assigned?_isSome hstep
    rw [assigned_cons]
    cases hassigned : reply.assigned? with
    | none =>
      have hmade : t.made? = none := by simpa [hassigned] using hsome.symm
      refine ⟨hnodup, fun id hid => ?_, ?_⟩
      · simpa [uses_inMemory hstep, hassigned] using hunused id hid
      · rw [List.filterMap_cons_none hmade]
        exact hlength
    | some id =>
      obtain ⟨fresh, hmade⟩ : ∃ fresh, t.made? = some fresh := by
        rw [← Option.isSome_iff_exists, ← hsome, hassigned]
        rfl
      have hlater : ∀ other ∈ assigned rest, other ≠ id ∧ s.uses other = false := by
        intro other ho
        have := hunused other ho
        rw [uses_inMemory hstep, hassigned, Bool.or_eq_false_iff, decide_eq_false_iff_not] at this
        exact ⟨fun he => this.1 (congrArg some he.symm), this.2⟩
      refine ⟨List.nodup_cons.mpr ⟨fun hid => (hlater id hid).1 rfl, hnodup⟩, ?_, ?_⟩
      · intro other ho
        obtain rfl | ho := List.mem_cons.mp ho
        · exact unused_inMemory hstep hassigned
        · exact (hlater other ho).2
      · rw [List.filterMap_cons_some hmade, List.length_cons, ← hlength]
        rfl

/-- **What is assigned in memory** depends only on what is created. -/
theorem replies_renamed (e : Equiv.Perm Uuid) {m : Store}
    (h : replies Trial.inMemory trials s = some kept) (huses : s.uses = m.uses) :
    ∃ kept', replies Trial.inMemory (trials.map (Trial.renamed e)) m = some kept' ∧
      assigned kept' = assigned kept := by
  induction trials generalizing s m kept with
  | nil =>
    obtain rfl : [] = kept := Option.some.inj h
    exact ⟨[], rfl, rfl⟩
  | cons t trials ih =>
    obtain ⟨reply, s', rest, hstep, hrest, rfl⟩ := replies_cons_eq_some_iff.mp h
    obtain ⟨reply', m', hstep', hassigned, huses'⟩ := inMemory_renamed e hstep huses
    obtain ⟨rest', hrest', hassigned'⟩ := ih hrest huses'
    refine ⟨reply' :: rest', ?_, by rw [assigned_cons, assigned_cons, hassigned, hassigned']⟩
    exact replies_cons_eq_some_iff.mpr ⟨reply', m', rest', hstep', hrest', rfl⟩

/-- **Twins say the same** to any calls, if they assign the same ids. -/
theorem twin_replies {e : Equiv.Perm Uuid} {m : Store} (twin : Twin e s m)
    (h : replies (fun t => t.disguised.inMemory) trials s = some told)
    (h' : replies Trial.inMemory (trials.map (Trial.renamed e)) m = some kept)
    (same : assigned kept = (assigned told).map e) :
    kept.map Reply.untimed = told.map fun reply => (reply.renamed e).untimed := by
  induction trials generalizing s m told kept with
  | nil =>
    obtain rfl : [] = told := Option.some.inj h
    obtain rfl : [] = kept := Option.some.inj h'
    rfl
  | cons t trials ih =>
    obtain ⟨reply, s', rest, hstep, hrest, rfl⟩ := replies_cons_eq_some_iff.mp h
    obtain ⟨reply', m', rest', hstep', hrest', rfl⟩ := replies_cons_eq_some_iff.mp h'
    have hkind : t.disguised.made?.isSome = (t.renamed e).made?.isSome := by
      obtain ⟨request, fresh, draws, now, now'⟩ := t
      cases request <;> rfl
    rw [← assigned?_isSome hstep, ← assigned?_isSome hstep'] at hkind
    obtain ⟨hsame, hsame'⟩ :
        reply'.assigned? = reply.assigned?.map e ∧ assigned rest' = (assigned rest).map e := by
      rw [assigned_cons, assigned_cons] at same
      cases hid : reply.assigned? <;> cases hid' : reply'.assigned? <;>
        simp_all
    obtain ⟨hsaid, twin'⟩ := twin_step twin hstep hstep' hsame
    rw [List.map_cons, List.map_cons, hsaid, ih twin' hrest hrest' hsame']

/-- **The database and the memory agree.** Make any calls of both, one after the other: create any
orders that the tables have room for, look at any ids, and write any values over any statuses. The
database answers all of them, if it never makes up an id twice, and so does the store in memory, if
it finds an id for every order. There is a renaming of ids that takes what the one assigned to what
the other assigned, and leaves alone what neither did; and under every such renaming both say the
same to every call, up to the times. -/
theorem stores_agree (admissible : ∀ t ∈ trials, t.request.Admissible)
    (distinct : (trials.filterMap Trial.made?).Nodup)
    (answered : replies Trial.inMemory trials .empty = some kept) :
    ∃ told, replies Trial.onDatabase trials ⟨.empty, .empty⟩ = some told ∧
      (∃ e : Equiv.Perm Uuid, assigned kept = (assigned told).map e ∧
        ∀ id, id ∉ assigned told → id ∉ assigned kept → e id = id) ∧
      ∀ e : Equiv.Perm Uuid, assigned kept = (assigned told).map e →
        ∃ kept', replies Trial.inMemory (trials.map (Trial.renamed e)) .empty = some kept' ∧
          assigned kept' = assigned kept ∧
          kept'.map Reply.untimed = told.map fun reply => (reply.renamed e).untimed := by
  have hshort : Short .empty := fun o ho => absurd ho List.not_mem_nil
  obtain ⟨told, htold, hdisguised, hids⟩ := replies_onDatabase (s := .empty) hshort admissible
    distinct fun id _ => rfl
  obtain ⟨hnodup, -, hlength⟩ := assigned_inMemory answered
  refine ⟨told, htold, ?_, fun e he => ?_⟩
  · obtain ⟨e, he, hfix⟩ := exists_perm_map_eq (hids ▸ distinct : (assigned told).Nodup) hnodup
      (by rw [hids, hlength])
    exact ⟨e, he.symm, hfix⟩
  · obtain ⟨kept', hkept', hassigned⟩ := replies_renamed e answered rfl
    exact ⟨kept', hkept', hassigned, twin_replies (Store.Alike.refl _) hdisguised hkept'
      (hassigned.trans he)⟩

/-- An order of two parts. -/
def sold : Order := Order.placed .nil .epoch "u-1" ["p-1", "p-2"] 3

/-- Another id than `Uuid.nil`. -/
def ones : Uuid := ⟨List.replicate 32 ⟨1, by decide⟩, rfl⟩

/-- The same order is created twice, then one is looked at, paid, and paid again. -/
def soldTwice : List Trial :=
  [⟨.create sold, ones, [], .epoch, .epoch⟩, ⟨.create sold, .nil, [.nil, ones], .epoch, .epoch⟩,
    ⟨.load ones, .nil, [], .epoch, .epoch⟩,
    ⟨.update { sold with id := ones, status := .paid } .pendingPayment, .nil, [], .epoch, .epoch⟩,
    ⟨.update { sold with id := ones, status := .paid } .pendingPayment, .nil, [], .epoch, .epoch⟩]

theorem stores_agree_sold :
    (∀ t ∈ soldTwice, t.request.Admissible) ∧ (soldTwice.filterMap Trial.made?).Nodup ∧
      ∃ kept, replies Trial.inMemory soldTwice .empty = some kept ∧
        ∃ told, replies Trial.onDatabase soldTwice ⟨.empty, .empty⟩ = some told ∧
          ∃ (e : Equiv.Perm Uuid) (kept' : List Reply),
            assigned kept = (assigned told).map e ∧
            replies Trial.inMemory (soldTwice.map (Trial.renamed e)) .empty = some kept' ∧
            kept'.map Reply.untimed = told.map fun reply => (reply.renamed e).untimed := by
  have hadmissible : ∀ t ∈ soldTwice, t.request.Admissible := by
    have hsold : ¬ sold.total < 0 ∧ sold.parts.length ≤ mostParts := by decide +kernel
    simp [soldTwice, Request.Admissible, hsold]
  have hdistinct : (soldTwice.filterMap Trial.made?).Nodup := by decide
  obtain ⟨kept, hkept⟩ : ∃ kept, replies Trial.inMemory soldTwice .empty = some kept :=
    Option.isSome_iff_exists.mp (by decide +kernel)
  obtain ⟨told, htold, ⟨e, he, -⟩, hagree⟩ := stores_agree hadmissible hdistinct hkept
  obtain ⟨kept', hkept', -, hsaid⟩ := hagree e he
  exact ⟨hadmissible, hdistinct, kept, hkept, told, htold, e, kept', he, hkept', hsaid⟩

end OrderDesk.Sql
