import OrderDesk.Proofs.Desk.Law
import OrderDesk.Proofs.Store.Calls

/-!
# A store that remembers

An archive is a store together with every version of an order that it ever held. A look at an order
may be answered with any of them; otherwise the archive answers as its store does. Whatever visits
there are, one exchange can only do one of five things to it.

## Main definitions

* `Archive`, `Archive.history`
* `Archive.answer`, `atArchive`: visits at an archive
* `Happens`: all that an exchange can do

## Main results

* `Archive.answer_fresh`: without looks back, an archive answers as its store
* `history_grows`: histories only grow
* `happens_of_answer`: an answered question of a lawful visit does what `Happens` says
* `archive_invariant`: what all of that preserves holds in every traffic
-/

namespace OrderDesk.Desk

/-- **A store and all that it ever held**, oldest first. -/
structure Archive where
  store : Store
  versions : List Order

/-- **What chance decides** at a call: the time, and which version of an order is looked at, if not
the current one. -/
structure Circumstance where
  now : Instant
  earlier : Option Nat

/-- Nobody looks back. -/
def Circumstance.fresh (now : Instant) : Circumstance := ⟨now, none⟩

namespace Archive

/-- A store of which nothing else is known. -/
def opened (s : Store) : Archive := ⟨s, s.orders⟩

/-- **The versions of one order**, oldest first. -/
def history (a : Archive) (id : Uuid) : List Order :=
  a.versions.filter fun v => v.id = id

/-- A look at an order, or back at an earlier version. -/
def look (a : Archive) (id : Uuid) (earlier : Option Nat) : Except StoreError Order :=
  match earlier.bind fun k => (a.history id)[k]? with
  | some v => .ok v
  | none => a.store.load id

/-- **The answers to a visit at an archive.** What lands is remembered. -/
def answer (o : Outcomes) (c : Circumstance) :
    (call : Call) → Archive → Option call.Answer × Archive
  | .load id, a => (some (a.look id c.earlier), a)
  | .create order, a =>
    match a.store.create order o.draws with
    | some (stored, s) => (some (.ok stored), ⟨s, a.versions ++ [stored]⟩)
    | none => (none, a)
  | .update order expected, a =>
    match a.store.update order expected c.now with
    | .ok s => (some (.ok ()), ⟨s, a.versions ++ (s.find? order.id).toList⟩)
    | .error e => (some (.error e), a)
  | .listParts _, a => (some o.parts, a)
  | .charge _ _ _, a => (some o.charge, a)
  | .publish _, a => (some o.publish, a)
  | .count _, a => (some (), a)

/-- **Without looks back**, an archive answers as its store, and does to it what the store does. -/
theorem answer_fresh (o : Outcomes) (now : Instant) (call : Call) (a : Archive) :
    (answer o ⟨now, none⟩ call a).1 = (o.answer now call a.store).1 ∧
      (answer o ⟨now, none⟩ call a).2.store = (o.answer now call a.store).2 := by
  cases call with
  | create order =>
    simp only [answer, Outcomes.answer]
    cases a.store.create order o.draws with
    | none => exact ⟨rfl, rfl⟩
    | some made => exact ⟨rfl, rfl⟩
  | update order expected =>
    simp only [answer, Outcomes.answer]
    cases a.store.update order expected now with
    | error e => exact ⟨rfl, rfl⟩
    | ok s => exact ⟨rfl, rfl⟩
  | load id => exact ⟨rfl, rfl⟩
  | listParts filter => exact ⟨rfl, rfl⟩
  | charge order user method => exact ⟨rfl, rfl⟩
  | publish event => exact ⟨rfl, rfl⟩
  | count tally => exact ⟨rfl, rfl⟩

/-- Nothing that was stored is forgotten. -/
theorem versions_grow {o : Outcomes} {c : Circumstance} {call : Call} {a a' : Archive}
    {reply : Option call.Answer} (h : answer o c call a = (reply, a')) :
    a.versions <+: a'.versions := by
  obtain rfl := (Prod.mk.inj h).2
  cases call with
  | create order =>
    dsimp only
    split
    · exact List.prefix_append _ _
    · exact List.prefix_refl _
  | update order expected =>
    dsimp only
    split
    · exact List.prefix_append _ _
    · exact List.prefix_refl _
  | load _ | listParts _ | charge _ _ _ | publish _ | count _ => exact List.prefix_refl _

/-- **The archive gains a version**, which becomes the current one. -/
structure Gains (a a' : Archive) (v : Order) : Prop where
  versions : a'.versions = a.versions ++ [v]
  find? : ∀ id, a'.store.find? id = if v.id = id then some v else a.store.find? id

theorem mem_history {a : Archive} {id : Uuid} {v : Order} :
    v ∈ a.history id ↔ v ∈ a.versions ∧ v.id = id := by
  simp [history]

theorem look_eq_ok {a : Archive} {id : Uuid} {earlier : Option Nat} {v : Order}
    (h : a.look id earlier = .ok v) : v ∈ a.history id ∨ a.store.find? id = some v := by
  unfold look at h
  split at h
  · rename_i w hw
    obtain rfl := Except.ok.inj h
    obtain ⟨k, -, hk⟩ := Option.bind_eq_some_iff.mp hw
    exact .inl (List.mem_of_getElem? hk)
  · exact .inr (Store.load_eq_ok_iff.mp h)

theorem Gains.history {a a' : Archive} {v : Order} (h : a.Gains a' v) (id : Uuid) :
    a'.history id = if v.id = id then a.history id ++ [v] else a.history id := by
  unfold Archive.history
  rw [h.versions, List.filter_append]
  split <;> simp [*]

theorem Gains.history_subset {a a' : Archive} {v : Order} (h : a.Gains a' v) (id : Uuid) :
    a.history id ⊆ a'.history id := by
  rw [h.history]
  split
  · exact List.subset_append_left _ _
  · exact fun _ hu => hu

end Archive

/-- **The rules of visits at an archive.** -/
def atArchive : Rules Visit Circumstance Call Call.Answer Reply Archive where
  program := Visit.program
  answer v c := Archive.answer v.outcomes c

/-- The traffic at an archive that began with a store, after some moves. -/
abbrev trafficAt (s : Store) (moves : List (Move Visit Circumstance)) :
    Traffic Visit Call Call.Answer Reply Archive :=
  (Traffic.opened (.opened s)).run atArchive moves

theorem keeps_program (v : Visit) : (atArchive.program v).Keeps (law v) [] := keeps_law v

/-- Each visit is within its law. -/
theorem lawful_trafficAt (s : Store) (moves : List (Move Visit Circumstance)) :
    (trafficAt s moves).Lawful law :=
  Traffic.lawful_run keeps_program _ moves

/-- **Histories only grow.** -/
theorem history_grows (s : Store) (moves more : List (Move Visit Circumstance)) (id : Uuid) :
    (trafficAt s moves).state.history id <+: (trafficAt s (moves ++ more)).state.history id := by
  have hversions : (trafficAt s moves).state.versions <+:
      ((trafficAt s moves).run atArchive more).state.versions :=
    Traffic.run_related (r := fun a a' : Archive => a.versions <+: a'.versions)
      (fun _ => List.prefix_refl _) List.IsPrefix.trans Archive.versions_grow _ _
  rw [← Traffic.run_append] at hversions
  exact hversions.filter _

/-! ## One exchange -/

/-- **An exchange that leaves the archive as it is**: it is no answered look at an order, no
creation, no write and no announcement. -/
structure Quiet (x : Exchange Call Call.Answer) : Prop where
  not_loaded : ∀ id v, x ≠ loaded id v
  not_created : ∀ order stored, x ≠ created order stored
  not_written : ∀ w expected, x ≠ written w expected
  not_publish : ∀ event, x.question ≠ .publish event

theorem quiet_of_question {x : Exchange Call Call.Answer} (hload : ∀ id, x.question ≠ .load id)
    (hcreate : ∀ order, x.question ≠ .create order)
    (hupdate : ∀ w expected, x.question ≠ .update w expected)
    (hpublish : ∀ event, x.question ≠ .publish event) : Quiet x where
  not_loaded id _ h := hload id (congrArg Exchange.question h)
  not_created order _ h := hcreate order (congrArg Exchange.question h)
  not_written w expected h := hupdate w expected (congrArg Exchange.question h)
  not_publish := hpublish

theorem quiet_load_error (id : Uuid) (e : StoreError) :
    Quiet ⟨.load id, (Except.error e : Except StoreError Order)⟩ where
  not_loaded id' v h := by
    obtain ⟨hq, ha⟩ := Exchange.mk.inj h
    cases hq
    cases eq_of_heq ha
  not_created _ _ := ne_of_question (by simp)
  not_written _ _ := ne_of_question (by simp)
  not_publish _ := by simp

theorem quiet_update_error (w : Order) (expected : Status) (e : StoreError) :
    Quiet ⟨.update w expected, (Except.error e : Except StoreError Unit)⟩ where
  not_loaded _ _ := ne_of_question (by simp)
  not_created _ _ := ne_of_question (by simp)
  not_written w' expected' h := by
    obtain ⟨hq, ha⟩ := Exchange.mk.inj h
    cases hq
    cases eq_of_heq ha
  not_publish _ := by simp

/-- **All that an exchange can do** to an archive, for a visit with some exchanges behind it. -/
inductive Happens (a : Archive) (past : Past) : Exchange Call Call.Answer → Archive → Prop
  | quiet {x : Exchange Call Call.Answer} (quiet : Quiet x) : Happens a past x a
  | looked {id : Uuid} {v : Order} (known : v ∈ a.history id ∨ a.store.find? id = some v) :
    Happens a past (loaded id v) a
  | placed {order stored : Order} {a' : Archive} (free : a.store.find? stored.id = none)
    (fresh : stored.Fresh) (gains : a.Gains a' stored) : Happens a past (created order stored) a'
  | revised {draw : Draw} {request : Request} {v w cur : Order} {now : Instant} {a' : Archive}
    (writes : Writes draw request past v w) (current : a.store.find? v.id = some cur)
    (same : cur.status = v.status)
    (gains : a.Gains a' (Store.revised cur w.status w.transaction w.method now)) :
    Happens a past (written w v.status) a'
  | announced {draw : Draw} {id : Uuid} {method : Method} {transaction : String} {v w : Order}
    {answer : Except PublishError Unit} (paid : v.markPaid transaction method draw.now = .ok w)
    (after : past = [loaded id v, charged v.id v.user method transaction, written w v.status,
      counted (.moved w.status)]) :
    Happens a past ⟨.publish ⟨draw.id, w.id, w.user, method, transaction⟩, answer⟩ a

theorem gains_of_create {a : Archive} {order stored : Order} {draws : List Uuid} {s : Store}
    (h : a.store.create order draws = some (stored, s)) :
    a.Gains ⟨s, a.versions ++ [stored]⟩ stored :=
  ⟨rfl, (Store.create_eq_some h).2.2⟩

/-- A write that lands stores the current version with another status and payment. -/
theorem gains_of_update {a : Archive} {w : Order} {expected : Status} {now : Instant} {s : Store}
    (h : a.store.update w expected now = .ok s) :
    ∃ cur, a.store.find? w.id = some cur ∧ cur.status = expected ∧
      a.Gains ⟨s, a.versions ++ (s.find? w.id).toList⟩
        (Store.revised cur w.status w.transaction w.method now) := by
  obtain ⟨cur, hcur, hs, -⟩ := Store.update_eq_ok_iff.mp h
  have hid : cur.id = w.id := Store.id_of_find? hcur
  refine ⟨cur, hcur, hs, ?_, fun id => ?_⟩
  · rw [Store.find?_of_update h, hcur]
    simp
  · rw [Store.find?_of_update h]
    by_cases hw : w.id = id
    · subst hw
      simp [hcur, Store.revised, hid]
    · have hne : id ≠ w.id := Ne.symm hw
      simp [Store.revised, hid, hw, hne]

/-- **An answered question of a lawful visit** does what `Happens` says. -/
theorem happens_of_answer {draw : Draw} {request : Request} {past : Past} {call : Call}
    {o : Outcomes} {c : Circumstance} {a a' : Archive} {answer : call.Answer}
    (asks : Asks draw request past call)
    (answered : Archive.answer o c call a = (some answer, a')) :
    Happens a past ⟨call, answer⟩ a' := by
  cases asks with
  | listParts | charge _ | countCreated | countEarned | countMoved _ _ =>
    obtain ⟨-, rfl⟩ := Prod.mk.inj answered
    refine .quiet (quiet_of_question ?_ ?_ ?_ ?_) <;> simp
  | load about =>
    obtain ⟨rfl, rfl⟩ := answered_inj answered
    cases hr : a.look _ c.earlier with
    | error e => exact .quiet (quiet_load_error _ e)
    | ok v => exact .looked (Archive.look_eq_ok hr)
  | @create user ids parts total priced =>
    cases hc : a.store.create (Order.placed draw.id draw.now user ids total) o.draws with
    | none =>
      simp only [Archive.answer, hc] at answered
      cases (Prod.mk.inj answered).1
    | some made =>
      obtain ⟨stored, s⟩ := made
      simp only [Archive.answer, hc] at answered
      obtain ⟨rfl, rfl⟩ := answered_inj answered
      obtain ⟨free, same, -⟩ := Store.create_eq_some hc
      refine .placed free ?_ (gains_of_create hc)
      rw [same]
      exact ⟨rfl, rfl, rfl⟩
  | @write _ _ v w expected writes same =>
    subst same
    cases hu : a.store.update w v.status c.now with
    | error e =>
      simp only [Archive.answer, hu] at answered
      obtain ⟨rfl, rfl⟩ := answered_inj answered
      exact .quiet (quiet_update_error w v.status e)
    | ok s =>
      simp only [Archive.answer, hu] at answered
      obtain ⟨rfl, rfl⟩ := answered_inj answered
      obtain ⟨cur, hcur, hs, hgains⟩ := gains_of_update hu
      have hid : w.id = v.id := writes.succeeds.identity.id
      exact .revised writes (hid ▸ hcur) hs hgains
  | publish paid =>
    obtain ⟨-, rfl⟩ := Prod.mk.inj answered
    exact .announced paid rfl

/-- **What exchanges preserve holds in every traffic.** -/
theorem archive_invariant {I : Archive → List (Nat × Exchange Call Call.Answer) → Prop}
    (exchange : ∀ {a a' who xs x}, Happens a (own who xs) x a' → I a xs → I a' (xs ++ [(who, x)]))
    {s : Store} (start : I (.opened s) []) (moves : List (Move Visit Circumstance)) :
    I (trafficAt s moves).state (trafficAt s moves).exchanges := by
  refine Traffic.exchange_invariant keeps_program (I := I) ?_ start moves
  intro who v c call a answer a' xs asks answered inv
  exact exchange (happens_of_answer asks answered) inv

/-! ## A busy day -/

/-- A visit arrives and makes some moves before anybody else does. -/
def serve (who : Nat) (v : Visit) (moves : Nat) : List (Move Visit Circumstance) :=
  .arrive v :: List.replicate moves (.proceed who ⟨.epoch, none⟩)

/-- An order is placed and paid for. A rival who looks back at its first version charges for it as
well, does not get it stored, and leaves. -/
def sold : List (Move Visit Circumstance) :=
  serve 0 placer 5 ++ serve 1 payer 6 ++
    [.arrive rival, .proceed 2 ⟨.epoch, some 0⟩, .proceed 2 ⟨.epoch, none⟩,
      .proceed 2 ⟨.epoch, none⟩, .abandon 2]

/-- The order as it is then. -/
def soldOrder : Order :=
  ⟨.nil, "u-1", ["p-1"], 1, .paid, some "t-1", some .card, .epoch, .epoch⟩

/-- Later it is assembled. -/
def built : List (Move Visit Circumstance) := serve 3 assembler 4

end OrderDesk.Desk
