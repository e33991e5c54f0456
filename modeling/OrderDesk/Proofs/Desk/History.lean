import Mathlib.Data.List.Chain
import Mathlib.Data.List.Pairwise
import OrderDesk.Proofs.Desk.Archive

/-!
# The history of an order

Whatever visits there are, however they interleave and wherever they are abandoned, the versions of
an order succeed each other: a write checks only the status it expects, but what it writes was made
from a version that the order has had, and the status is still the one of that version.

## Main definitions

* `Archive.Sound`: the versions of each order succeed each other up to the current one
* `Remembered`: and the copies that visits have are among them

## Main results

* `Archive.Sound.evolves`: the current order is a later version of every copy
* `remembered`: every traffic is remembered
* `lifecycle_safe`: the life of every order
-/

namespace OrderDesk.Desk

/-- **The versions of each order succeed each other**, up to the current one. -/
structure Archive.Sound (a : Archive) : Prop where
  current : ∀ id, a.store.find? id = (a.history id).getLast?
  succession : ∀ id, (a.history id).IsChain Order.Succeeds

/-- **The first version of each order is a fresh one.** -/
def Archive.Born (a : Archive) : Prop :=
  ∀ id v, (a.history id).head? = some v → v.Fresh

/-- Whether an exchange stored a new order under an id. -/
def creates (id : Uuid) : Exchange Call Call.Answer → Bool
  | ⟨.create _, answer⟩ =>
    match (answer : Except StoreError Order) with
    | .ok stored => stored.id = id
    | .error _ => false
  | _ => false

/-- **The archive remembers the exchanges**: the copies that visits have are versions, and each
order there is was created once at most. -/
structure Remembered (a : Archive) (xs : List (Nat × Exchange Call Call.Answer)) : Prop where
  sound : a.Sound
  loaded : ∀ {who id v}, (who, loaded id v) ∈ xs → v ∈ a.history id
  creations : ∀ id, (xs.countP fun x => creates id x.2) ≤ if a.history id = [] then 0 else 1

namespace Archive

variable {a a' : Archive} {id : Uuid} {v cur : Order}

theorem Sound.mem_of_find? (h : a.Sound) (hv : a.store.find? id = some v) : v ∈ a.history id := by
  rw [h.current] at hv
  exact List.mem_of_getLast? hv

theorem Sound.find?_eq_none_iff (h : a.Sound) : a.store.find? id = none ↔ a.history id = [] := by
  rw [h.current, List.getLast?_eq_none_iff]

theorem Sound.history_ne_nil (h : a.Sound) (hv : a.store.find? id = some v) :
    a.history id ≠ [] :=
  List.ne_nil_of_mem (h.mem_of_find? hv)

theorem Sound.pairwise (h : a.Sound) (id : Uuid) : (a.history id).Pairwise Order.Evolves :=
  List.isChain_iff_pairwise.mp ((h.succession id).imp fun _ _ => Order.Succeeds.evolves)

/-- **The current order is a later version** of every version it has had. -/
theorem Sound.evolves (h : a.Sound) (hv : v ∈ a.history id) (hcur : a.store.find? id = some cur) :
    v.Evolves cur := by
  rw [h.current, List.getLast?_eq_some_getLast (List.ne_nil_of_mem hv)] at hcur
  obtain rfl := Option.some.inj hcur
  exact (h.pairwise id).rel_getLast hv

/-- An archive stays sound when it gains a version that succeeds the current one, if there is
one. -/
theorem Sound.gains (h : a.Sound) (gains : a.Gains a' v)
    (next : ∀ cur, a.store.find? v.id = some cur → cur.Succeeds v) : a'.Sound := by
  refine ⟨fun id => ?_, fun id => ?_⟩
  · rw [gains.find?, gains.history]
    split
    · rw [List.getLast?_append, List.getLast?_singleton, Option.some_or]
    · exact h.current id
  · rw [gains.history]
    split
    · rename_i hid
      subst hid
      refine (h.succession v.id).append (.singleton v) ?_
      intro x hx y hy
      obtain rfl : v = y := by simpa using hy
      refine next x ?_
      rw [h.current]
      exact hx
    · exact h.succession id

/-- The first versions stay what they are when a version is gained, unless that is a first one. -/
theorem Born.gains (h : a.Born) (gains : a.Gains a' v) (first : a.history v.id = [] → v.Fresh) :
    a'.Born := by
  intro id u hu
  rw [gains.history] at hu
  split at hu
  · rename_i hid
    subst hid
    cases hhist : a.history v.id with
    | nil =>
      obtain rfl : v = u := by simpa [hhist] using hu
      exact first hhist
    | cons b rest =>
      refine h v.id u ?_
      simpa [hhist] using hu
  · exact h id u hu

theorem history_opened (s : Store) (id : Uuid) : (opened s).history id = (s.find? id).toList :=
  s.filter_id_eq id

theorem sound_opened (s : Store) : (opened s).Sound where
  current id := by
    rw [history_opened]
    cases h : s.find? id with
    | none => exact h
    | some o => exact h
  succession id := by
    rw [history_opened]
    cases s.find? id with
    | none => exact .nil
    | some o => exact .singleton o

end Archive

theorem mem_of_mem_snoc {xs : List (Nat × Exchange Call Call.Answer)} {who other : Nat}
    {x y : Exchange Call Call.Answer} (h : (other, y) ∈ xs ++ [(who, x)]) (hne : x ≠ y) :
    (other, y) ∈ xs := by
  rcases List.mem_append.mp h with h | h
  · exact h
  · exact absurd (congrArg Prod.snd (List.mem_singleton.mp h)).symm hne

theorem Quiet.creates {x : Exchange Call Call.Answer} (h : Quiet x) (id : Uuid) :
    creates id x = false := by
  obtain ⟨call, answer⟩ := x
  cases call with
  | create order =>
    cases answer with
    | error e => rfl
    | ok stored => exact absurd rfl (h.not_created order stored)
  | listParts _ => rfl
  | charge _ _ _ => rfl
  | publish _ => rfl
  | load _ => rfl
  | update _ _ => rfl
  | count _ => rfl

namespace Remembered

variable {a a' : Archive} {xs : List (Nat × Exchange Call Call.Answer)} {who : Nat}
  {x : Exchange Call Call.Answer} {draw : Draw} {request : Request} {v w cur : Order}

/-- The current order is a later version of the copy that a visit writes over. -/
theorem evolves_copy (h : Remembered a xs) (writes : Writes draw request (own who xs) v w)
    (current : a.store.find? v.id = some cur) : v.Evolves cur := by
  obtain ⟨id, hmem⟩ := writes.loaded_mem
  have hv := h.loaded (mem_own.mp hmem)
  obtain rfl := (Archive.mem_history.mp hv).2
  exact h.sound.evolves hv current

/-- What is written names the same purchase as the current order. -/
theorem sameIdentity_written (h : Remembered a xs)
    (writes : Writes draw request (own who xs) v w) (current : a.store.find? v.id = some cur) :
    cur.SameIdentity w :=
  (h.evolves_copy writes current).identity.symm.trans writes.succeeds.identity

/-- **What lands succeeds the current order**, though it was made from a copy. -/
theorem succeeds_revised (h : Remembered a xs) (writes : Writes draw request (own who xs) v w)
    (current : a.store.find? v.id = some cur) (same : cur.status = v.status) (now : Instant) :
    cur.Succeeds (Store.revised cur w.status w.transaction w.method now) :=
  (h.evolves_copy writes current).succeeds_revised same writes.succeeds now

/-- **One exchange** is remembered. -/
theorem exchange (h : Remembered a xs) (happens : Happens a (own who xs) x a') :
    Remembered a' (xs ++ [(who, x)]) := by
  cases happens with
  | quiet quiet =>
    refine ⟨h.sound, fun hm => h.loaded (mem_of_mem_snoc hm (quiet.not_loaded _ _)), fun id => ?_⟩
    rw [List.countP_append]
    simpa [quiet.creates] using h.creations id
  | @looked id v known =>
    have hv : v ∈ a.history id := known.elim (fun hv => hv) h.sound.mem_of_find?
    refine ⟨h.sound, fun {other id' u} hm => ?_, fun id => ?_⟩
    · rcases List.mem_append.mp hm with hm | hm
      · exact h.loaded hm
      · obtain ⟨rfl, rfl⟩ := loaded_inj (congrArg Prod.snd (List.mem_singleton.mp hm))
        exact hv
    · rw [List.countP_append]
      exact h.creations id
  | @placed order stored _ free fresh gains =>
    refine ⟨h.sound.gains gains ?_, fun hm => ?_, fun id => ?_⟩
    · intro cur hcur
      rw [free] at hcur
      cases hcur
    · exact gains.history_subset _ (h.loaded (mem_of_mem_snoc hm (ne_of_question (by simp))))
    · have hcount := h.creations id
      rw [List.countP_append, gains.history]
      by_cases hid : stored.id = id
      · subst hid
        rw [h.sound.find?_eq_none_iff.mp free] at hcount
        simpa [creates, created] using hcount
      · simpa [hid, creates, created] using hcount
  | @revised _ _ v w cur now _ writes current same gains =>
    have hid := Store.id_revised_of_find? current w.status w.transaction w.method now
    refine ⟨h.sound.gains gains ?_, fun hm => ?_, fun id => ?_⟩
    · intro cur' hcur'
      rw [hid, current] at hcur'
      obtain rfl := Option.some.inj hcur'
      exact h.succeeds_revised writes current same now
    · exact gains.history_subset _ (h.loaded (mem_of_mem_snoc hm (ne_of_question (by simp))))
    · have hcount := h.creations id
      rw [List.countP_append, gains.history, hid]
      by_cases hv : v.id = id
      · subst hv
        rw [if_neg (h.sound.history_ne_nil current)] at hcount
        simpa [creates, written] using hcount
      · simpa [hv, creates, written] using hcount
  | announced _ _ =>
    refine ⟨h.sound, fun hm => ?_, fun id => ?_⟩
    · exact h.loaded (mem_of_mem_snoc hm (ne_of_question (by simp)))
    · rw [List.countP_append]
      exact h.creations id

/-- **First versions are fresh** after an exchange if they were before. -/
theorem born (h : Remembered a xs) (born : a.Born) (happens : Happens a (own who xs) x a') :
    a'.Born := by
  cases happens with
  | quiet | looked | announced => exact born
  | placed free fresh gains => exact born.gains gains fun _ => fresh
  | @revised _ _ v w cur now _ writes current same gains =>
    refine born.gains gains fun hnil => ?_
    rw [Store.id_revised_of_find? current] at hnil
    exact absurd hnil (h.sound.history_ne_nil current)

end Remembered

theorem remembered_opened (s : Store) : Remembered (.opened s) [] :=
  ⟨Archive.sound_opened s, by simp, fun _ => Nat.zero_le _⟩

/-- **Every traffic is remembered**, whatever the store was at its beginning. -/
theorem remembered (s : Store) (moves : List (Move Visit Circumstance)) :
    Remembered (trafficAt s moves).state (trafficAt s moves).exchanges :=
  archive_invariant (fun happens h => h.exchange happens) (remembered_opened s) moves

/-- **If the store was empty**, every order began as a fresh one. -/
theorem born (moves : List (Move Visit Circumstance)) : (trafficAt .empty moves).state.Born := by
  refine (archive_invariant (I := fun a xs => Remembered a xs ∧ a.Born) ?_
    ⟨remembered_opened .empty, fun _ _ h => by cases h⟩ moves).2
  rintro a a' who xs x happens ⟨h, born⟩
  exact ⟨h.exchange happens, h.born born happens⟩

/-! ## The life of an order -/

namespace Archive.Sound

variable {a : Archive} {id : Uuid}

/-- **Of two versions** one succeeded the other sooner or later, so they name the same purchase. -/
theorem sameIdentity (h : a.Sound) {v w : Order} (hv : v ∈ a.history id) (hw : w ∈ a.history id) :
    v.SameIdentity w := by
  cases hcur : a.store.find? id with
  | none =>
    rw [h.find?_eq_none_iff.mp hcur] at hv
    cases hv
  | some cur =>
    exact (h.evolves hv hcur).identity.trans (h.evolves hw hcur).identity.symm

/-- **No status that was left is entered again.** -/
theorem status_eq_of_sublist (h : a.Sound) {u v w : Order} (hsub : [u, v, w].Sublist (a.history id))
    (hstatus : u.status = w.status) : v.status = u.status := by
  have hpair : [u, v, w].Pairwise Order.Evolves := (h.pairwise id).sublist hsub
  have huv : u.Evolves v := List.rel_of_pairwise_cons hpair (by simp)
  have hvw : v.Evolves w := List.rel_of_pairwise_cons hpair.of_cons (by simp)
  exact hvw.status.antisymm (hstatus ▸ huv.status) |>.trans hstatus.symm

end Archive.Sound

/-- **What was stored is still there** in a sound archive that holds all the earlier versions. -/
theorem Archive.Sound.evolves_of_subset {a a' : Archive} (h : a'.Sound) {id : Uuid} {v : Order}
    (hsub : a.history id ⊆ a'.history id) (hv : v ∈ a.history id) :
    ∃ o, a'.store.find? id = some o ∧ v.Evolves o := by
  have hmem := hsub hv
  cases ho : a'.store.find? id with
  | none =>
    rw [h.find?_eq_none_iff.mp ho] at hmem
    cases hmem
  | some o => exact ⟨o, rfl, h.evolves hmem ho⟩

/-- **What was stored is still there later**, in a later version. -/
theorem evolves_later (s : Store) (moves more : List (Move Visit Circumstance)) {id : Uuid}
    {v : Order} (hv : v ∈ (trafficAt s moves).state.history id) :
    ∃ o, (trafficAt s (moves ++ more)).state.store.find? id = some o ∧ v.Evolves o :=
  (remembered s (moves ++ more)).sound.evolves_of_subset (history_grows s moves more id).subset hv

/-- **The life of every order**, in every traffic from an empty store. The stored order is the last
of its versions; the first of them waits for its payment; each keeps the status of the one before
or takes one of three steps, and no status that was left is entered again; all of them are the same
purchase; whatever happens later, no version is taken back, the order is never removed, and no other
creation ever stores one under its id. -/
theorem lifecycle_safe (moves more : List (Move Visit Circumstance)) (id : Uuid) :
    (trafficAt .empty moves).state.store.find? id =
        ((trafficAt .empty moves).state.history id).getLast? ∧
      (∀ v, ((trafficAt .empty moves).state.history id).head? = some v →
        v.status = .pendingPayment) ∧
      ((trafficAt .empty moves).state.history id).IsChain (fun v w => w.status = v.status ∨
        (v.status, w.status) ∈ [(.pendingPayment, .paid), (.pendingPayment, .cancelled),
          ((.paid : Status), (.assembled : Status))]) ∧
      (∀ u v w, [u, v, w].Sublist ((trafficAt .empty moves).state.history id) →
        u.status = w.status → v.status = u.status) ∧
      (∀ v ∈ (trafficAt .empty moves).state.history id,
        ∀ w ∈ (trafficAt .empty moves).state.history id, v.SameIdentity w) ∧
      (trafficAt .empty moves).state.history id <+:
        (trafficAt .empty (moves ++ more)).state.history id ∧
      (∀ o, (trafficAt .empty moves).state.store.find? id = some o →
        ∃ o', (trafficAt .empty (moves ++ more)).state.store.find? id = some o' ∧
          o.SameIdentity o') ∧
      ((trafficAt .empty (moves ++ more)).exchanges.countP fun x => creates id x.2) ≤ 1 := by
  have h := (remembered .empty moves).sound
  refine ⟨h.current id, fun v hv => (born moves id v hv).status, ?_,
    fun u v w => h.status_eq_of_sublist, fun v hv w hw => h.sameIdentity hv hw,
    history_grows .empty moves more id, ?_, ?_⟩
  · refine (h.succession id).imp fun v w hvw => ?_
    rcases hvw.status with he | hc
    · exact .inl he
    · exact .inr (Status.canBecome_iff.mp hc)
  · intro o ho
    obtain ⟨o', ho', hev⟩ := evolves_later .empty moves more (h.mem_of_find? ho)
    exact ⟨o', ho', hev.identity⟩
  · refine ((remembered .empty (moves ++ more)).creations id).trans ?_
    split <;> decide

theorem lifecycle_safe_sold :
    ((trafficAt .empty (sold ++ built)).state.history .nil).map (·.status) =
        [.pendingPayment, .paid, .assembled] ∧
      (trafficAt .empty sold).state.store.find? .nil = some soldOrder ∧
      ∃ o, (trafficAt .empty (sold ++ built)).state.store.find? .nil = some o ∧
        soldOrder.SameIdentity o := by
  have hsold : (trafficAt .empty sold).state.store.find? .nil = some soldOrder := by
    decide +kernel
  obtain ⟨-, -, -, -, -, -, stays, -⟩ := lifecycle_safe sold built .nil
  exact ⟨by decide +kernel, hsold, stays soldOrder hsold⟩

end OrderDesk.Desk
