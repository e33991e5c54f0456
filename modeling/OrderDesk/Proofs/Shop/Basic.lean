import OrderDesk.Proofs.Desk.Announcement
import OrderDesk.Proofs.Desk.Answered
import OrderDesk.Proofs.Shop.Session
import OrderDesk.Proofs.Traffic.Moment
import OrderDesk.Proofs.Traffic.View

/-!
# Customers and readers over one store

A shop is one store with any number of customers, who bring requests to the desk, and of readers of
the feed. What the feed delivers and what becomes of commits is left to chance. The sessions of all
of them are lawful visits to the desk, so what holds in every traffic at the desk holds in the shop.

## Main definitions

* `Guest`, `Farewell`: customers and readers, and what they end with
* `Occasion`: what chance decides
* `shopAt`, `recordedAt`: the traffic of a shop, and the same with an archive
* `Guest.law`: the law of a guest

## Main results

* `keeps_guest`: every guest keeps its law
* `shop_invariant`: what the exchanges of lawful visits preserve holds in every shop
* `stored_later`, `paid_of_published`: what was stored is stored later; what was announced is paid
-/

namespace OrderDesk.Shop

open Consumer (Question Outcome atReader atDesk loop Reads)
open Desk (Visit Reply Outcomes Archive Circumstance Asks Happens Announced answered_inj)

/-- **A guest of the shop**: a customer with a visit to the desk, or a reader that takes turns by a
clock. -/
inductive Guest where
  | customer (visit : Visit)
  | reader (clock : List Instant)

/-- **What a guest ends with.** -/
inductive Farewell where
  | told (reply : Reply)
  | read (outcome : Option Outcome)

namespace Guest

/-- The program of a guest. -/
def program : Guest → Program Question Question.Answer Farewell
  | customer v => (atDesk v.program).map .told
  | reader clock => (loop clock).map .read

/-- What others will say to a guest. A reader does not speak to them. -/
def outcomes : Guest → Outcomes
  | customer v => v.outcomes
  | reader _ => ⟨.error .timeout, .error .timeout, .ok (), []⟩

end Guest

/-- **What chance decides** at a question: what the desk leaves to chance, and what the feed
answers. -/
structure Occasion (C : Type) where
  desk : C
  delivery : Except SourceError (Option Message)
  commit : Except SourceError Unit

variable {C σ : Type}

/-- **The answers to a guest**, by the answers that there are at the desk. -/
def answer (atDesk : Outcomes → C → (call : Call) → σ → Option call.Answer × σ) (g : Guest)
    (c : Occasion C) : (q : Question) → σ → Option q.Answer × σ
  | .receive, s => (some c.delivery, s)
  | .commit _, s => (some c.commit, s)
  | .desk call, s => atDesk g.outcomes c.desk call s

/-- **The rules of a shop**, by the answers that there are at the desk. -/
def rules (atDesk : Outcomes → C → (call : Call) → σ → Option call.Answer × σ) :
    Rules Guest (Occasion C) Question Question.Answer Farewell σ where
  program := Guest.program
  answer := answer atDesk

/-- **The shop at a store**, after some moves. -/
abbrev shopAt (s : Store) (moves : List (Move Guest (Occasion Instant))) :
    Traffic Guest Question Question.Answer Farewell Store :=
  (Traffic.opened s).run (rules Outcomes.answer) moves

/-- **The shop at an archive** that began with a store, after some moves. -/
abbrev recordedAt (s : Store) (moves : List (Move Guest (Occasion Circumstance))) :
    Traffic Guest Question Question.Answer Farewell Archive :=
  (Traffic.opened (.opened s)).run (rules Archive.answer) moves

/-- Nobody looks back. -/
def Occasion.fresh (c : Occasion Instant) : Occasion Circumstance :=
  ⟨.fresh c.desk, c.delivery, c.commit⟩

theorem rules_shows :
    (rules Archive.answer).Shows (rules Outcomes.answer) Archive.store Occasion.fresh where
  program _ := rfl
  answer g c q a := by
    cases q with
    | receive => rfl
    | commit m => rfl
    | desk call =>
      obtain ⟨hanswer, hstore⟩ := Archive.answer_fresh g.outcomes c.desk call a
      exact Prod.ext hanswer.symm hstore.symm

/-- **A store is an archive** at which nobody looks back. -/
theorem shopAt_eq (s : Store) (moves : List (Move Guest (Occasion Instant))) :
    shopAt s moves = (recordedAt s (moves.map (.withChance .fresh))).seen Archive.store :=
  Traffic.run_seen rules_shows (Traffic.opened (.opened s)) moves

/-! ## The law of a guest -/

/-- **The law of a guest**: a customer asks in its session what its request may ask, and a reader
keeps the law of readers. -/
def Guest.law : Guest → Law Question Question.Answer Farewell
  | customer v =>
    { asks := fun past q => ∃ call, q = .desk call ∧ Asks v.draw v.request (session past) call
      ends := fun _ _ => True }
  | reader _ =>
    { asks := Reads
      ends := fun past f => ∀ outcome, f = .read outcome → Consumer.law.ends past outcome }

theorem keeps_customer (v : Visit) {p : Program Call Call.Answer Reply} {calls : Desk.Past}
    {past : List (Exchange Question Question.Answer)} (h : p.Keeps (Desk.law v) calls)
    (hpast : session past = calls) :
    ((atDesk p).map Farewell.told).Keeps (Guest.law (.customer v)) past := by
  induction p generalizing calls past with
  | done r => trivial
  | ask call next ih =>
    subst hpast
    refine ⟨⟨call, rfl, h.1⟩, fun a => ih a (h.2 a) ?_⟩
    rw [session_snoc]
    rfl

/-- **Every guest keeps its law.** -/
theorem keeps_guest (g : Guest) : g.program.Keeps g.law [] := by
  cases g with
  | customer v => exact keeps_customer v (Desk.keeps_law v) rfl
  | reader clock =>
    refine Program.Keeps.map ?_ ?_ (Consumer.keeps_loop clock [])
    · exact fun h => h
    · rintro past outcome h _ ⟨⟩
      exact h

/-- **In its session** every guest asks what a request may ask. -/
theorem asks_session {g : Guest} {past : List (Exchange Question Question.Answer)} {call : Call}
    (h : g.law.asks past (.desk call)) : ∃ draw request, Asks draw request (session past) call := by
  cases g with
  | customer v =>
    obtain ⟨_, ⟨⟩, hasks⟩ := h
    exact ⟨_, _, hasks⟩
  | reader clock =>
    cases h with
    | desk decoded reaches =>
      rw [session_received]
      exact ⟨_, _, Desk.asks_of_reaches reaches⟩

/-! ## What holds in every shop -/

/-- **What the exchanges of lawful visits preserve holds in every shop**, for its sessions. -/
theorem shop_invariant {I : Archive → List (Nat × Exchange Call Call.Answer) → Prop}
    (exchange : ∀ {a a' who xs x}, Happens a (own who xs) x a' → I a xs → I a' (xs ++ [(who, x)]))
    {s : Store} (start : I (.opened s) []) (moves : List (Move Guest (Occasion Circumstance))) :
    I (recordedAt s moves).state (sessions (recordedAt s moves).exchanges) := by
  refine Traffic.exchange_invariant keeps_guest (I := fun a xs => I a (sessions xs)) ?_ start moves
  intro who g c q a answer a' xs asks answered inv
  rw [sessions_snoc]
  cases q with
  | receive =>
    obtain ⟨-, rfl⟩ := answered_inj answered
    simpa [desk?] using inv
  | commit m =>
    obtain ⟨-, rfl⟩ := answered_inj answered
    simpa [desk?] using inv
  | desk call =>
    obtain ⟨draw, request, hasks⟩ := asks_session asks
    rw [← (own_sessions who xs).1] at hasks
    exact exchange (Desk.happens_of_answer hasks answered) inv

/-- **In every shop** announcements are made by winners, once. -/
theorem announced_recorded (s : Store) (moves : List (Move Guest (Occasion Circumstance))) :
    Announced (recordedAt s moves).state (sessions (recordedAt s moves).exchanges) :=
  shop_invariant (fun happens h => h.exchange happens)
    ⟨Desk.remembered_opened s, by simp, by simp, by simp, fun _ => Nat.zero_le _⟩ moves

/-- Nothing that was stored is forgotten. -/
theorem versions_grow {g : Guest} {c : Occasion Circumstance} {q : Question} {a a' : Archive}
    {reply : Option q.Answer} (h : answer Archive.answer g c q a = (reply, a')) :
    a.versions <+: a'.versions := by
  cases q with
  | receive => exact (Prod.mk.inj h).2 ▸ List.prefix_refl _
  | commit m => exact (Prod.mk.inj h).2 ▸ List.prefix_refl _
  | desk call => exact Archive.versions_grow h

/-- **What was stored is stored later** in every shop. -/
theorem evolves_recorded (s : Store) (moves more : List (Move Guest (Occasion Circumstance)))
    {id : Uuid} {o : Order} (h : (recordedAt s moves).state.store.find? id = some o) :
    ∃ o', (recordedAt s (moves ++ more)).state.store.find? id = some o' ∧ o.Evolves o' := by
  have hversions : (recordedAt s moves).state.versions <+:
      (recordedAt s (moves ++ more)).state.versions := by
    rw [recordedAt, recordedAt, Traffic.run_append]
    exact Traffic.run_related (r := fun a a' : Archive => a.versions <+: a'.versions)
      (fun _ => List.prefix_refl _) List.IsPrefix.trans versions_grow _ _
  have hlater := (announced_recorded s (moves ++ more)).remembered.sound
  exact hlater.evolves_of_subset (hversions.filter _).subset
    ((announced_recorded s moves).remembered.sound.mem_of_find? h)

variable {s : Store} {moves : List (Move Guest (Occasion Instant))} {id : Uuid} {o : Order}

theorem stored_later (h : (shopAt s moves).state.find? id = some o)
    (more : List (Move Guest (Occasion Instant))) :
    ∃ o', (shopAt s (moves ++ more)).state.find? id = some o' ∧ o.Evolves o' := by
  rw [shopAt_eq] at h
  rw [shopAt_eq, List.map_append]
  exact evolves_recorded s _ _ h

/-- **What was announced is paid**, just as the event tells. -/
theorem paid_of_published {who : Nat} {event : PaidEvent} {answer : Except PublishError Unit}
    (h : (who, atReader ⟨.publish event, answer⟩) ∈ (shopAt s moves).exchanges) :
    ∃ o, (shopAt s moves).state.find? event.orderId = some o ∧ o.PaidAs event := by
  rw [shopAt_eq, Traffic.seen_exchanges] at h
  rw [shopAt_eq]
  obtain ⟨n, hn⟩ := mem_sessions h
  have hinv := announced_recorded s (moves.map (.withChance Occasion.fresh))
  obtain ⟨w, expected, hw, -, has⟩ := hinv.announced hn
  obtain ⟨cur, hcur, hev⟩ := hinv.landed hw
  rw [has.id] at hcur
  exact ⟨cur, hcur, has.of_evolves hev⟩

end OrderDesk.Shop
