import Mathlib.Data.Nat.Pairing
import OrderDesk.Proofs.Feed.Handling

/-!
# Sessions at the desk

A reader comes to the desk once for each message, so of its exchanges only those since the last
receipt belong together. Each of these sessions has a number of its own; by their numbers the
sessions of all readers and customers are visits to the desk.

## Main definitions

* `desk?`: the exchange of the desk behind an exchange of a reader
* `session`: what was asked at the desk since the last receipt
* `number`, `sessions`: the exchanges of the desk, each with the number of its session

## Main results

* `session_received`: a session begins with a receipt
* `own_sessions`: the exchanges with the number of the current session are that session
* `mem_sessions`: every exchange of the desk is in some session
-/

namespace OrderDesk.Shop

open Consumer (Question received atReader)
open Desk (Past)

/-- The exchange of the desk, if it was one. -/
def desk? : Exchange Question Question.Answer → Option (Exchange Call Call.Answer)
  | ⟨.desk call, answer⟩ => some ⟨call, answer⟩
  | _ => none

theorem desk?_eq_some_iff {x : Exchange Question Question.Answer} {y : Exchange Call Call.Answer} :
    desk? x = some y ↔ x = atReader y := by
  constructor
  · intro h
    obtain ⟨q, a⟩ := x
    cases q with
    | desk call =>
      cases h
      rfl
    | receive => cases h
    | commit m => cases h
  · rintro rfl
    rfl

/-- Whether an exchange asked for a message. -/
def isReceipt : Exchange Question Question.Answer → Bool
  | ⟨.receive, _⟩ => true
  | _ => false

/-- The session after one more exchange. -/
def sessionAfter (calls : Past) (x : Exchange Question Question.Answer) : Past :=
  if isReceipt x then [] else calls ++ (desk? x).toList

/-- **What was asked at the desk** since the last receipt. -/
def session (xs : List (Exchange Question Question.Answer)) : Past :=
  xs.foldl sessionAfter []

/-- How often a message was asked for. -/
def receipts (xs : List (Exchange Question Question.Answer)) : Nat :=
  xs.countP isReceipt

/-- **The number of the current session** of somebody. -/
def number (who : Nat) (xs : List (Nat × Exchange Question Question.Answer)) : Nat :=
  Nat.pair who (receipts (own who xs))

/-- The exchanges of the desk among those that follow `earlier`. -/
def sessionsFrom (earlier : List (Nat × Exchange Question Question.Answer)) :
    List (Nat × Exchange Question Question.Answer) → List (Nat × Exchange Call Call.Answer)
  | [] => []
  | x :: xs =>
    ((desk? x.2).map (Prod.mk (number x.1 earlier))).toList ++ sessionsFrom (earlier ++ [x]) xs

/-- **The exchanges of the desk**, each with the number of its session. -/
def sessions (xs : List (Nat × Exchange Question Question.Answer)) :
    List (Nat × Exchange Call Call.Answer) :=
  sessionsFrom [] xs

variable {xs : List (Nat × Exchange Question Question.Answer)} {who other n : Nat}
  {x : Exchange Question Question.Answer}

/-! ## One session -/

theorem session_snoc (past : List (Exchange Question Question.Answer))
    (x : Exchange Question Question.Answer) :
    session (past ++ [x]) = sessionAfter (session past) x := by
  simp [session]

theorem foldl_atReader (calls more : Past) :
    (more.map atReader).foldl sessionAfter calls = calls ++ more := by
  induction more generalizing calls with
  | nil => simp
  | cons x more ih =>
    rw [List.map_cons, List.foldl_cons, ih]
    simp [sessionAfter, isReceipt, desk?, atReader]

/-- **A session begins** with a receipt. -/
theorem session_received (earlier : List (Exchange Question Question.Answer)) (m : Message)
    (calls : Past) : session (earlier ++ received m :: calls.map atReader) = calls := by
  rw [session, List.foldl_append, List.foldl_cons, foldl_atReader]
  rfl

/-! ## All sessions -/

theorem sessionsFrom_append (earlier xs ys : List (Nat × Exchange Question Question.Answer)) :
    sessionsFrom earlier (xs ++ ys) =
      sessionsFrom earlier xs ++ sessionsFrom (earlier ++ xs) ys := by
  induction xs generalizing earlier with
  | nil => simp [sessionsFrom]
  | cons x xs ih => simp [sessionsFrom, ih]

theorem sessions_snoc : sessions (xs ++ [(who, x)]) =
    sessions xs ++ ((desk? x).map (Prod.mk (number who xs))).toList := by
  simp [sessions, sessionsFrom_append, sessionsFrom]

theorem receipts_snoc (past : List (Exchange Question Question.Answer))
    (x : Exchange Question Question.Answer) :
    receipts (past ++ [x]) = receipts past + if isReceipt x then 1 else 0 := by
  rw [receipts, List.countP_append, List.countP_singleton]
  rfl

theorem desk?_of_isReceipt (h : isReceipt x = true) : desk? x = none := by
  obtain ⟨q, a⟩ := x
  cases q with
  | receive => rfl
  | commit m => cases h
  | desk call => cases h

theorem own_sessions_snoc (h : ∀ past, number other past ≠ n) :
    own n (sessions (xs ++ [(other, x)])) = own n (sessions xs) := by
  rw [sessions_snoc, own_append]
  cases desk? x with
  | none => simp
  | some y => simp [own_other (h xs)]

/-- **The exchanges with the number of the current session** are that session, and no later number
is in use yet. -/
theorem own_sessions (who : Nat) (xs : List (Nat × Exchange Question Question.Answer)) :
    own (number who xs) (sessions xs) = session (own who xs) ∧
      ∀ k, receipts (own who xs) < k → own (Nat.pair who k) (sessions xs) = [] := by
  induction xs using List.reverseRecOn with
  | nil => exact ⟨rfl, fun _ _ => rfl⟩
  | append_singleton xs x ih =>
    obtain ⟨other, x⟩ := x
    obtain ⟨hown, hlater⟩ := ih
    by_cases ho : other = who
    · subst ho
      simp only [number, own_append, own_self, receipts_snoc, session_snoc, sessionAfter,
        sessions_snoc] at hown ⊢
      by_cases hx : isReceipt x = true
      · simp only [hx, if_true, desk?_of_isReceipt hx, Option.map_none, Option.toList_none]
        refine ⟨?_, fun k hk => ?_⟩
        · simpa using hlater _ (Nat.lt_succ_self _)
        · simpa using hlater k (by omega)
      · simp only [hx]
        cases desk? x with
        | none => simpa using ⟨hown, hlater⟩
        | some y =>
          refine ⟨by simp [hown], fun k hk => ?_⟩
          have hne : Nat.pair other (receipts (own other xs)) ≠ Nat.pair other k := by
            intro h
            have := (Nat.pair_eq_pair.mp h).2
            simp at hk
            omega
          simpa [own_other hne] using hlater k (by simpa using hk)
    · have hnum (k : Nat) : own (Nat.pair who k) (sessions (xs ++ [(other, x)])) =
          own (Nat.pair who k) (sessions xs) :=
        own_sessions_snoc fun past h => ho (Nat.pair_eq_pair.mp h).1
      simp only [number, own_append, own_other ho, List.append_nil] at hown ⊢
      refine ⟨?_, fun k hk => ?_⟩
      · rw [hnum, hown]
      · rw [hnum, hlater k hk]

/-- **Every exchange of the desk** is in some session. -/
theorem mem_sessions {y : Exchange Call Call.Answer} (h : (who, atReader y) ∈ xs) :
    ∃ n, (n, y) ∈ sessions xs := by
  induction xs using List.reverseRecOn with
  | nil => cases h
  | append_singleton xs x ih =>
    obtain ⟨other, x⟩ := x
    rw [sessions_snoc]
    rcases List.mem_append.mp h with h | h
    · obtain ⟨n, hn⟩ := ih h
      exact ⟨n, List.mem_append_left _ hn⟩
    · obtain ⟨-, rfl⟩ := Prod.mk.inj (List.mem_singleton.mp h)
      exact ⟨number other xs, List.mem_append_right _ (by simp [desk?, atReader])⟩

end OrderDesk.Shop
