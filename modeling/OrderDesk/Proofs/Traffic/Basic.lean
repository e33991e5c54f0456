import Mathlib.Data.List.Induction
import OrderDesk.Program

/-!
# Traffic

Any number of programs under way at once over one state. Each question is asked and answered in one
step, and between two questions of a visit any steps of other visits may happen. A visit can be
abandoned wherever it stands.

## Main definitions

* `Rules`: the program of a visit, and the answers to its questions
* `Traffic`: the state, the visits, and what was seen of them
* `Move`, `Traffic.move`, `Traffic.run`: what can happen next, and any interleaving of it
* `Traffic.exchanges`, `own`: the questions answered so far, and those of one visit
* `Traffic.Precedes`: one visit had returned before another arrived

## Main results

* `Traffic.move_step`: all that a move can do
* `Traffic.run_invariant`, `Traffic.run_related`: what steps preserve, runs preserve
-/

namespace OrderDesk

/-- **A question and the answer it got.** -/
structure Exchange (Q : Type) (A : Q → Type) where
  question : Q
  answer : A question

/-- **The rules of the traffic**: the program of a visit, and the answer to one of its questions,
which may hang on the visit and on chance and may change the state. -/
structure Rules (V C Q : Type) (A : Q → Type) (R σ : Type) where
  program : V → Program Q A R
  answer : V → C → (q : Q) → σ → Option (A q) × σ

/-- **Where a visit stands.** -/
inductive Stage (Q : Type) (A : Q → Type) (R : Type) where
  | underway (rest : Program Q A R)
  | returned (result : R)
  | abandoned

/-- Whether a visit has returned. -/
def Stage.isReturned {Q : Type} {A : Q → Type} {R : Type} : Stage Q A R → Bool
  | .returned _ => true
  | _ => false

/-- **What is seen of a visit.** -/
inductive Event (V Q : Type) (A : Q → Type) (R : Type) where
  | arrived (visit : V)
  | exchanged (exchange : Exchange Q A)
  | returned (result : R)
  | abandoned

/-- The exchange that was seen, if it was one. -/
def Event.exchange? {V Q : Type} {A : Q → Type} {R : Type} : Event V Q A R → Option (Exchange Q A)
  | .exchanged x => some x
  | _ => none

/-- **What happens next**: a visit arrives, or the visit with a number goes on or is abandoned.
Visits are numbered as they arrive. -/
inductive Move (V C : Type) where
  | arrive (visit : V)
  | proceed (who : Nat) (chance : C)
  | abandon (who : Nat)

/-- **Traffic**: the state, every visit with where it stands, and what was seen, oldest first, each
with the number of its visit. -/
structure Traffic (V Q : Type) (A : Q → Type) (R σ : Type) where
  state : σ
  visits : List (V × Stage Q A R)
  log : List (Nat × Event V Q A R)

/-- The exchanges of one visit among those of all. -/
def own {Q : Type} {A : Q → Type} (who : Nat) (xs : List (Nat × Exchange Q A)) :
    List (Exchange Q A) :=
  xs.filterMap fun x => if x.1 = who then some x.2 else none

section Own

variable {Q : Type} {A : Q → Type} {who other : Nat} {xs ys : List (Nat × Exchange Q A)}
  {x : Exchange Q A}

@[simp] theorem own_nil : own who ([] : List (Nat × Exchange Q A)) = [] := rfl

@[simp] theorem own_append : own who (xs ++ ys) = own who xs ++ own who ys :=
  List.filterMap_append

@[simp] theorem own_self : own who [(who, x)] = [x] := by
  simp [own]

theorem own_other (h : other ≠ who) : own who [(other, x)] = [] := by
  simp [own, h]

theorem own_mono (h : xs <+: ys) : own who xs <+: own who ys :=
  h.filterMap _

theorem mem_own : x ∈ own who xs ↔ (who, x) ∈ xs := by
  constructor
  · intro h
    obtain ⟨⟨i, y⟩, hy, he⟩ := List.mem_filterMap.mp h
    by_cases hi : i = who
    · subst hi
      obtain rfl : y = x := by simpa using he
      exact hy
    · simp [hi] at he
  · intro h
    exact List.mem_filterMap.mpr ⟨(who, x), h, by simp⟩

end Own

namespace Traffic

variable {V C Q : Type} {A : Q → Type} {R σ : Type}

/-- No visit has arrived yet. -/
def opened (s : σ) : Traffic V Q A R σ := ⟨s, [], []⟩

/-- **A visit arrives.** -/
def enter (rules : Rules V C Q A R σ) (t : Traffic V Q A R σ) (v : V) : Traffic V Q A R σ where
  state := t.state
  visits := t.visits ++ [(v, .underway (rules.program v))]
  log := t.log ++ [(t.visits.length, .arrived v)]

/-- Something is seen of a visit, which leaves it at a stage. -/
def note (t : Traffic V Q A R σ) (who : Nat) (v : V) (stage : Stage Q A R) (s : σ)
    (e : Event V Q A R) : Traffic V Q A R σ where
  state := s
  visits := t.visits.set who (v, stage)
  log := t.log ++ [(who, e)]

/-- **A visit goes on**: it returns its result, or its question is answered. A question without an
answer leaves everything as it is. -/
def advance (rules : Rules V C Q A R σ) (t : Traffic V Q A R σ) (who : Nat) (v : V) (c : C) :
    Program Q A R → Traffic V Q A R σ
  | .done r => t.note who v (.returned r) t.state (.returned r)
  | .ask q next =>
    match rules.answer v c q t.state with
    | (some a, s) => t.note who v (.underway (next a)) s (.exchanged ⟨q, a⟩)
    | (none, _) => t

/-- **A move.** One that names a visit which is not under way changes nothing. -/
def move (rules : Rules V C Q A R σ) (t : Traffic V Q A R σ) : Move V C → Traffic V Q A R σ
  | .arrive v => t.enter rules v
  | .proceed who c =>
    match t.visits[who]? with
    | some (v, .underway p) => t.advance rules who v c p
    | _ => t
  | .abandon who =>
    match t.visits[who]? with
    | some (v, .underway _) => t.note who v .abandoned t.state .abandoned
    | _ => t

/-- **Moves one after another**: any list of moves is an interleaving. -/
def run (rules : Rules V C Q A R σ) (t : Traffic V Q A R σ) (moves : List (Move V C)) :
    Traffic V Q A R σ :=
  moves.foldl (move rules) t

/-- The questions answered so far, oldest first, each with the number of its visit. -/
def exchanges (t : Traffic V Q A R σ) : List (Nat × Exchange Q A) :=
  t.log.filterMap fun e => e.2.exchange?.map fun x => (e.1, x)

/-- Every visit has returned. -/
def Complete (t : Traffic V Q A R σ) : Prop :=
  ∀ x ∈ t.visits, ∃ r, x.2 = .returned r

instance (t : Traffic V Q A R σ) : Decidable t.Complete :=
  decidable_of_iff (t.visits.all fun x => x.2.isReturned) <| by
    rw [List.all_eq_true]
    refine forall₂_congr fun x _ => ?_
    cases x.2 <;> simp [Stage.isReturned]

/-- **Real time**: the visit `a` had returned before the visit `b` arrived. -/
def Precedes (log : List (Nat × Event V Q A R)) (a b : Nat) : Prop :=
  ∃ before after r v, log = before ++ after ∧ (a, .returned r) ∈ before ∧ (b, .arrived v) ∈ after

/-- The visits with their numbers. -/
def numbered (t : Traffic V Q A R σ) : List (V × Nat) :=
  (t.visits.map Prod.fst).zipIdx

theorem run_append (rules : Rules V C Q A R σ) (t : Traffic V Q A R σ)
    (moves more : List (Move V C)) :
    t.run rules (moves ++ more) = (t.run rules moves).run rules more :=
  List.foldl_append

theorem run_snoc (rules : Rules V C Q A R σ) (t : Traffic V Q A R σ) (moves : List (Move V C))
    (m : Move V C) : t.run rules (moves ++ [m]) = (t.run rules moves).move rules m := by
  rw [run_append]
  rfl

/-! ## One step -/

/-- **All that a move can do.** -/
inductive Step (rules : Rules V C Q A R σ) (t : Traffic V Q A R σ) : Traffic V Q A R σ → Prop
  | still : Step rules t t
  | arrive (v : V) : Step rules t (t.enter rules v)
  | abandon {who : Nat} {v : V} {p : Program Q A R}
    (standing : t.visits[who]? = some (v, .underway p)) :
    Step rules t (t.note who v .abandoned t.state .abandoned)
  | back {who : Nat} {v : V} {r : R} (standing : t.visits[who]? = some (v, .underway (.done r))) :
    Step rules t (t.note who v (.returned r) t.state (.returned r))
  | ask {who : Nat} {v : V} {c : C} {q : Q} {next : A q → Program Q A R} {a : A q} {s : σ}
    (standing : t.visits[who]? = some (v, .underway (.ask q next)))
    (answered : rules.answer v c q t.state = (some a, s)) :
    Step rules t (t.note who v (.underway (next a)) s (.exchanged ⟨q, a⟩))

theorem move_step (rules : Rules V C Q A R σ) (t : Traffic V Q A R σ) (m : Move V C) :
    Step rules t (t.move rules m) := by
  cases m with
  | arrive v => exact .arrive v
  | proceed who c =>
    simp only [move]
    split
    · rename_i v p hat
      cases p with
      | done r => exact .back hat
      | ask q next =>
        simp only [advance]
        split
        · rename_i a s hs
          exact .ask hat hs
        · exact .still
    · exact .still
  | abandon who =>
    simp only [move]
    split
    · rename_i v p hat
      exact .abandon hat
    · exact .still

/-- **What steps preserve, runs preserve.** -/
theorem run_invariant {rules : Rules V C Q A R σ} {I : Traffic V Q A R σ → Prop}
    (step : ∀ t t', I t → Step rules t t' → I t') {t : Traffic V Q A R σ} (start : I t)
    (moves : List (Move V C)) : I (t.run rules moves) := by
  induction moves using List.reverseRecOn with
  | nil => exact start
  | append_singleton moves m ih =>
    rw [run_snoc]
    exact step _ _ ih (move_step rules _ m)

/-- A relation that each answer keeps between the states before and after it holds between the
states before and after a run. -/
theorem run_related {rules : Rules V C Q A R σ} {r : σ → σ → Prop} (refl : ∀ s, r s s)
    (trans : ∀ {s₁ s₂ s₃}, r s₁ s₂ → r s₂ s₃ → r s₁ s₃)
    (answer : ∀ {v c q s a s'}, rules.answer v c q s = (some a, s') → r s s')
    (t : Traffic V Q A R σ) (moves : List (Move V C)) : r t.state (t.run rules moves).state := by
  refine run_invariant (I := fun t' => r t.state t'.state) ?_ (refl _) moves
  intro t₁ t₂ h step
  cases step with
  | still => exact h
  | arrive v => exact h
  | abandon _ => exact h
  | back _ => exact h
  | ask _ answered => exact trans h (answer answered)

/-! ## What was seen stays seen -/

theorem Step.log_prefix {rules : Rules V C Q A R σ} {t t' : Traffic V Q A R σ}
    (h : Step rules t t') : t.log <+: t'.log := by
  cases h with
  | still => exact List.prefix_refl _
  | arrive v => exact List.prefix_append _ _
  | abandon _ => exact List.prefix_append _ _
  | back _ => exact List.prefix_append _ _
  | ask _ _ => exact List.prefix_append _ _

theorem log_prefix_run (rules : Rules V C Q A R σ) (t : Traffic V Q A R σ)
    (moves : List (Move V C)) : t.log <+: (t.run rules moves).log :=
  run_invariant (I := fun t' => t.log <+: t'.log) (fun _ _ h step => h.trans step.log_prefix)
    (List.prefix_refl _) moves

theorem mem_exchanges {t : Traffic V Q A R σ} {who : Nat} {x : Exchange Q A} :
    (who, x) ∈ t.exchanges ↔ (who, .exchanged x) ∈ t.log := by
  constructor
  · intro h
    obtain ⟨⟨i, e⟩, he, hx⟩ := List.mem_filterMap.mp h
    cases e with
    | exchanged y =>
      obtain ⟨rfl, rfl⟩ : i = who ∧ y = x := by simpa [Event.exchange?] using hx
      exact he
    | arrived v => simp [Event.exchange?] at hx
    | returned r => simp [Event.exchange?] at hx
    | abandoned => simp [Event.exchange?] at hx
  · intro h
    exact List.mem_filterMap.mpr ⟨_, h, rfl⟩

@[simp] theorem exchanges_enter (rules : Rules V C Q A R σ) (t : Traffic V Q A R σ) (v : V) :
    (t.enter rules v).exchanges = t.exchanges := by
  simp [exchanges, enter, Event.exchange?]

@[simp] theorem exchanges_note_returned (t : Traffic V Q A R σ) (who : Nat) (v : V)
    (stage : Stage Q A R) (s : σ) (r : R) :
    (t.note who v stage s (.returned r)).exchanges = t.exchanges := by
  simp [exchanges, note, Event.exchange?]

@[simp] theorem exchanges_note_abandoned (t : Traffic V Q A R σ) (who : Nat) (v : V)
    (stage : Stage Q A R) (s : σ) :
    (t.note who v stage s .abandoned).exchanges = t.exchanges := by
  simp [exchanges, note, Event.exchange?]

@[simp] theorem exchanges_note_exchanged (t : Traffic V Q A R σ) (who : Nat) (v : V)
    (stage : Stage Q A R) (s : σ) (x : Exchange Q A) :
    (t.note who v stage s (.exchanged x)).exchanges = t.exchanges ++ [(who, x)] := by
  simp [exchanges, note, Event.exchange?]

theorem exchanges_prefix_run (rules : Rules V C Q A R σ) (t : Traffic V Q A R σ)
    (moves : List (Move V C)) : t.exchanges <+: (t.run rules moves).exchanges :=
  (log_prefix_run rules t moves).filterMap _

theorem exchanges_prefix_append (rules : Rules V C Q A R σ) (t : Traffic V Q A R σ)
    (moves more : List (Move V C)) :
    (t.run rules moves).exchanges <+: (t.run rules (moves ++ more)).exchanges := by
  rw [run_append]
  exact exchanges_prefix_run rules _ more

/-! ## The visits and the log agree -/

/-- **The books agree**: the log names only visits that arrived, and of those it tells the same as
the list of visits. -/
structure Booked (t : Traffic V Q A R σ) : Prop where
  arrived : ∀ {who v}, (who, .arrived v) ∈ t.log ↔ ∃ stage, t.visits[who]? = some (v, stage)
  returned : ∀ {who r}, (who, .returned r) ∈ t.log ↔ ∃ v, t.visits[who]? = some (v, .returned r)
  exchanged : ∀ {who x}, (who, .exchanged x) ∈ t.log → who < t.visits.length

theorem getElem?_enter {rules : Rules V C Q A R σ} {t : Traffic V Q A R σ} {v w : V} {who : Nat}
    {stage : Stage Q A R} :
    (t.enter rules v).visits[who]? = some (w, stage) ↔
      t.visits[who]? = some (w, stage) ∨
        who = t.visits.length ∧ w = v ∧ stage = .underway (rules.program v) := by
  simp only [enter, List.getElem?_append]
  split
  · -- a visit that had arrived before
    rename_i h
    constructor
    · exact .inl
    · rintro (h' | ⟨rfl, -, -⟩)
      · exact h'
      · exact absurd h (Nat.lt_irrefl _)
  · -- the new one, or none
    rename_i h
    rw [List.getElem?_singleton]
    constructor
    · intro h'
      split at h'
      · rename_i h₀
        obtain ⟨rfl, rfl⟩ : v = w ∧ .underway (rules.program v) = stage := by simpa using h'
        exact .inr ⟨by omega, rfl, rfl⟩
      · simp at h'
    · rintro (h' | ⟨rfl, rfl, rfl⟩)
      · exact absurd (List.getElem?_eq_some_iff.mp h').1 h
      · simp

theorem getElem?_note {t : Traffic V Q A R σ} {who other : Nat} {v w : V}
    {stage stage' : Stage Q A R} {s : σ} {e : Event V Q A R} (h : who < t.visits.length) :
    (t.note who v stage s e).visits[other]? = some (w, stage') ↔
      (other = who ∧ w = v ∧ stage' = stage) ∨
        (other ≠ who ∧ t.visits[other]? = some (w, stage')) := by
  simp only [note, List.getElem?_set, h, if_true]
  by_cases e : who = other
  · subst e
    simp [eq_comm]
  · simp [e, Ne.symm e]

theorem Booked.enter {t : Traffic V Q A R σ} (h : t.Booked) (rules : Rules V C Q A R σ) (v : V) :
    (t.enter rules v).Booked where
  arrived := by
    intro who w
    simp only [getElem?_enter, exists_or, ← h.arrived]
    simp [Traffic.enter]
  returned := by
    intro who r
    simp only [getElem?_enter, exists_or, ← h.returned]
    simp [Traffic.enter]
  exchanged := by
    intro who x hx
    have hx : (who, Event.exchanged x) ∈ t.log := by simpa [Traffic.enter] using hx
    have := h.exchanged hx
    simp only [Traffic.enter, List.length_append, List.length_singleton]
    omega

/-- The books agree after an event that is no arrival, and a return exactly if the visit is left
returned. -/
theorem Booked.note {t : Traffic V Q A R σ} (h : t.Booked) {who : Nat} {v : V}
    {p : Program Q A R} (standing : t.visits[who]? = some (v, .underway p)) {stage : Stage Q A R}
    (s : σ) {e : Event V Q A R} (noArrival : ∀ w, e ≠ .arrived w)
    (fits : ∀ r, e = .returned r ↔ stage = .returned r) : (t.note who v stage s e).Booked := by
  have hlt : who < t.visits.length := (List.getElem?_eq_some_iff.mp standing).1
  have hlog {other : Nat} {e' : Event V Q A R} : (other, e') ∈ (t.note who v stage s e).log ↔
      (other, e') ∈ t.log ∨ other = who ∧ e' = e := by
    simp [Traffic.note]
  refine ⟨?_, ?_, ?_⟩
  · intro other w
    simp only [hlog, getElem?_note hlt, exists_or, h.arrived]
    constructor
    · rintro (⟨stage', hs⟩ | ⟨-, he⟩)
      · by_cases ho : other = who
        · subst ho
          rw [standing] at hs
          obtain ⟨rfl, -⟩ : v = w ∧ _ := by simpa using hs
          exact .inl ⟨stage, rfl, rfl, rfl⟩
        · exact .inr ⟨stage', ho, hs⟩
      · exact absurd he.symm (noArrival w)
    · rintro (⟨-, rfl, rfl, -⟩ | ⟨stage', -, hs⟩)
      · exact .inl ⟨_, standing⟩
      · exact .inl ⟨stage', hs⟩
  · intro other r
    simp only [hlog, getElem?_note hlt, exists_or, h.returned]
    constructor
    · rintro (⟨w, hw⟩ | ⟨rfl, he⟩)
      · refine .inr ⟨w, ?_, hw⟩
        rintro rfl
        rw [standing] at hw
        simp at hw
      · exact .inl ⟨v, rfl, rfl, ((fits r).mp he.symm).symm⟩
    · rintro (⟨w, rfl, rfl, hs⟩ | ⟨w, -, hw⟩)
      · exact .inr ⟨rfl, ((fits r).mpr hs.symm).symm⟩
      · exact .inl ⟨w, hw⟩
  · intro other x hx
    rcases hlog.mp hx with hx | ⟨rfl, -⟩
    · simpa [Traffic.note] using h.exchanged hx
    · simpa [Traffic.note] using hlt

theorem Booked.step {rules : Rules V C Q A R σ} {t t' : Traffic V Q A R σ} (h : t.Booked)
    (step : Step rules t t') : t'.Booked := by
  cases step with
  | still => exact h
  | arrive v => exact h.enter rules v
  | abandon standing => exact h.note standing _ (by simp) (by simp)
  | back standing => exact h.note standing _ (by simp) (by simp)
  | ask standing _ => exact h.note standing _ (by simp) (by simp)

theorem booked_opened (s : σ) : (opened s : Traffic V Q A R σ).Booked where
  arrived := by simp [opened]
  returned := by simp [opened]
  exchanged := by simp [opened]

theorem booked_run (rules : Rules V C Q A R σ) (s : σ) (moves : List (Move V C)) :
    ((opened s).run rules moves).Booked :=
  run_invariant (fun _ _ h step => h.step step) (booked_opened s) moves

end Traffic

end OrderDesk
