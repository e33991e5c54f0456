import Mathlib.Data.List.Nodup
import OrderDesk.Proofs.Traffic.Basic

/-!
# Traffic that reads as one visit after another

A visit takes effect at one step between its arrival and its return. Before that step it only waits
for its moment, after it the result is settled and nothing more is changed. If the programs of all
visits are of this kind, the visits in the order of their effects, run one at a time, give the same
results and the same state, and no visit comes before one that had returned when it arrived.

## Main definitions

* `Reading`: what a visit does when it is alone, and what counts as the same
* `Reading.Settled`, `Reading.Waiting`: the two halves of a visit
* `Reading.oneByOne`: visits run one at a time

## Main results

* `Reading.linearizable`: complete traffic of waiting programs reads as one visit after another
-/

namespace OrderDesk

open Traffic

/-- **A reading of traffic**: what a visit does alone, by a clock of its own, how the state may
evolve, and when states and results count as the same. -/
structure Reading (V K R σ : Type) where
  alone : V → K → σ → Option R × σ
  evolves : σ → σ → Prop
  alike : σ → σ → Prop
  agree : R → R → Prop
  evolves_refl : ∀ s, evolves s s
  evolves_trans : ∀ {s₁ s₂ s₃}, evolves s₁ s₂ → evolves s₂ s₃ → evolves s₁ s₃
  alike_refl : ∀ s, alike s s

namespace Reading

variable {V C K Q : Type} {A : Q → Type} {R σ : Type}

/-- **Visits one at a time**, each by its own clock: their results, each with the number of its
visit, and the state they leave. -/
def oneByOne (reading : Reading V K R σ) (clock : Nat → K) (order : List (V × Nat)) (s : σ) :
    List (Nat × Option R) × σ :=
  order.foldl (fun (replies, s) (v, who) =>
    let (r, s) := reading.alone v (clock who) s
    (replies ++ [(who, r)], s)) ([], s)

theorem oneByOne_snoc (reading : Reading V K R σ) (clock : Nat → K) (order : List (V × Nat))
    (v : V) (who : Nat) (s : σ) :
    reading.oneByOne clock (order ++ [(v, who)]) s =
      ((reading.oneByOne clock order s).1 ++
          [(who, (reading.alone v (clock who) (reading.oneByOne clock order s).2).1)],
        (reading.alone v (clock who) (reading.oneByOne clock order s).2).2) := by
  rw [oneByOne, List.foldl_append]
  rfl

/-- **The result is settled**: whenever the visit goes on, it changes nothing, and it returns what
agrees with `r`. -/
def Settled (reading : Reading V K R σ) (answer : C → (q : Q) → σ → Option (A q) × σ) (r : R) :
    Program Q A R → Prop
  | .done r' => reading.agree r r'
  | .ask q next => ∀ c s a s', answer c q s = (some a, s') →
    s' = s ∧ reading.Settled answer r (next a)

/-- **The visit takes effect between two states**: alone, from a state like the first, it ends in
one like the second, with a result for which all is settled. -/
def TakesEffect (reading : Reading V K R σ) (v : V) (s s' : σ) (settled : R → Prop) : Prop :=
  ∀ k t, reading.alike s t → ∃ r t', reading.alone v k t = (some r, t') ∧ reading.alike s' t' ∧
    settled r

/-- **The visit waits for its moment**, whatever the state has become meanwhile: the answer to its
next question either is the moment, or changes nothing. -/
def Waiting (reading : Reading V K R σ) (answer : C → (q : Q) → σ → Option (A q) × σ) (v : V) :
    Program Q A R → σ → Prop
  | .done r, s => ∀ s', reading.evolves s s' →
    reading.TakesEffect v s' s' fun r' => reading.agree r' r
  | .ask q next, s => ∀ s', reading.evolves s s' → ∀ c a s'', answer c q s' = (some a, s'') →
    reading.evolves s' s'' ∧
      (reading.TakesEffect v s' s'' (fun r => reading.Settled answer r (next a)) ∨
        s'' = s' ∧ reading.Waiting answer v (next a) s')

theorem Waiting.evolve {reading : Reading V K R σ} {answer : C → (q : Q) → σ → Option (A q) × σ}
    {v : V} {p : Program Q A R} {s s' : σ} (h : reading.Waiting answer v p s)
    (e : reading.evolves s s') : reading.Waiting answer v p s' := by
  cases p with
  | done r => exact fun u hu => h u (reading.evolves_trans e hu)
  | ask q next => exact fun u hu => h u (reading.evolves_trans e hu)

/-- How a visit stands that took effect with the result `r`. -/
def Fits (reading : Reading V K R σ) (answer : C → (q : Q) → σ → Option (A q) × σ) (r : R) :
    Stage Q A R → Prop
  | .underway p => reading.Settled answer r p
  | .returned r' => reading.agree r r'
  | .abandoned => True

/-! ## Real time -/

theorem precedes_snoc {log : List (Nat × Event V Q A R)} {e : Nat × Event V Q A R} {a b : Nat}
    (h : Precedes (log ++ [e]) a b) : Precedes log a b ∨ ∃ v, e = (b, .arrived v) := by
  obtain ⟨before, after, r, v, hlog, hr, hv⟩ := h
  rcases List.eq_nil_or_concat after with rfl | ⟨after, e', rfl⟩
  · cases hv
  · rw [List.concat_eq_append] at hlog hv
    rw [← List.append_assoc] at hlog
    obtain ⟨rfl, he⟩ := List.append_inj' hlog rfl
    obtain rfl : e = e' := by simpa using he
    rcases List.mem_append.mp hv with hv | hv
    · exact .inl ⟨before, after, r, v, rfl, hr, hv⟩
    · exact .inr ⟨v, by simpa [eq_comm] using hv⟩

theorem returned_of_precedes {log : List (Nat × Event V Q A R)} {a b : Nat}
    (h : Precedes log a b) : ∃ r, (a, .returned r) ∈ log := by
  obtain ⟨before, after, r, -, rfl, hr, -⟩ := h
  exact ⟨r, List.mem_append_left _ hr⟩

/-! ## The order of the effects -/

/-- **The visits that took effect**, in the order of their effects, with all that is known of them
while the traffic goes on. -/
structure Ordered (reading : Reading V K R σ) (rules : Rules V C Q A R σ) (s₀ : σ)
    (t : Traffic V Q A R σ) (order : List (V × Nat)) : Prop where
  nodup : order.Nodup
  known : ∀ {v who}, (v, who) ∈ order → ∃ stage, t.visits[who]? = some (v, stage)
  realTime : order.Pairwise fun a b => ¬ Precedes t.log b.2 a.2
  waiting : ∀ {who : Nat} {v p}, t.visits[who]? = some (v, .underway p) → (v, who) ∉ order →
    reading.Waiting (rules.answer v) v p t.state
  returned : ∀ {who : Nat} {v r}, t.visits[who]? = some (v, .returned r) → (v, who) ∈ order
  same : ∀ clock, reading.alike t.state (reading.oneByOne clock order s₀).2 ∧
    ∀ {v who stage}, (v, who) ∈ order → t.visits[who]? = some (v, stage) →
      ∃ r, (who, some r) ∈ (reading.oneByOne clock order s₀).1 ∧
        reading.Fits (rules.answer v) r stage

namespace Ordered

variable {reading : Reading V K R σ} {rules : Rules V C Q A R σ} {s₀ : σ}
  {t : Traffic V Q A R σ} {order : List (V × Nat)} {who : Nat} {v : V} {p : Program Q A R}
  {stage : Stage Q A R} {e : Event V Q A R}

theorem opened (s : σ) : reading.Ordered rules s (Traffic.opened s) [] where
  nodup := List.nodup_nil
  known := by simp
  realTime := List.Pairwise.nil
  waiting := by simp [Traffic.opened]
  returned := by simp [Traffic.opened]
  same _ := ⟨reading.alike_refl s, by simp⟩

theorem enter (h : reading.Ordered rules s₀ t order)
    (waits : reading.Waiting (rules.answer v) v (rules.program v) t.state) :
    reading.Ordered rules s₀ (t.enter rules v) order where
  nodup := h.nodup
  known hx := by
    obtain ⟨stage, hs⟩ := h.known hx
    exact ⟨stage, getElem?_enter.mpr (.inl hs)⟩
  realTime := by
    refine h.realTime.imp_of_mem fun {a b} ha _ hab hp => ?_
    rcases precedes_snoc hp with hp | ⟨w, he⟩
    · exact hab hp
    · -- whoever took effect had arrived before
      obtain ⟨stage, hs⟩ := h.known ha
      have hlt := (List.getElem?_eq_some_iff.mp hs).1
      have : t.visits.length = a.2 := congrArg Prod.fst he
      omega
  waiting hp hx := by
    rcases getElem?_enter.mp hp with hp | ⟨-, rfl, hp⟩
    · exact h.waiting hp hx
    · obtain rfl := Stage.underway.inj hp
      exact waits
  returned hr := by
    rcases getElem?_enter.mp hr with hr | ⟨-, -, hr⟩
    · exact h.returned hr
    · cases hr
  same clock := by
    obtain ⟨halike, hfits⟩ := h.same clock
    refine ⟨halike, fun hx hs => ?_⟩
    rcases getElem?_enter.mp hs with hs | ⟨rfl, -, -⟩
    · exact hfits hx hs
    · obtain ⟨stage', hs'⟩ := h.known hx
      exact absurd (List.getElem?_eq_some_iff.mp hs').1 (Nat.lt_irrefl _)

/-- An event that is no arrival keeps the order of the effects within real time. -/
theorem realTime_snoc (h : reading.Ordered rules s₀ t order) (noArrival : ∀ w, e ≠ .arrived w) :
    order.Pairwise fun a b => ¬ Precedes (t.log ++ [(who, e)]) b.2 a.2 := by
  refine h.realTime.imp fun {a b} hab hp => ?_
  rcases precedes_snoc hp with hp | ⟨w, he⟩
  · exact hab hp
  · exact noArrival w (congrArg Prod.snd he)

/-- A visit that is still known after something was seen of another one. -/
theorem known_note (h : reading.Ordered rules s₀ t order) {s : σ}
    (standing : t.visits[who]? = some (v, .underway p)) {w : V} {other : Nat}
    (hx : (w, other) ∈ order) :
    ∃ stage', (t.note who v stage s e).visits[other]? = some (w, stage') := by
  have hlt : who < t.visits.length := (List.getElem?_eq_some_iff.mp standing).1
  obtain ⟨stage', hs⟩ := h.known hx
  by_cases ho : other = who
  · subst ho
    rw [standing] at hs
    obtain rfl : v = w := congrArg Prod.fst (Option.some.inj hs)
    exact ⟨stage, (getElem?_note hlt).mpr (.inl ⟨rfl, rfl, rfl⟩)⟩
  · exact ⟨stage', (getElem?_note hlt).mpr (.inr ⟨ho, hs⟩)⟩

/-- **After its effect** a visit may do what its settled result allows. -/
theorem note_of_mem (h : reading.Ordered rules s₀ t order)
    (standing : t.visits[who]? = some (v, .underway p)) (noArrival : ∀ w, e ≠ .arrived w)
    (hx : (v, who) ∈ order)
    (fits : ∀ r, reading.Settled (rules.answer v) r p → reading.Fits (rules.answer v) r stage) :
    reading.Ordered rules s₀ (t.note who v stage t.state e) order := by
  have hlt : who < t.visits.length := (List.getElem?_eq_some_iff.mp standing).1
  refine ⟨h.nodup, h.known_note standing, h.realTime_snoc noArrival, ?_, ?_, ?_⟩
  · intro other w p' hp hnot
    rcases (getElem?_note hlt).mp hp with ⟨rfl, rfl, -⟩ | ⟨-, hp⟩
    · exact absurd hx hnot
    · exact h.waiting hp hnot
  · intro other w r hr
    rcases (getElem?_note hlt).mp hr with ⟨rfl, rfl, -⟩ | ⟨-, hr⟩
    · exact hx
    · exact h.returned hr
  · intro clock
    obtain ⟨halike, hfits⟩ := h.same clock
    refine ⟨halike, fun hx' hs => ?_⟩
    rcases (getElem?_note hlt).mp hs with ⟨rfl, rfl, rfl⟩ | ⟨-, hs⟩
    · obtain ⟨r, hr, hset⟩ := hfits hx standing
      exact ⟨r, hr, fits r hset⟩
    · exact hfits hx' hs

/-- **Before its effect** a visit may go on waiting, or be abandoned. -/
theorem note_of_waiting (h : reading.Ordered rules s₀ t order)
    (standing : t.visits[who]? = some (v, .underway p)) (noArrival : ∀ w, e ≠ .arrived w)
    (hx : (v, who) ∉ order)
    (waits : ∀ p', stage = .underway p' → reading.Waiting (rules.answer v) v p' t.state)
    (noReturn : ∀ r, stage ≠ .returned r) :
    reading.Ordered rules s₀ (t.note who v stage t.state e) order := by
  have hlt : who < t.visits.length := (List.getElem?_eq_some_iff.mp standing).1
  refine ⟨h.nodup, h.known_note standing, h.realTime_snoc noArrival, ?_, ?_, ?_⟩
  · intro other w p' hp hnot
    rcases (getElem?_note hlt).mp hp with ⟨rfl, rfl, hs⟩ | ⟨-, hp⟩
    · exact waits p' hs.symm
    · exact h.waiting hp hnot
  · intro other w r hr
    rcases (getElem?_note hlt).mp hr with ⟨-, -, hs⟩ | ⟨-, hr⟩
    · exact absurd hs.symm (noReturn r)
    · exact h.returned hr
  · intro clock
    obtain ⟨halike, hfits⟩ := h.same clock
    refine ⟨halike, fun hx' hs => ?_⟩
    rcases (getElem?_note hlt).mp hs with ⟨rfl, rfl, -⟩ | ⟨-, hs⟩
    · exact absurd hx' hx
    · exact hfits hx' hs

/-- **The effect** puts a visit at the end of the order. -/
theorem note_of_effect (h : reading.Ordered rules s₀ t order) (booked : t.Booked)
    (standing : t.visits[who]? = some (v, .underway p)) (noArrival : ∀ w, e ≠ .arrived w)
    (hx : (v, who) ∉ order) {s : σ} {settled : R → Prop} (evolves : reading.evolves t.state s)
    (effect : reading.TakesEffect v t.state s settled)
    (fits : ∀ r, settled r → reading.Fits (rules.answer v) r stage) :
    reading.Ordered rules s₀ (t.note who v stage s e) (order ++ [(v, who)]) := by
  have hlt : who < t.visits.length := (List.getElem?_eq_some_iff.mp standing).1
  refine ⟨?_, ?_, ?_, ?_, ?_, ?_⟩
  · refine List.nodup_append.mpr ⟨h.nodup, List.pairwise_singleton _ _, ?_⟩
    rintro a ha b hb rfl
    obtain rfl := List.mem_singleton.mp hb
    exact hx ha
  · intro w other hx'
    rcases List.mem_append.mp hx' with hx' | hx'
    · exact h.known_note standing hx'
    · obtain ⟨rfl, rfl⟩ := Prod.mk.inj (List.mem_singleton.mp hx')
      exact ⟨stage, (getElem?_note hlt).mpr (.inl ⟨rfl, rfl, rfl⟩)⟩
  · refine List.pairwise_append.mpr ⟨h.realTime_snoc noArrival, List.pairwise_singleton _ _, ?_⟩
    intro a _ b hb hp
    obtain rfl := List.mem_singleton.mp hb
    rcases precedes_snoc hp with hp | ⟨w, he⟩
    · obtain ⟨r, hr⟩ := returned_of_precedes hp
      obtain ⟨w, hw⟩ := booked.returned.mp hr
      rw [standing] at hw
      simp at hw
    · exact noArrival w (congrArg Prod.snd he)
  · intro other w p' hp hnot
    rcases (getElem?_note hlt).mp hp with ⟨rfl, rfl, -⟩ | ⟨-, hp⟩
    · exact absurd (List.mem_append_right _ (List.mem_singleton_self _)) hnot
    · exact (h.waiting hp fun hx' => hnot (List.mem_append_left _ hx')).evolve evolves
  · intro other w r hr
    rcases (getElem?_note hlt).mp hr with ⟨rfl, rfl, -⟩ | ⟨-, hr⟩
    · exact List.mem_append_right _ (List.mem_singleton_self _)
    · exact List.mem_append_left _ (h.returned hr)
  · intro clock
    obtain ⟨halike, hfits⟩ := h.same clock
    obtain ⟨r, s', halone, halike', hset⟩ := effect (clock who) _ halike
    rw [oneByOne_snoc, halone]
    refine ⟨halike', fun {w other stage'} hx' hs => ?_⟩
    rcases (getElem?_note hlt).mp hs with ⟨rfl, rfl, rfl⟩ | ⟨ho, hs⟩
    · exact ⟨r, List.mem_append_right _ (List.mem_singleton_self _), fits r hset⟩
    · rcases List.mem_append.mp hx' with hx' | hx'
      · obtain ⟨r', hr', hset'⟩ := hfits hx' hs
        exact ⟨r', List.mem_append_left _ hr', hset'⟩
      · exact absurd (congrArg Prod.snd (List.mem_singleton.mp hx')) ho

/-- **One step** keeps the order of the effects, or adds a visit at its end. -/
theorem step [Inhabited K] (waits : ∀ v s, reading.Waiting (rules.answer v) v (rules.program v) s)
    {t' : Traffic V Q A R σ} (booked : t.Booked) (h : reading.Ordered rules s₀ t order)
    (step : Step rules t t') : ∃ order', reading.Ordered rules s₀ t' order' := by
  cases step with
  | still => exact ⟨order, h⟩
  | arrive v => exact ⟨order, h.enter (waits v t.state)⟩
  | @abandon who v p standing =>
    by_cases hx : (v, who) ∈ order
    · exact ⟨order, h.note_of_mem standing (by simp) hx fun _ _ => trivial⟩
    · exact ⟨order, h.note_of_waiting standing (by simp) hx (by simp) (by simp)⟩
  | @back who v r standing =>
    by_cases hx : (v, who) ∈ order
    · exact ⟨order, h.note_of_mem standing (by simp) hx fun _ hset => hset⟩
    · -- a visit that returns while it waits takes effect now
      have effect := h.waiting standing hx t.state (reading.evolves_refl _)
      exact ⟨_, h.note_of_effect booked standing (by simp) hx (reading.evolves_refl _) effect
        fun _ hset => hset⟩
  | @ask who v c q next a s standing answered =>
    by_cases hx : (v, who) ∈ order
    · -- whatever its settled result is, the answer has changed nothing
      obtain ⟨r, -, hset⟩ := (h.same fun _ => default).2 hx standing
      obtain rfl : s = t.state := (hset c t.state a s answered).1
      exact ⟨order, h.note_of_mem standing (by simp) hx fun r hset =>
        (hset c t.state a t.state answered).2⟩
    · obtain ⟨evolves, effect | ⟨rfl, hwait⟩⟩ :=
        h.waiting standing hx t.state (reading.evolves_refl _) c a s answered
      · exact ⟨_, h.note_of_effect booked standing (by simp) hx evolves effect fun _ hset => hset⟩
      · refine ⟨order, h.note_of_waiting standing (by simp) hx ?_ (by simp)⟩
        intro p' hp
        obtain rfl := Stage.underway.inj hp
        exact hwait

end Ordered

/-- Once all visits have returned, all of them are in the order of the effects. -/
theorem Ordered.perm {reading : Reading V K R σ} {rules : Rules V C Q A R σ} {s₀ : σ}
    {t : Traffic V Q A R σ} {order : List (V × Nat)} (h : reading.Ordered rules s₀ t order)
    (complete : t.Complete) : order.Perm t.numbered := by
  have hnumbered {v : V} {who : Nat} :
      (v, who) ∈ t.numbered ↔ ∃ stage, t.visits[who]? = some (v, stage) := by
    simp [numbered, List.mem_zipIdx_iff_getElem?]
  refine (List.perm_ext_iff_of_nodup h.nodup ?_).mpr ?_
  · exact List.Nodup.of_map Prod.snd (by simpa [numbered] using List.nodup_range')
  · rintro ⟨v, who⟩
    rw [hnumbered]
    constructor
    · exact h.known
    · rintro ⟨stage, hs⟩
      obtain ⟨r, rfl⟩ := complete _ (List.mem_of_getElem? hs)
      exact h.returned hs

/-- **Complete traffic of waiting programs reads as one visit after another**: in some order of the
visits that keeps to real time, by whatever clock, each visit alone has a result that agrees with
its own, and the state they leave is alike. -/
theorem linearizable [Inhabited K] (reading : Reading V K R σ) (rules : Rules V C Q A R σ)
    (waits : ∀ v s, reading.Waiting (rules.answer v) v (rules.program v) s) (s₀ : σ)
    (moves : List (Move V C)) (complete : ((opened s₀).run rules moves).Complete) :
    ∃ order : List (V × Nat), order.Perm ((opened s₀).run rules moves).numbered ∧
      (order.Pairwise fun a b => ¬ Precedes ((opened s₀).run rules moves).log b.2 a.2) ∧
      ∀ clock, reading.alike ((opened s₀).run rules moves).state
          (reading.oneByOne clock order s₀).2 ∧
        ∀ {who : Nat} {v r}, ((opened s₀).run rules moves).visits[who]? = some (v, .returned r) →
          ∃ r', (who, some r') ∈ (reading.oneByOne clock order s₀).1 ∧ reading.agree r' r := by
  obtain ⟨-, order, h⟩ := run_invariant
    (I := fun t => t.Booked ∧ ∃ order, reading.Ordered rules s₀ t order)
    (fun t t' ⟨booked, order, h⟩ step => ⟨booked.step step, h.step waits booked step⟩)
    ⟨booked_opened s₀, [], .opened s₀⟩ moves
  refine ⟨order, h.perm complete, h.realTime, fun clock => ⟨(h.same clock).1, ?_⟩⟩
  intro who v r hr
  exact (h.same clock).2 (h.returned hr) hr

end Reading

end OrderDesk
