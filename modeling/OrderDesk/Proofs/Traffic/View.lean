import OrderDesk.Proofs.Traffic.Basic

/-!
# Traffic seen through its state

If the answers over one state are those over another that is seen of it, the same moves make the
same traffic: the visits stand alike, and the same is seen of them. What is remembered on the side
can so be forgotten again.

## Main definitions

* `Rules.Shows`: the answers over one state show those over another
* `Move.withChance`, `Traffic.seen`

## Main results

* `Traffic.run_seen`: the same moves make the same traffic
-/

namespace OrderDesk

/-- **Rules show others** through a view of the state, if each of their answers is one by chance of
the first. -/
structure Rules.Shows {V C D Q : Type} {A : Q → Type} {R σ τ : Type} (rules : Rules V C Q A R σ)
    (shown : Rules V D Q A R τ) (view : σ → τ) (chance : D → C) : Prop where
  program : ∀ v, rules.program v = shown.program v
  answer : ∀ v d q s, shown.answer v d q (view s) =
    ((rules.answer v (chance d) q s).1, view (rules.answer v (chance d) q s).2)

/-- A move by another chance. -/
def Move.withChance {V C D : Type} (chance : D → C) : Move V D → Move V C
  | .arrive v => .arrive v
  | .proceed who d => .proceed who (chance d)
  | .abandon who => .abandon who

namespace Traffic

variable {V C D Q : Type} {A : Q → Type} {R σ τ : Type}

/-- Traffic with only a view of its state. -/
def seen (view : σ → τ) (t : Traffic V Q A R σ) : Traffic V Q A R τ :=
  ⟨view t.state, t.visits, t.log⟩

@[simp] theorem seen_state (view : σ → τ) (t : Traffic V Q A R σ) :
    (t.seen view).state = view t.state := rfl

@[simp] theorem seen_visits (view : σ → τ) (t : Traffic V Q A R σ) :
    (t.seen view).visits = t.visits := rfl

@[simp] theorem seen_exchanges (view : σ → τ) (t : Traffic V Q A R σ) :
    (t.seen view).exchanges = t.exchanges := rfl

theorem move_seen {rules : Rules V C Q A R σ} {shown : Rules V D Q A R τ} {view : σ → τ}
    {chance : D → C} (shows : rules.Shows shown view chance) (t : Traffic V Q A R σ)
    (m : Move V D) :
    (t.seen view).move shown m = (t.move rules (m.withChance chance)).seen view := by
  cases m with
  | arrive v => simp only [move, Move.withChance, enter, seen, shows.program]
  | proceed who d =>
    simp only [move, Move.withChance, seen_visits]
    split
    · rename_i v p _
      cases p with
      | done r => rfl
      | ask q next =>
        simp only [advance, seen_state, shows.answer]
        cases h : rules.answer v (chance d) q t.state with
        | mk a s =>
          cases a with
          | none => rfl
          | some a => rfl
    · rfl
  | abandon who =>
    simp only [move, Move.withChance, seen_visits]
    split <;> rfl

/-- **The same moves make the same traffic** over what is seen of the state. -/
theorem run_seen {rules : Rules V C Q A R σ} {shown : Rules V D Q A R τ} {view : σ → τ}
    {chance : D → C} (shows : rules.Shows shown view chance) (t : Traffic V Q A R σ)
    (moves : List (Move V D)) :
    (t.seen view).run shown moves = (t.run rules (moves.map (.withChance chance))).seen view := by
  induction moves using List.reverseRecOn with
  | nil => rfl
  | append_singleton moves m ih =>
    rw [run_snoc, ih, move_seen shows, List.map_append, List.map_singleton, run_snoc]

end Traffic

end OrderDesk
