import OrderDesk.Proofs.Traffic.Reaches

/-!
# Exchanges that are noted down

Whoever answers a program may note each question down with its answer. The notes of a run are the
exchanges by which the program came to its end, or to the question that was never answered.

## Main definitions

* `Program.noted`: answers that are noted down
* `Program.always`: answers that never fail to come

## Main results

* `Program.run_noted`: the notes of a run lead to where it ended
* `Program.run_always`, `Program.Keeps.run_always`: if answers always come, a program comes to its
  end, and to one that its law has
-/

namespace OrderDesk.Program

variable {Q : Type} {A : Q → Type} {R σ : Type}

/-- **Answers that are noted down**, each with its question, behind what was noted before. -/
def noted (answer : (q : Q) → σ → Option (A q) × σ) (q : Q) :
    σ × List (Exchange Q A) → Option (A q) × σ × List (Exchange Q A)
  | (s, past) =>
    match answer q s with
    | (some a, s) => (some a, s, past ++ [⟨q, a⟩])
    | (none, s) => (none, s, past)

/-- **Answers that never fail to come.** -/
def always (reply : (q : Q) → σ → A q × σ) (q : Q) (s : σ) : Option (A q) × σ :=
  (some (reply q s).1, (reply q s).2)

/-- **The notes of a run** lead the program to its result, or to a question without an answer. -/
theorem run_noted (answer : (q : Q) → σ → Option (A q) × σ) (p : Program Q A R) (s : σ)
    (past : List (Exchange Q A)) :
    ∃ xs s', (∃ r, p.run (noted answer) (s, past) = (some r, s', past ++ xs) ∧
        p.Reaches xs (.done r)) ∨
      (p.run (noted answer) (s, past) = (none, s', past ++ xs) ∧
        ∃ q next s'', p.Reaches xs (.ask q next) ∧ (answer q s'').1 = none) := by
  induction p generalizing s past with
  | done r =>
    refine ⟨[], s, .inl ⟨r, ?_, .here _⟩⟩
    rw [run, List.append_nil]
  | ask q next ih =>
    rcases hanswer : answer q s with ⟨_ | a, s₁⟩
    · refine ⟨[], s₁, .inr ⟨?_, q, next, s, .here _, by rw [hanswer]⟩⟩
      simp only [run, noted, hanswer, List.append_nil]
    · obtain ⟨xs, s', hrest⟩ := ih a s₁ (past ++ [⟨q, a⟩])
      rw [← List.append_cons] at hrest
      refine ⟨⟨q, a⟩ :: xs, s', ?_⟩
      simp only [run, noted, hanswer]
      rcases hrest with ⟨r, hrun, hreaches⟩ | ⟨hrun, q', next', s'', hreaches, hnone⟩
      · exact .inl ⟨r, hrun, .on hreaches⟩
      · exact .inr ⟨hrun, q', next', s'', .on hreaches, hnone⟩

/-- **If answers always come**, a program comes to its end. -/
theorem run_always (reply : (q : Q) → σ → A q × σ) (p : Program Q A R) (s : σ) :
    ∃ r xs s', p.run (noted (always reply)) (s, []) = (some r, s', xs) ∧
      p.Reaches xs (.done r) := by
  obtain ⟨xs, s', ⟨r, hrun, hreaches⟩ | ⟨-, q, -, s'', -, hnone⟩⟩ := run_noted (always reply) p s []
  · exact ⟨r, xs, s', hrun, hreaches⟩
  · cases hnone

/-- **If answers always come**, a program that keeps a law comes to an end that the law has for what
was noted. -/
theorem Keeps.run_always {law : Law Q A R} {p : Program Q A R} (h : p.Keeps law [])
    (reply : (q : Q) → σ → A q × σ) (s : σ) :
    ∃ r xs s', p.run (noted (always reply)) (s, []) = (some r, s', xs) ∧ law.ends xs r := by
  obtain ⟨r, xs, s', hrun, hreaches⟩ := Program.run_always reply p s
  exact ⟨r, xs, s', hrun, h.of_reaches hreaches⟩

end OrderDesk.Program
