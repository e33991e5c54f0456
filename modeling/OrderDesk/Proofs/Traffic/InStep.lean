import OrderDesk.Proofs.Traffic.Reaches

/-!
# Programs in step

Two programs are in step if they ask the same questions as long as the answers they get correspond,
and if they then end with results that correspond. Whoever answers them so cannot drive them apart.

## Main definitions

* `Program.InStep`

## Main results

* `Program.InStep.bind`, `Program.InStep.map`: programs that go on in step
* `Program.InStep.run`: two runs whose answers correspond have results that correspond
-/

namespace OrderDesk.Program

variable {Q : Type} {A : Q → Type} {R R' S S' σ τ : Type} {answers : (q : Q) → A q → A q → Prop}
  {results : R → R' → Prop} {ends : S → S' → Prop}

/-- **Two programs are in step**: they ask the same, go on in step after answers that correspond,
and end with results that correspond. -/
inductive InStep (answers : (q : Q) → A q → A q → Prop) (results : R → R' → Prop) :
    Program Q A R → Program Q A R' → Prop
  | done {r : R} {r' : R'} (corresponds : results r r') :
    InStep answers results (.done r) (.done r')
  | ask {q : Q} {next : A q → Program Q A R} {next' : A q → Program Q A R'}
    (goOn : ∀ a a', answers q a a' → InStep answers results (next a) (next' a')) :
    InStep answers results (.ask q next) (.ask q next')

namespace InStep

variable {p : Program Q A R} {p' : Program Q A R'}

/-- Programs in step go on in step. -/
theorem bind (h : p.InStep answers results p') {f : R → Program Q A S} {f' : R' → Program Q A S'}
    (goOn : ∀ r r', results r r' → (f r).InStep answers ends (f' r')) :
    (p.bind f).InStep answers ends (p'.bind f') := by
  induction h with
  | done corresponds => exact goOn _ _ corresponds
  | ask _ ih => exact .ask fun a a' ha => ih a a' ha

theorem map (h : p.InStep answers results p') {f : R → S} {f' : R' → S'}
    (corresponds : ∀ r r', results r r' → ends (f r) (f' r')) :
    (p.map f).InStep answers ends (p'.map f') :=
  h.bind fun r r' hr => .done (corresponds r r' hr)

/-- **In step to the end.** If the answers of two environments correspond, and their states go on
doing so, then two runs in step have results that correspond, or neither has one. -/
theorem run (h : p.InStep answers results p') {answer : (q : Q) → σ → Option (A q) × σ}
    {answer' : (q : Q) → τ → Option (A q) × τ} {states : σ → τ → Prop}
    (corresponds : ∀ q s t, states s t → Option.Rel (answers q) (answer q s).1 (answer' q t).1 ∧
      states (answer q s).2 (answer' q t).2) {s : σ} {t : τ} (start : states s t) :
    Option.Rel results (p.run answer s).1 (p'.run answer' t).1 ∧
      states (p.run answer s).2 (p'.run answer' t).2 := by
  induction h generalizing s t with
  | done hr => exact ⟨.some hr, start⟩
  | @ask q next next' _ ih =>
    obtain ⟨hanswer, hstates⟩ := corresponds q s t start
    simp only [Program.run]
    generalize answer q s = x at hanswer hstates ⊢
    generalize answer' q t = y at hanswer hstates ⊢
    obtain ⟨a, s⟩ := x
    obtain ⟨a', t⟩ := y
    cases hanswer with
    | none => exact ⟨.none, hstates⟩
    | some ha => exact ih _ _ ha hstates

end InStep

end OrderDesk.Program
