/-!
# Programs that ask

A program either is done or asks a question and goes on with the answer. What the answers are and
what they change is left to whoever runs it; a question that is never answered leaves the program
where it is.

## Main definitions

* `Program`, `Program.bind`, `Program.map`
* `Program.run`: a run against answers that may change a state
* `Program.through`: every question answered by a program of other questions
-/

namespace OrderDesk

/-- **A program** that asks questions of `Q`, answered in `A`, and ends with an `R`. -/
inductive Program (Q : Type) (A : Q → Type) (R : Type) : Type where
  | done (result : R)
  | ask (question : Q) (next : A question → Program Q A R)

namespace Program

variable {Q : Type} {A : Q → Type} {R S σ : Type}

/-- A program, and another one with its result. -/
def bind (p : Program Q A R) (f : R → Program Q A S) : Program Q A S :=
  match p with
  | done r => f r
  | ask q next => ask q fun a => (next a).bind f

/-- A program with another result. -/
def map (f : R → S) (p : Program Q A R) : Program Q A S :=
  p.bind fun r => done (f r)

/-- **A run.** The one who answers holds a state; a question without an answer ends the run without
a result. -/
def run (answer : (q : Q) → σ → Option (A q) × σ) : Program Q A R → σ → Option R × σ
  | done r, s => (some r, s)
  | ask q next, s =>
    match answer q s with
    | (some a, s) => (next a).run answer s
    | (none, s) => (none, s)

/-- Every question is answered by a program of other questions. -/
def through {Q' : Type} {A' : Q' → Type} (f : (q : Q) → Program Q' A' (A q)) :
    Program Q A R → Program Q' A' R
  | done r => done r
  | ask q next => (f q).bind fun a => (next a).through f

@[simp] theorem bind_done (r : R) (f : R → Program Q A S) : (done r).bind f = f r := rfl

@[simp] theorem bind_ask (q : Q) (next : A q → Program Q A R) (f : R → Program Q A S) :
    (ask q next).bind f = ask q fun a => (next a).bind f := rfl

end Program

end OrderDesk
