import OrderDesk.Proofs.Traffic.Law

/-!
# How far a program comes

The exchanges that a program has lead it from one point to another. Whatever they lead to keeps the
laws that the program keeps.

## Main definitions

* `Program.Reaches`

## Main results

* `Program.bind_assoc`, `Program.run_bind`, `Program.run_map`
* `Program.Keeps.of_reaches`: a law is kept at every point that is reached
-/

namespace OrderDesk.Program

variable {Q : Type} {A : Q → Type} {R S T σ : Type}

/-- **A program reaches a point** by some exchanges. -/
inductive Reaches : Program Q A R → List (Exchange Q A) → Program Q A R → Prop
  | here (p : Program Q A R) : Reaches p [] p
  | on {q : Q} {next : A q → Program Q A R} {a : A q} {xs : List (Exchange Q A)}
    {p : Program Q A R} (rest : Reaches (next a) xs p) : Reaches (ask q next) (⟨q, a⟩ :: xs) p

namespace Reaches

/-- One exchange more. -/
theorem snoc {p : Program Q A R} {xs : List (Exchange Q A)} {q : Q}
    {next : A q → Program Q A R} (h : p.Reaches xs (ask q next)) (a : A q) :
    p.Reaches (xs ++ [⟨q, a⟩]) (next a) := by
  generalize hp : ask q next = p' at h
  induction h with
  | here p =>
    subst hp
    exact .on (.here _)
  | on rest ih => exact .on (ih hp)

/-- The same exchanges lead on with another result. -/
theorem map {p p' : Program Q A R} {xs : List (Exchange Q A)} (h : p.Reaches xs p') (f : R → S) :
    (p.map f).Reaches xs (p'.map f) := by
  induction h with
  | here p => exact .here _
  | on rest ih => exact .on ih

/-- A program that is done has come to its end. -/
theorem of_done {r : R} {p : Program Q A R} {xs : List (Exchange Q A)}
    (h : (done r).Reaches xs p) : xs = [] ∧ p = done r := by
  cases h
  exact ⟨rfl, rfl⟩

/-- Behind another result is the one that it was made of. -/
theorem of_map {p : Program Q A R} {f : R → S} {s : S} {xs : List (Exchange Q A)}
    (h : (p.map f).Reaches xs (done s)) : ∃ r, p.Reaches xs (done r) ∧ f r = s := by
  induction p generalizing xs with
  | done r =>
    obtain ⟨rfl, hs⟩ := of_done h
    cases hs
    exact ⟨r, .here _, rfl⟩
  | ask q next ih =>
    cases h with
    | on rest =>
      obtain ⟨r, hr, hs⟩ := ih _ rest
      exact ⟨r, .on hr, hs⟩

end Reaches

/-- **A law is kept at every point** that a program reaches. -/
theorem Keeps.of_reaches {law : Law Q A R} {p p' : Program Q A R} {past xs : List (Exchange Q A)}
    (h : p.Keeps law past) (reaches : p.Reaches xs p') : p'.Keeps law (past ++ xs) := by
  induction reaches generalizing past with
  | here p =>
    rw [List.append_nil]
    exact h
  | on rest ih =>
    rw [List.append_cons]
    exact ih (h.2 _)

/-- **With another result** a program keeps every law that is no stricter. -/
theorem Keeps.map {law : Law Q A R} {law' : Law Q A S} {f : R → S}
    (asks : ∀ {past q}, law.asks past q → law'.asks past q)
    (ends : ∀ {past r}, law.ends past r → law'.ends past (f r)) {p : Program Q A R}
    {past : List (Exchange Q A)} (h : p.Keeps law past) : (p.map f).Keeps law' past := by
  induction p generalizing past with
  | done r => exact ends h
  | ask q next ih => exact ⟨asks h.1, fun a => ih a (h.2 a)⟩

theorem bind_assoc (p : Program Q A R) (f : R → Program Q A S) (g : S → Program Q A T) :
    (p.bind f).bind g = p.bind fun r => (f r).bind g := by
  induction p with
  | done r => rfl
  | ask q next ih => exact congrArg (ask q) (funext ih)

/-- **One program after another** runs as one after the other. -/
theorem run_bind (answer : (q : Q) → σ → Option (A q) × σ) (p : Program Q A R)
    (f : R → Program Q A S) (s : σ) :
    (p.bind f).run answer s =
      match p.run answer s with
      | (some r, s) => (f r).run answer s
      | (none, s) => (none, s) := by
  induction p generalizing s with
  | done r => rfl
  | ask q next ih =>
    simp only [bind_ask, run]
    cases answer q s with
    | mk a s =>
      cases a with
      | none => rfl
      | some a => exact ih a s

/-- **With another result** a program runs as it does without. -/
theorem run_map (answer : (q : Q) → σ → Option (A q) × σ) (f : R → S) (p : Program Q A R)
    (s : σ) : (p.map f).run answer s = ((p.run answer s).1.map f, (p.run answer s).2) := by
  rw [map, run_bind]
  split <;> simp_all [run]

end OrderDesk.Program
