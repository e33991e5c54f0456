import OrderDesk.Proofs.Traffic.Reaches

/-!
# Laws of programs whose questions are programs

Every question of a program is answered by a program of finer questions. If the program keeps a law,
and those that answer its questions keep laws of their own, then the whole keeps a law that is made
of them: what it may ask is what the one may ask that is under way for a question that may be asked.

## Main definitions

* `Carried`: exchanges, and the finer exchanges that carried them
* `Law.over`: a law over the laws of those that answer

## Main results

* `Program.Keeps.through`: the whole keeps the law over the laws
* `Carried.mem`: each exchange was carried by exchanges of its own
-/

namespace OrderDesk

variable {Q Q' : Type} {A : Q → Type} {A' : Q' → Type} {R : Type}

/-- **Exchanges, and those that carried them**: each by a run of finer exchanges that may end with
its answer. -/
inductive Carried (inner : (q : Q) → Law Q' A' (A q)) :
    List (Exchange Q A) → List (Exchange Q' A') → Prop
  | nil : Carried inner [] []
  | snoc {xs : List (Exchange Q A)} {ys zs : List (Exchange Q' A')} {q : Q} {a : A q}
    (carried : Carried inner xs ys) (ended : (inner q).ends zs a) :
    Carried inner (xs ++ [⟨q, a⟩]) (ys ++ zs)

/-- **A law over the laws** of those that answer. -/
def Law.over (law : Law Q A R) (inner : (q : Q) → Law Q' A' (A q)) : Law Q' A' R where
  asks past q' := ∃ xs ys zs q, past = ys ++ zs ∧ Carried inner xs ys ∧ law.asks xs q ∧
    (inner q).asks zs q'
  ends past r := ∃ xs, Carried inner xs past ∧ law.ends xs r

/-- **Each exchange was carried** by some of the finer exchanges. -/
theorem Carried.mem {inner : (q : Q) → Law Q' A' (A q)} {xs : List (Exchange Q A)}
    {ys : List (Exchange Q' A')} (h : Carried inner xs ys) {x : Exchange Q A} (hx : x ∈ xs) :
    ∃ zs, (inner x.question).ends zs x.answer ∧ zs ⊆ ys := by
  induction h with
  | nil => cases hx
  | @snoc xs ys zs q a carried ended ih =>
    rcases List.mem_append.mp hx with hx | hx
    · obtain ⟨zs', hended, hsub⟩ := ih hx
      exact ⟨zs', hended, fun y hy => List.mem_append_left _ (hsub hy)⟩
    · obtain rfl := List.mem_singleton.mp hx
      exact ⟨zs, ended, List.subset_append_right _ _⟩

theorem Carried.eq_nil {inner : (q : Q) → Law Q' A' (A q)} {ys : List (Exchange Q' A')}
    (h : Carried inner [] ys) : ys = [] := by
  generalize hxs : [] = xs at h
  cases h with
  | nil => rfl
  | snoc => simp at hxs

/-- A single exchange was carried by all of the finer exchanges. -/
theorem Carried.single {inner : (q : Q) → Law Q' A' (A q)} {x : Exchange Q A}
    {ys : List (Exchange Q' A')} (h : Carried inner [x] ys) :
    (inner x.question).ends ys x.answer := by
  generalize hxs : [x] = xs at h
  cases h with
  | nil => cases hxs
  | @snoc xs ys zs q a carried ended =>
    have hlength := congrArg List.length hxs
    rw [List.length_append, List.length_singleton, List.length_singleton] at hlength
    obtain rfl : xs = [] := List.eq_nil_of_length_eq_zero (by omega)
    obtain rfl : x = ⟨q, a⟩ := List.singleton_inj.mp hxs
    rw [carried.eq_nil]
    exact ended

/-- **The whole keeps the law over the laws.** -/
theorem Program.Keeps.through {law : Law Q A R} {inner : (q : Q) → Law Q' A' (A q)}
    {f : (q : Q) → Program Q' A' (A q)} (keeps : ∀ q, (f q).Keeps (inner q) [])
    {p : Program Q A R} {xs : List (Exchange Q A)} {ys : List (Exchange Q' A')}
    (h : p.Keeps law xs) (carried : Carried inner xs ys) :
    (p.through f).Keeps (law.over inner) ys := by
  induction p generalizing xs ys with
  | done r => exact ⟨xs, carried, h⟩
  | ask q next ih =>
    have underway : ∀ (g : Program Q' A' (A q)) (zs : List (Exchange Q' A')),
        g.Keeps (inner q) zs →
          (g.bind fun a => (next a).through f).Keeps (law.over inner) (ys ++ zs) := by
      intro g
      induction g with
      | done a => exact fun zs hends => ih a (h.2 a) (carried.snoc hends)
      | ask q' next' ih' =>
        intro zs hkeeps
        refine ⟨⟨xs, ys, zs, q, rfl, carried, h.1, hkeeps.1⟩, fun a' => ?_⟩
        rw [List.append_assoc]
        exact ih' a' _ (hkeeps.2 a')
    have hstart := underway (f q) [] (keeps q)
    rwa [List.append_nil] at hstart

end OrderDesk
