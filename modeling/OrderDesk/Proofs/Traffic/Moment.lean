import OrderDesk.Proofs.Traffic.Law

/-!
# The moment of an exchange

Every exchange of a visit took place at one move: the visit stood at the question, and the state of
that moment gave the answer. The exchanges that a visit had before it name the moment.

## Main definitions

* `Traffic.Asked`: a question of a visit is asked and answered

## Main results

* `Traffic.moment`: the moment of each exchange of a visit
* `Traffic.lawful_of_own`: what was asked was within the law of the visit
* `Traffic.asked_of_proceed`: a move of a visit that changes the state is an exchange of it
-/

namespace OrderDesk

namespace Traffic

variable {V C Q : Type} {A : Q → Type} {R σ : Type} {rules : Rules V C Q A R σ} {who : Nat}
  {v : V} {x : Exchange Q A}

/-- **A question of a visit is asked and answered** between one traffic and the next. -/
structure Asked (rules : Rules V C Q A R σ) (t t' : Traffic V Q A R σ) (who : Nat) (v : V)
    (x : Exchange Q A) : Prop where
  standing : ∃ next, t.visits[who]? = some (v, .underway (.ask x.question next))
  answered : ∃ c, rules.answer v c x.question t.state = (some x.answer, t'.state)
  exchanges : t'.exchanges = t.exchanges ++ [(who, x)]

theorem Asked.own {t t' : Traffic V Q A R σ} (h : Asked rules t t' who v x) :
    own who t'.exchanges = own who t.exchanges ++ [x] := by
  rw [h.exchanges, own_append, own_self]

/-- A step is an exchange, or it changes neither the state nor the exchanges. -/
theorem Step.still_or_asked {t t' : Traffic V Q A R σ} (h : Step rules t t') :
    (t'.state = t.state ∧ t'.exchanges = t.exchanges) ∨
      ∃ who v x, Asked rules t t' who v x := by
  cases h with
  | still => exact .inl ⟨rfl, rfl⟩
  | arrive v => exact .inl ⟨rfl, exchanges_enter ..⟩
  | abandon standing => exact .inl ⟨rfl, exchanges_note_abandoned ..⟩
  | back standing => exact .inl ⟨rfl, exchanges_note_returned ..⟩
  | @ask who v c q next a s standing answered =>
    exact .inr ⟨who, v, ⟨q, a⟩, ⟨next, standing⟩, ⟨c, answered⟩, exchanges_note_exchanged ..⟩

/-- **A move of a visit** is an exchange of it, or it leaves the state as it is. -/
theorem asked_of_proceed (rules : Rules V C Q A R σ) (t : Traffic V Q A R σ) (who : Nat) (c : C) :
    (t.move rules (.proceed who c)).state = t.state ∨
      ∃ v x, Asked rules t (t.move rules (.proceed who c)) who v x := by
  simp only [move]
  split
  · rename_i v p standing
    cases p with
    | done r => exact .inl rfl
    | ask q next =>
      simp only [advance]
      split
      · rename_i a s answered
        exact .inr ⟨v, ⟨q, a⟩, ⟨next, standing⟩, ⟨c, answered⟩, exchanges_note_exchanged ..⟩
      · exact .inl rfl
  · exact .inl rfl

/-- **The moment of an exchange.** After the first of the moves the visit had the exchanges before
it, and the next move was this exchange. -/
theorem moment {s : σ} {moves : List (Move V C)} {ys zs : List (Exchange Q A)}
    (h : own who ((opened s).run rules moves).exchanges = ys ++ x :: zs) :
    ∃ before m after v, moves = before ++ m :: after ∧
      own who ((opened s).run rules before).exchanges = ys ∧
      Asked rules ((opened s).run rules before) ((opened s).run rules (before ++ [m])) who v x := by
  induction moves using List.reverseRecOn generalizing zs with
  | nil => simp [run, opened, exchanges, OrderDesk.own] at h
  | append_singleton moves m ih =>
    have earlier : ∀ zs, own who ((opened s).run rules moves).exchanges = ys ++ x :: zs →
        ∃ before m' after v, moves ++ [m] = before ++ m' :: after ∧
          own who ((opened s).run rules before).exchanges = ys ∧
          Asked rules ((opened s).run rules before) ((opened s).run rules (before ++ [m'])) who v
            x := by
      intro zs h
      obtain ⟨before, m', after, v, rfl, hown, hasked⟩ := ih h
      exact ⟨before, m', after ++ [m], v, by simp, hown, hasked⟩
    have hstep := move_step rules ((opened s).run rules moves) m
    rw [← run_snoc] at hstep
    rcases hstep.still_or_asked with ⟨-, he⟩ | ⟨other, v, y, hasked⟩
    · exact earlier zs (he ▸ h)
    · by_cases ho : other = who
      · subst ho
        rw [hasked.own] at h
        rcases List.eq_nil_or_concat zs with rfl | ⟨zs, z, rfl⟩
        · obtain ⟨hown, hx⟩ := List.append_inj' h rfl
          obtain rfl : y = x := by simpa using hx
          exact ⟨moves, m, [], v, rfl, hown, hasked⟩
        · rw [List.concat_eq_append, ← List.cons_append, ← List.append_assoc] at h
          exact earlier zs (List.append_inj' h rfl).1
      · rw [hasked.exchanges, own_append, own_other ho, List.append_nil] at h
        exact earlier zs h

/-- A number always names the same visit. -/
theorem visit_later {s : σ} {moves : List (Move V C)} {stage : Stage Q A R}
    (h : ((opened s).run rules moves).visits[who]? = some (v, stage)) (more : List (Move V C)) :
    ∃ stage', ((opened s).run rules (moves ++ more)).visits[who]? = some (v, stage') := by
  have harrived := (booked_run rules s moves).arrived.mpr ⟨stage, h⟩
  have hlog := log_prefix_run rules ((opened s).run rules moves) more
  rw [← run_append] at hlog
  exact (booked_run rules s (moves ++ more)).arrived.mp (hlog.subset harrived)

theorem same_visit {s : σ} {before after : List (Move V C)} {w : V} {stage stage' : Stage Q A R}
    (h : ((opened s).run rules before).visits[who]? = some (v, stage))
    (h' : ((opened s).run rules (before ++ after)).visits[who]? = some (w, stage')) : v = w := by
  obtain ⟨stage'', hlater⟩ := visit_later h after
  exact congrArg Prod.fst (Option.some.inj (hlater.symm.trans h'))

/-- **What was asked was within the law** of the visit. -/
theorem lawful_of_own {law : V → Law Q A R} (keeps : ∀ v, (rules.program v).Keeps (law v) [])
    {s : σ} {moves : List (Move V C)} {ys zs : List (Exchange Q A)}
    (h : own who ((opened s).run rules moves).exchanges = ys ++ x :: zs) :
    ∃ v stage, ((opened s).run rules moves).visits[who]? = some (v, stage) ∧
      (law v).asks ys x.question := by
  obtain ⟨before, m, after, v, rfl, hown, hasked⟩ := moment h
  obtain ⟨next, standing⟩ := hasked.standing
  have hwithin : (Program.ask x.question next).Keeps (law v)
      (own who ((opened s).run rules before).exchanges) :=
    (lawful_run keeps s before).within standing
  obtain ⟨stage, hlater⟩ := visit_later standing (m :: after)
  rw [hown] at hwithin
  exact ⟨v, stage, hlater, hwithin.1⟩

theorem asks_of_own {law : V → Law Q A R} (keeps : ∀ v, (rules.program v).Keeps (law v) [])
    {s : σ} {moves : List (Move V C)} {ys zs : List (Exchange Q A)} {stage : Stage Q A R}
    (arrived : ((opened s).run rules moves).visits[who]? = some (v, stage))
    (h : own who ((opened s).run rules moves).exchanges = ys ++ x :: zs) :
    (law v).asks ys x.question := by
  obtain ⟨w, stage', hw, hasks⟩ := lawful_of_own keeps h
  obtain rfl : w = v := congrArg Prod.fst (Option.some.inj (hw.symm.trans arrived))
  exact hasks

end Traffic

end OrderDesk
