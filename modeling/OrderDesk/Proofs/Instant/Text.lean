import Mathlib.Algebra.Group.Nat.Defs
import Mathlib.Data.List.Basic
import OrderDesk.Instant.Reader
import OrderDesk.Proofs.Instant.Calendar

/-!
# Printed instants are read back

The reader takes more texts than are ever printed. On a printed one it meets fields of a fixed
width, each with the mark behind it, and so finds the very numbers that were printed. They name
the instant again, because the calendar gives back the day count.

## Main definitions

* `Instant.Ordinary`: an instant of the years 0000 to 9999 that is no leap second

## Main results

* `number_padded`: a padded number is read up to its end
* `fraction_fractionChars`: a fraction of 0, 3, 6 or 9 digits counts the nanoseconds it was
  printed for
* `fields_toChars`: the numbers of a printed instant
* `read_toText`: a printed instant is read as itself
-/

namespace OrderDesk.Instant

open Calendar Text

variable {n width most low high : Nat} {cs rest : List Char}

/-! ## Digits -/

theorem digit?_of_isDigit {c : Char} (h : c.isDigit = true) :
    digit? c = some (c.toNat - '0'.toNat) := by
  obtain ⟨low, high⟩ : '0' ≤ c ∧ c ≤ '9' := by
    simpa [Char.isDigit, Char.le_def, UInt32.le_iff_toNat_le] using h
  rw [digit?, if_pos ⟨low, high⟩]
  rfl

theorem isBlank_of_isDigit {c : Char} (h : c.isDigit = true) : isBlank c = false := by
  obtain ⟨low, high⟩ : 48 ≤ c.toNat ∧ c.toNat ≤ 57 := by
    simpa [Char.isDigit, UInt32.le_iff_toNat_le] using h
  rw [← Bool.not_eq_true]
  intro blank
  simp only [isBlank, Bool.or_eq_true, Bool.and_eq_true, decide_eq_true_eq, beq_iff_eq] at blank
  omega

theorem le_ofDigitChars (cs : List Char) (n : Nat) : n ≤ Nat.ofDigitChars 10 cs n := by
  rw [Nat.ofDigitChars_eq_ofDigitChars_zero]
  exact Nat.le_trans (Nat.le_mul_of_pos_left n (Nat.pow_pos (by decide))) (Nat.le_add_right ..)

/-- **Digits are taken up to their end**: either there may be no more, or no digit follows. -/
theorem digitsOnto_append (digits : ∀ c ∈ cs, c.isDigit = true)
    (fits : Nat.ofDigitChars 10 cs n ≤ largest)
    (ends : cs.length = most ∨ cs.length ≤ most ∧ ∀ c ∈ rest.head?, digit? c = none) :
    digitsOnto n (some most) (cs ++ rest) = .ok (Nat.ofDigitChars 10 cs n, rest) := by
  induction cs generalizing n most with
  | nil =>
    rw [List.nil_append, Nat.ofDigitChars_nil]
    rcases most with _ | most
    · rw [digitsOnto]
    · obtain ⟨-, stops⟩ := ends.resolve_left (Nat.zero_ne_add_one most)
      rcases rest with _ | ⟨c, rest⟩
      · rfl
      · simp only [digitsOnto, stops c rfl]
  | cons c cs ih =>
    obtain ⟨digit, digits⟩ := List.forall_mem_cons.mp digits
    rw [Nat.ofDigitChars_cons, Nat.mul_comm] at fits
    rcases most with _ | most
    · rcases ends with none | ⟨none, -⟩
      · cases none
      · exact absurd none (Nat.not_succ_le_zero _)
    · have next : ¬ largest < n * 10 + (c.toNat - '0'.toNat) :=
        Nat.not_lt.mpr (Nat.le_trans (le_ofDigitChars cs _) fits)
      rw [List.cons_append, Nat.ofDigitChars_cons, Nat.mul_comm]
      simp only [digitsOnto, digit?_of_isDigit digit, if_neg next]
      apply ih digits fits
      simpa using ends

/-! ## Padded numbers -/

theorem isDigit_of_mem_padded {c : Char} (h : c ∈ padded width n) : c.isDigit = true := by
  rcases List.mem_append.mp h with zero | digit
  · rw [List.eq_of_mem_replicate zero]
    rfl
  · exact Nat.isDigit_of_mem_toDigits (by decide) (by decide) digit

theorem ofDigitChars_padded (width n : Nat) : Nat.ofDigitChars 10 (padded width n) 0 = n := by
  rw [padded, Nat.ofDigitChars_append, Nat.ofDigitChars_replicate_zero, Nat.mul_zero,
    Nat.ofDigitChars_toDigits (by decide) (by decide)]

/-- **A padded number has its width**, if it is not too large for it. -/
theorem length_padded (pos : 0 < width) (h : n < 10 ^ width) :
    (padded width n).length = width := by
  have short := (Nat.length_toDigits_le_iff (by decide : 1 < 10) pos).mpr h
  rw [padded, List.length_append, List.length_replicate, Nat.sub_add_cancel short]

theorem padded_eq_cons (pos : 0 < width) (h : n < 10 ^ width) :
    ∃ c cs, padded width n = c :: cs ∧ c.isDigit = true := by
  have length := length_padded pos h
  rcases hp : padded width n with _ | ⟨c, cs⟩
  · rw [hp] at length
    exact absurd length (Nat.ne_of_lt pos)
  · exact ⟨c, cs, rfl, isDigit_of_mem_padded (hp ▸ List.mem_cons_self ..)⟩

theorem trimLeft_padded (pos : 0 < width) (h : n < 10 ^ width) (rest : List Char) :
    trimLeft (padded width n ++ rest) = padded width n ++ rest := by
  obtain ⟨c, cs, hp, digit⟩ := padded_eq_cons pos h
  rw [hp, List.cons_append]
  exact List.dropWhile_cons_of_neg (by simp [isBlank_of_isDigit digit])

/-- **A padded number is read** up to its end. -/
theorem number_padded (pos : 0 < width) (h : n < 10 ^ width) (fits : n ≤ largest)
    (ends : width = most ∨ width ≤ most ∧ ∀ c ∈ rest.head?, digit? c = none) :
    number (some most) (padded width n ++ rest) = .ok (n, rest) := by
  have digits : ∀ c ∈ padded width n, c.isDigit = true := fun _ => isDigit_of_mem_padded
  have run := digitsOnto_append (n := 0) digits (by rw [ofDigitChars_padded]; exact fits)
    (by rw [length_padded pos h]; exact ends)
  obtain ⟨c, cs, hp, digit⟩ := padded_eq_cons pos h
  rw [ofDigitChars_padded, hp, List.cons_append] at run
  rw [hp, List.cons_append, number, digit?_of_isDigit digit]
  exact run

/-! ## The parts of an instant -/

theorem field_padded (bounds : low ≤ n ∧ n ≤ high) (two : n < 100) (rest : List Char) :
    field low high (padded 2 n ++ rest) = .ok (n, rest) := by
  have fits : n ≤ largest := Nat.le_trans (Nat.le_of_lt two) (by decide)
  rw [field, trimLeft_padded (by decide) two, number_padded (by decide) two fits (.inl rfl)]
  exact if_pos bounds

theorem year_padded (four : n < 10000) (rest : List Char) :
    year (padded 4 n ++ rest) = .ok ((n : Int), rest) := by
  have fits : n ≤ largest := Nat.le_trans (Nat.le_of_lt four) (by decide)
  have small : n < 10 ^ 4 := four
  have run : number (some 4) (padded 4 n ++ rest) = .ok (n, rest) :=
    number_padded (by decide) small fits (.inl rfl)
  have whole := trimLeft_padded (by decide) small rest
  obtain ⟨c, cs, hp, digit⟩ := padded_eq_cons (by decide) small
  rw [hp, List.cons_append] at run whole ⊢
  have minus : c ≠ '-' := by
    rintro rfl
    cases digit
  have plus : c ≠ '+' := by
    rintro rfl
    cases digit
  have range : (-2147483648 : Int) ≤ n ∧ (n : Int) ≤ 2147483647 := by omega
  rw [year, whole]
  simp only [bind, Except.bind]
  split
  · rename_i head
    exact absurd (List.cons.inj head).1 minus
  · rename_i head
    exact absurd (List.cons.inj head).1 plus
  · rw [run]
    exact if_pos range

theorem mark_cons {c : Char} (h : isBlank c = false) (rest : List Char) :
    mark c (c :: rest) = .ok rest := by
  have whole : trimLeft (c :: rest) = c :: rest := List.dropWhile_cons_of_neg (by simp [h])
  rw [mark, whole]
  exact if_pos rfl

/-- The digits behind the point of a fraction, before the mark of the offset. -/
theorem fraction_point (pos : 0 < width) (h : n < 10 ^ width) (nine : width ≤ 9)
    (rest : List Char) :
    fraction ('.' :: (padded width n ++ 'Z' :: rest)) =
      .ok (n * 10 ^ (9 - width), 'Z' :: rest) := by
  have fits : n ≤ largest :=
    Nat.le_trans (Nat.le_of_lt h) (Nat.le_trans (Nat.pow_le_pow_right (by decide) nine) (by decide))
  have run : number (some 9) (padded width n ++ 'Z' :: rest) = .ok (n, 'Z' :: rest) :=
    number_padded pos h fits (.inr ⟨nine, by rintro c ⟨⟩; rfl⟩)
  have used : (padded width n ++ 'Z' :: rest).length - ('Z' :: rest).length = width := by
    rw [List.length_append, Nat.add_sub_cancel, length_padded pos h]
  have behind : ('Z' :: rest).dropWhile (fun c => (digit? c).isSome) = 'Z' :: rest := rfl
  simp only [fraction, run, bind, Except.bind, used, behind]
  rfl

/-- **A printed fraction** counts the nanoseconds it was printed for: digits are left out only
where they are zeros. -/
theorem fraction_fractionChars {nanos : Nat} (h : nanos < 1000000000) (rest : List Char) :
    fraction (fractionChars nanos ++ 'Z' :: rest) = .ok (nanos, 'Z' :: rest) := by
  unfold fractionChars
  split
  · rename_i zero
    rw [zero]
    rfl
  · split
    · rename_i milli
      rw [List.cons_append, fraction_point (by decide) (show nanos / 1000000 < 10 ^ 3 by omega)
        (by decide), show nanos / 1000000 * 10 ^ (9 - 3) = nanos by omega]
    · split
      · rename_i micro
        rw [List.cons_append, fraction_point (by decide) (show nanos / 1000 < 10 ^ 6 by omega)
          (by decide), show nanos / 1000 * 10 ^ (9 - 6) = nanos by omega]
      · rw [List.cons_append, fraction_point (by decide) (show nanos < 10 ^ 9 by omega)
          (by decide), Nat.sub_self, Nat.pow_zero, Nat.mul_one]

/-! ## Instants -/

/-- The year that an instant lies in. -/
def civilYear (t : Instant) : Int :=
  (Date.ofDays (t.seconds / 86400)).year

/-- **An ordinary instant**: of the years 0000 to 9999, and no leap second. -/
structure Ordinary (t : Instant) : Prop where
  year : 0 ≤ t.civilYear ∧ t.civilYear ≤ 9999
  nanos : t.nanos < 1000000000

variable {t : Instant}

/-- The numbers that an instant is printed as. -/
def printed (t : Instant) : Fields where
  date := Date.ofDays (t.seconds / 86400)
  hour := (t.seconds % 86400).toNat / 3600
  minute := (t.seconds % 86400).toNat / 60 % 60
  second := (t.seconds % 86400).toNat % 60
  nanos := t.nanos
  offset := 0

theorem date_bounds {d : Date} (h : d.valid) :
    1 ≤ d.month ∧ d.month ≤ 12 ∧ 1 ≤ d.day ∧ d.day ≤ 31 := by
  simp only [Date.valid, Bool.and_eq_true, decide_eq_true_eq] at h
  obtain ⟨⟨⟨month, month'⟩, day⟩, day'⟩ := h
  have most : daysInMonth d.year d.month ≤ 31 := by
    unfold daysInMonth
    split
    · split <;> decide
    · split <;> decide
  exact ⟨month, month', day, Nat.le_trans day' most⟩

/-- **The numbers of a printed instant** are read as they were printed. -/
theorem fields_toChars (h : t.Ordinary) : fields t.toChars = .ok t.printed := by
  obtain ⟨month, month', day, day'⟩ := date_bounds (Date.valid_ofDays (t.seconds / 86400))
  have leap : ¬ 1000000000 ≤ t.nanos := Nat.not_le.mpr h.nanos
  have year : 0 ≤ (Date.ofDays (t.seconds / 86400)).year ∧
      (Date.ofDays (t.seconds / 86400)).year ≤ 9999 := h.year
  have four : (Date.ofDays (t.seconds / 86400)).year.toNat < 10000 := by omega
  have hour : (t.seconds % 86400).toNat / 3600 ≤ 23 := by omega
  have minute : (t.seconds % 86400).toNat / 60 % 60 ≤ 59 := by omega
  have second : (t.seconds % 86400).toNat % 60 ≤ 60 := by omega
  simp only [toChars, dateChars, yearChars, leap, decide_false, Bool.false_eq_true, if_false,
    if_pos year, List.append_assoc, List.cons_append]
  simp only [fields, bind, Except.bind, year_padded four, mark_cons (show isBlank '-' = false from rfl),
    field_padded ⟨month, month'⟩ (by omega), field_padded ⟨day, day'⟩ (by omega),
    show ∀ rest, between ('T' :: rest) = .ok rest from fun _ => rfl,
    field_padded ⟨Nat.zero_le _, hour⟩ (by omega), mark_cons (show isBlank ':' = false from rfl),
    field_padded ⟨Nat.zero_le _, minute⟩ (by omega),
    field_padded ⟨Nat.zero_le _, second⟩ (by omega), fraction_fractionChars h.nanos,
    Int.toNat_of_nonneg year.1]
  rfl

theorem yearInRange_of_ordinary (h : t.Ordinary) : yearInRange t.civilYear = true := by
  have := h.year
  simp only [yearInRange, Bool.and_eq_true, decide_eq_true_eq]
  omega

/-- **The printed numbers name the instant.** -/
theorem instant_printed (h : t.Ordinary) : t.printed.instant = .ok t := by
  have real : yearInRange t.printed.date.year ∧ t.printed.date.valid :=
    ⟨yearInRange_of_ordinary h, Date.valid_ofDays _⟩
  have second : ¬ t.printed.second = 60 := by
    show ¬ (t.seconds % 86400).toNat % 60 = 60
    omega
  have seconds : t.printed.date.toDays * 86400 +
      ((t.printed.hour : Int) * 3600 + t.printed.minute * 60 + t.printed.second) -
        t.printed.offset = t.seconds := by
    show (Date.ofDays (t.seconds / 86400)).toDays * 86400 + _ - 0 = _
    rw [Date.toDays_ofDays]
    show _ + (((((t.seconds % 86400).toNat / 3600 : Nat) : Int)) * 3600 +
      ((t.seconds % 86400).toNat / 60 % 60 : Nat) * 60 +
      ((t.seconds % 86400).toNat % 60 : Nat)) - 0 = _
    omega
  have subsecond : t.printed.subsecond = t.nanos := by
    rw [Fields.subsecond, if_neg second]
    show 0 + t.nanos % 1000000000 = t.nanos
    rw [Nat.mod_eq_of_lt h.nanos, Nat.zero_add]
  have zone : ¬ 86400 ≤ t.printed.offset.natAbs := by
    show ¬ 86400 ≤ (0 : Int).natAbs
    decide
  have inRange : yearInRange (Date.ofDays (t.seconds / 86400)).year = true :=
    yearInRange_of_ordinary h
  simp only [Fields.instant, real, not_true_eq_false, if_false, zone, second, seconds, subsecond,
    and_self, inRange, if_true]

/-- **A printed instant is read as itself**, for every nanosecond of ten thousand years. -/
theorem read_toText (h : t.Ordinary) : read t.toText = .ok t := by
  rw [read, toText, String.toList_ofList, fields_toChars h]
  exact instant_printed h

end OrderDesk.Instant
