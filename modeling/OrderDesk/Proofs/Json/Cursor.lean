import OrderDesk.Json.Record
import OrderDesk.Proofs.Json.Grammar
import OrderDesk.Proofs.Text.Utf8

/-!
# What a cursor has in front of it

A reader that takes a text takes just the bytes of it, wherever in a document the text stands. The
line and the column only matter to refusals, so all that is said of a cursor here is what is still
to be read.

## Main definitions

* `Stops`: what may follow a number
* `Takes`: a reader takes a text for a value
* `ComesTo`: a loop comes to another one, step by step

## Main results

* `rest_skipBlanks_of`: blanks are passed over
* `colon_of`, `objectHasNext_member`, `objectHasNext_close`, `closeObject_of`: the marks of an
  object
-/

namespace OrderDesk.Json

open Text Text.Utf8

/-- **What may follow a number**: nothing, or a byte that does not go on with it. -/
def Stops : List UInt8 → Prop
  | [] => True
  | byte :: _ => Ascii.isDigit byte = false ∧ byte ≠ Ascii.point ∧ Ascii.isExponentMark byte = false

/-- **A reader takes a text for a value**, blanks in front of it included, wherever it stands. -/
def Takes {α : Type} (read : Cursor → Except Error (α × Cursor)) (text : List Char) (a : α) :
    Prop :=
  ∀ ⦃c : Cursor⦄ ⦃ws : List Char⦄ ⦃tail : List UInt8⦄, Blanks ws →
    c.rest = encode ws ++ (encode text ++ tail) → Stops tail →
    ∃ c', read c = .ok (a, c') ∧ c'.rest = tail

/-! ## Loops -/

/-- **A step takes a byte at least**, so there is one left to be taken if the bytes bound the
steps. -/
theorem exists_step {n : Nat} {bytes fuel : List UInt8} (shorter : n < bytes.length)
    (enough : bytes.length ≤ fuel.length) :
    ∃ step fuel', fuel = step :: fuel' ∧ n ≤ fuel'.length := by
  cases fuel with
  | nil => exact absurd (Nat.lt_of_lt_of_le shorter enough) (Nat.not_lt_zero n)
  | cons step fuel =>
    exact ⟨step, fuel, rfl, Nat.le_of_lt_succ (Nat.lt_of_lt_of_le shorter enough)⟩

/-- **A loop comes to another one**, with so much still to be read. The bytes that are still to be
read bound the steps of either. -/
def ComesTo {R : Type} (loop : List UInt8 → Cursor → R) (c : Cursor)
    (loop' : List UInt8 → Cursor → R) (rest : List UInt8) : Prop :=
  ∀ ⦃fuel : List UInt8⦄, c.rest.length ≤ fuel.length →
    ∃ fuel' c', c'.rest = rest ∧ c'.rest.length ≤ fuel'.length ∧ loop fuel c = loop' fuel' c'

section ComesTo

variable {R : Type} {loop loop' loop'' : List UInt8 → Cursor → R} {c c' : Cursor}
  {rest rest' : List UInt8}

theorem ComesTo.here (h : c.rest = rest) : ComesTo loop c loop rest :=
  fun fuel hfuel => ⟨fuel, c, h, hfuel, rfl⟩

theorem ComesTo.trans (h : ComesTo loop c loop' rest)
    (next : ∀ ⦃c⦄, c.rest = rest → ComesTo loop' c loop'' rest') :
    ComesTo loop c loop'' rest' := by
  intro fuel hfuel
  obtain ⟨fuel₁, c₁, hrest₁, hfuel₁, hloop₁⟩ := h hfuel
  obtain ⟨fuel', c', hrest, hfuel', hloop⟩ := next hrest₁ hfuel₁
  exact ⟨fuel', c', hrest, hfuel', hloop₁.trans hloop⟩

/-- **One step of a loop**, which takes a byte at least. -/
theorem ComesTo.step (shorter : c'.rest.length < c.rest.length)
    (step : ∀ byte fuel, loop (byte :: fuel) c = loop' fuel c')
    (next : ComesTo loop' c' loop'' rest) : ComesTo loop c loop'' rest := by
  intro fuel hfuel
  obtain ⟨byte, fuel, rfl, hfuel'⟩ := exists_step shorter hfuel
  rw [step]
  exact next hfuel'

end ComesTo

namespace Cursor

variable {c : Cursor} {byte : UInt8} {rest : List UInt8} {ws : List Char}

/-! ## One byte -/

theorem peek?_of (h : c.rest = byte :: rest) : c.peek? = some byte := by
  rw [peek?, h]
  rfl

theorem looksAt_of (h : c.rest = byte :: rest) (other : UInt8) :
    c.looksAt other = (byte == other) := by
  rw [looksAt, h]
  rfl

theorem rest_advance (h : c.rest = byte :: rest) : c.advance.rest = rest := by
  simp only [advance, h, past]
  split <;> rfl

theorem length_advance (h : c.rest = byte :: rest) : c.advance.rest.length < c.rest.length := by
  rw [rest_advance h, h]
  exact Nat.lt_succ_self _

/-! ## Blanks -/

theorem rest_skipBlanksFrom (line column : Nat) (bytes : List UInt8) :
    (skipBlanksFrom line column bytes).rest = bytes.dropWhile isBlank := by
  induction bytes generalizing line column with
  | nil => rfl
  | cons byte bytes ih =>
    by_cases hn : byte = Ascii.newline
    · subst hn
      rw [skipBlanksFrom, if_pos (by rfl), ih, List.dropWhile_cons_of_pos (by rfl)]
    · rw [skipBlanksFrom, if_neg (by simpa using hn)]
      by_cases hb : isBlank byte = true
      · rw [if_pos hb, ih, List.dropWhile_cons_of_pos hb]
      · rw [if_neg hb, List.dropWhile_cons_of_neg hb]

theorem encode_blanks (blanks : Blanks ws) : ∀ byte ∈ encode ws, isBlank byte = true := by
  induction ws with
  | nil => simp
  | cons c ws ih =>
    have htail := ih fun c' hc' => blanks c' (List.mem_cons_of_mem _ hc')
    rw [encode_cons]
    intro byte hbyte
    rcases List.mem_append.mp hbyte with hbyte | hbyte
    · rcases blanks c (List.mem_cons_self ..) with rfl | rfl | rfl | rfl <;>
        · obtain rfl := List.mem_singleton.mp hbyte
          rfl
    · exact htail byte hbyte

/-- **Blanks are passed over**, up to a byte that is none. -/
theorem rest_skipBlanks_of (blanks : Blanks ws) (h : c.rest = encode ws ++ byte :: rest)
    (notBlank : isBlank byte = false) : c.skipBlanks.rest = byte :: rest := by
  rw [skipBlanks, rest_skipBlanksFrom, h, List.dropWhile_append_of_pos (encode_blanks blanks),
    List.dropWhile_cons_of_neg (by simp [notBlank])]

/-- Blanks may also end a text. -/
theorem rest_skipBlanks_nil (blanks : Blanks ws) (h : c.rest = encode ws) :
    c.skipBlanks.rest = [] := by
  rw [skipBlanks, rest_skipBlanksFrom, h, ← List.append_nil (encode ws),
    List.dropWhile_append_of_pos (encode_blanks blanks), List.dropWhile_nil]

theorem blanks_nil : Blanks [] := by
  simp [Blanks]

/-! ## Words and marks -/

/-- **A word is read** to its last letter. -/
theorem word_of (letters : List UInt8) (h : c.rest = letters ++ rest) :
    ∃ c', c.word letters = .ok c' ∧ c'.rest = rest := by
  induction letters generalizing c with
  | nil => exact ⟨c, rfl, h⟩
  | cons letter letters ih =>
    simp only [word, peek?_of h, beq_self_eq_true, if_true]
    exact ih (rest_advance h)

/-- **The colon** behind a key. -/
theorem colon_of (blanks : Blanks ws) (h : c.rest = encode ws ++ Ascii.colon :: rest) :
    ∃ c', c.colon = .ok c' ∧ c'.rest = rest := by
  have hrest := rest_skipBlanks_of blanks h rfl
  refine ⟨c.skipBlanks.advance, ?_, rest_advance hrest⟩
  simp [colon, peek?_of hrest]

/-- **An object goes on** with the quote of a key, behind a comma unless it is the first one. -/
theorem objectHasNext_member {gap : List Char} (first : Bool) (before : Blanks ws)
    (behind : Blanks gap)
    (h : c.rest = encode ws ++ (encode (comma first) ++ (encode gap ++ Ascii.quote :: rest))) :
    ∃ c', c.objectHasNext first = .ok (true, c') ∧ c'.rest = Ascii.quote :: rest := by
  cases first with
  | true =>
    have hblanks : Blanks (ws ++ gap) := fun c hc =>
      (List.mem_append.mp hc).elim (before c) (behind c)
    have hgap : c.rest = encode (ws ++ gap) ++ Ascii.quote :: rest := by
      rw [h, encode_append, List.append_assoc]
      rfl
    have hrest := rest_skipBlanks_of hblanks hgap rfl
    refine ⟨c.skipBlanks, ?_, hrest⟩
    simp only [objectHasNext, peek?_of hrest]
    rfl
  | false =>
    have hcomma : c.skipBlanks.rest = Ascii.comma :: (encode gap ++ Ascii.quote :: rest) :=
      rest_skipBlanks_of before h rfl
    have hrest := rest_skipBlanks_of behind (rest_advance hcomma) rfl
    refine ⟨c.skipBlanks.advance.skipBlanks, ?_, hrest⟩
    simp only [objectHasNext, peek?_of hcomma, peek?_of hrest]
    rfl

/-- **An object ends** with its closing brace. -/
theorem objectHasNext_close (first : Bool) (blanks : Blanks ws)
    (h : c.rest = encode ws ++ Ascii.closeBrace :: rest) :
    ∃ c', c.objectHasNext first = .ok (false, c') ∧ c'.rest = Ascii.closeBrace :: rest := by
  have hrest := rest_skipBlanks_of blanks h rfl
  refine ⟨c.skipBlanks, ?_, hrest⟩
  simp [objectHasNext, peek?_of hrest]

theorem closeObject_of (h : c.rest = Ascii.closeBrace :: rest) :
    ∃ c', c.closeObject = (.ok (), c') ∧ c'.rest = rest := by
  have hrest := rest_skipBlanks_of blanks_nil h rfl
  refine ⟨c.skipBlanks.advance, ?_, rest_advance hrest⟩
  simp [closeObject, peek?_of hrest]

end Cursor

end OrderDesk.Json
