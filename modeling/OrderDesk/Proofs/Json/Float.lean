import OrderDesk.Json.Value
import OrderDesk.Proofs.Json.Reader

/-!
# Floats that are rendered and read

A number is told by its own characters: whoever reads it up to the end of a text reads the same
number where something follows that does not go on with it. So a float that comes back from its
compact text by itself also comes back from within a record.

## Main definitions

* `Undisturbed`: a reader of numbers does not mind what follows
* `ReadsBack`: a float comes back from its compact text

## Main results

* `undisturbed_readNumber`: the reader of numbers is one
* `takes_double`: a float that comes back does so wherever its text stands
-/

namespace OrderDesk.Json

open Text Text.Utf8 Cursor

variable {c d : Cursor} {byte : UInt8} {tail : List UInt8} {negative : Bool} {significand : Nat}
  {exponent : Int}

/-! ## Two cursors, one of which has more in front of it -/

/-- The digits at the head are the same if no digit follows at the end. -/
theorem digitRun_append (more : d.rest = c.rest ++ tail) (stops : Stops tail) :
    digitRun d = digitRun c := by
  have run : d.rest.takeWhile Ascii.isDigit = c.rest.takeWhile Ascii.isDigit := by
    rw [more, List.takeWhile_append]
    split
    · rename_i all
      have none : tail.takeWhile Ascii.isDigit = [] := by
        rcases tail with _ | ⟨byte, tail⟩
        · rfl
        · exact List.takeWhile_cons_of_neg (by simp [stops.1])
      rw [none, List.append_nil, (List.takeWhile_prefix _).eq_of_length all]
    · rfl
  rw [digitRun, digitRun, run]

theorem peek?_append (more : d.rest = c.rest ++ tail) (h : c.peek? = some byte) :
    d.peek? = some byte := by
  rw [peek?] at h ⊢
  rw [more, List.head?_append, h, Option.some_or]

theorem rest_eq_nil (h : c.peek? = none) : c.rest = [] :=
  List.head?_eq_none_iff.mp h

theorem looksAt_append (more : d.rest = c.rest ++ tail) (h : c.peek? = some byte) (other : UInt8) :
    d.looksAt other = c.looksAt other := by
  have there := peek?_append more h
  rw [peek?] at h there
  rw [looksAt, looksAt, h, there]

theorem rest_advance_append (more : d.rest = c.rest ++ tail) (h : c.peek? = some byte) :
    d.advance.rest = c.advance.rest ++ tail := by
  rcases hc : c.rest with _ | ⟨first, rest⟩
  · rw [peek?, hc] at h
    cases h
  · rw [hc, List.cons_append] at more
    rw [rest_advance hc, rest_advance more]

theorem rest_advance_suffix (c : Cursor) : c.advance.rest <:+ c.rest := by
  rcases hc : c.rest with _ | ⟨first, rest⟩
  · rw [advance, hc]
    exact ⟨[], hc⟩
  · rw [rest_advance hc]
    exact List.suffix_cons first rest

theorem length_digitRun_le (c : Cursor) : (digitRun c).length ≤ c.rest.length := by
  rw [digitRun, List.length_map]
  exact (List.takeWhile_prefix _).length_le

theorem rest_advanceBy_append (more : d.rest = c.rest ++ tail) {n : Nat} (h : n ≤ c.rest.length) :
    (d.advanceBy n).rest = (c.advanceBy n).rest ++ tail := by
  rw [advanceBy, advanceBy, more, List.drop_append_of_le_length h]

theorem rest_advanceBy_suffix (c : Cursor) (n : Nat) : (c.advanceBy n).rest <:+ c.rest :=
  List.drop_suffix n c.rest

/-! ## The reader of numbers -/

/-- **What a reader took** in front of one cursor it takes in front of every other that has the same
in front of it, and then something that does not go on with a number. -/
def Undisturbed (read : Cursor → Except Error (Number × Cursor)) : Prop :=
  ∀ ⦃c c' : Cursor⦄ ⦃n : Number⦄, read c = .ok (n, c') → c'.rest <:+ c.rest ∧
    ∀ ⦃d : Cursor⦄ ⦃tail : List UInt8⦄, d.rest = c.rest ++ tail → Stops tail →
      ∃ d', read d = .ok (n, d') ∧ d'.rest = c'.rest ++ tail

/-- **One reader goes on with another**, which does not mind what follows. -/
theorem Undisturbed.through {read inner : Cursor → Except Error (Number × Cursor)}
    {b c' : Cursor} {n : Number} (undisturbed : Undisturbed inner) (h : inner b = .ok (n, c'))
    (suffix : b.rest <:+ c.rest)
    (same : ∀ ⦃d : Cursor⦄ ⦃tail : List UInt8⦄, d.rest = c.rest ++ tail → Stops tail →
      ∃ e, e.rest = b.rest ++ tail ∧ read d = inner e) :
    c'.rest <:+ c.rest ∧ ∀ ⦃d : Cursor⦄ ⦃tail : List UInt8⦄, d.rest = c.rest ++ tail →
      Stops tail → ∃ d', read d = .ok (n, d') ∧ d'.rest = c'.rest ++ tail := by
  obtain ⟨shorter, again⟩ := undisturbed h
  refine ⟨shorter.trans suffix, fun d tail more stops => ?_⟩
  obtain ⟨e, he, hread⟩ := same more stops
  rw [hread]
  exact again he stops

theorem undisturbed_ok : Undisturbed fun c => .ok (number, c) := by
  intro c c' n h
  cases h
  exact ⟨List.suffix_refl _, fun d tail more _ => ⟨d, rfl, more⟩⟩

theorem undisturbed_finish : Undisturbed (finish negative significand exponent) := by
  intro c c' n h
  rcases hx : scaled significand exponent with _ | x
  · simp only [finish, hx] at h
    cases h
  · simp only [finish, hx] at h ⊢
    exact undisturbed_ok h

/-- The sign of an exponent is passed over alike. -/
theorem rest_sign_append (more : d.rest = c.rest ++ tail) (h : c.peek? = some byte) :
    (if d.looksAt Ascii.minus || d.looksAt Ascii.plus then d.advance else d).rest =
      (if c.looksAt Ascii.minus || c.looksAt Ascii.plus then c.advance else c).rest ++ tail := by
  rw [looksAt_append more h, looksAt_append more h]
  split
  · exact rest_advance_append more h
  · exact more

theorem rest_sign_suffix (c : Cursor) :
    (if c.looksAt Ascii.minus || c.looksAt Ascii.plus then c.advance else c).rest <:+ c.rest := by
  split
  · exact rest_advance_suffix c
  · exact List.suffix_refl _

theorem undisturbed_readExponent : Undisturbed (readExponent negative significand exponent) := by
  intro c c' n h
  rcases hc : c.peek? with _ | first
  · -- nothing is left, and an exponent has a digit at least
    have hnone (other : UInt8) : c.looksAt other = false := by
      rw [looksAt, rest_eq_nil hc]
      rfl
    simp only [readExponent, hnone, Bool.or_self, Bool.false_eq_true, if_false, hc] at h
    cases h
  · have hsuffix := rest_sign_suffix c
    have hmore := fun (d : Cursor) (tail : List UInt8) (more : d.rest = c.rest ++ tail) =>
      rest_sign_append more hc
    have hdown := fun (d : Cursor) (tail : List UInt8) (more : d.rest = c.rest ++ tail) =>
      looksAt_append more hc Ascii.minus
    simp only [readExponent] at h ⊢
    generalize (if c.looksAt Ascii.minus || c.looksAt Ascii.plus then c.advance else c) = b
      at h hsuffix hmore
    rcases hb : b.peek? with _ | byte
    · rw [hb] at h
      cases h
    rw [hb] at h
    simp only at h
    split at h
    · cases h
    rename_i hdigit
    have hbehind := (rest_advanceBy_suffix b (digitRun b).length).trans hsuffix
    have same (d : Cursor) (tail : List UInt8) (more : d.rest = c.rest ++ tail)
        (stops : Stops tail) :
        ∃ e, (if d.looksAt Ascii.minus || d.looksAt Ascii.plus then d.advance else d) = e ∧
          e.peek? = some byte ∧ digitRun e = digitRun b ∧
          (e.advanceBy (digitRun b).length).rest =
            (b.advanceBy (digitRun b).length).rest ++ tail := by
      have hrest := hmore d tail more
      exact ⟨_, rfl, peek?_append hrest hb, digitRun_append hrest stops,
        rest_advanceBy_append hrest (length_digitRun_le b)⟩
    split at h
    · rename_i power hgather
      refine undisturbed_finish.through h hbehind fun d tail more stops => ?_
      obtain ⟨e, he, hpeek, hrun, hrest⟩ := same d tail more stops
      refine ⟨_, hrest, ?_⟩
      simp only [hdown d tail more, Bool.or_eq_true] at he ⊢
      simp only [he, hpeek, hdigit, hrun, hgather]
      rfl
    · rename_i hgather
      split at h
      · cases h
      · rename_i hzero
        refine undisturbed_ok.through h hbehind fun d tail more stops => ?_
        obtain ⟨e, he, hpeek, hrun, hrest⟩ := same d tail more stops
        refine ⟨_, hrest, ?_⟩
        simp only [hdown d tail more, Bool.or_eq_true] at he ⊢
        simp only [he, hpeek, hdigit, hrun, hgather, if_neg hzero]
        rfl

/-- What does not come next does not come next either where more follows. -/
theorem peek?_append_of {p : UInt8 → Bool} (h : ∀ byte ∈ c.peek?, p byte = false)
    (more : d.rest = c.rest ++ tail) (after : ∀ byte ∈ tail.head?, p byte = false) :
    ∀ byte ∈ d.peek?, p byte = false := by
  intro byte hbyte
  rcases hc : c.peek? with _ | first
  · rw [peek?, more, rest_eq_nil hc, List.nil_append] at hbyte
    exact after byte hbyte
  · rw [peek?_append more hc] at hbyte
    exact h byte (hc.trans hbyte)

theorem Stops.not_mark (stops : Stops tail) :
    ∀ byte ∈ tail.head?, Ascii.isExponentMark byte = false := by
  rcases tail with _ | ⟨byte, tail⟩
  · simp
  · simpa using stops.2.2

theorem Stops.not_point (stops : Stops tail) :
    ∀ byte ∈ tail.head?, (byte == Ascii.point) = false := by
  rcases tail with _ | ⟨byte, tail⟩
  · simp
  · simpa using stops.2.1

theorem readScaled_of_mark (h : c.peek? = some byte) (mark : Ascii.isExponentMark byte = true) :
    readScaled negative significand exponent c =
      readExponent negative significand exponent c.advance := by
  simp only [readScaled, h, mark, if_true]

theorem readScaled_of_ends (ends : ∀ byte ∈ c.peek?, Ascii.isExponentMark byte = false) :
    readScaled negative significand exponent c = finish negative significand exponent c := by
  rcases hc : c.peek? with _ | byte
  · simp only [readScaled, hc]
  · simp only [readScaled, hc, ends byte hc]
    rfl

theorem undisturbed_readScaled : Undisturbed (readScaled negative significand exponent) := by
  intro c c' n h
  by_cases hmark : ∃ byte, c.peek? = some byte ∧ Ascii.isExponentMark byte = true
  · obtain ⟨byte, hc, mark⟩ := hmark
    rw [readScaled_of_mark hc mark] at h
    refine undisturbed_readExponent.through h (rest_advance_suffix c) fun d tail more _ => ?_
    exact ⟨_, rest_advance_append more hc, readScaled_of_mark (peek?_append more hc) mark⟩
  · have ends : ∀ byte ∈ c.peek?, Ascii.isExponentMark byte = false := fun byte hc =>
      Bool.eq_false_iff.mpr fun mark => hmark ⟨byte, hc, mark⟩
    rw [readScaled_of_ends ends] at h
    refine undisturbed_finish.through h (List.suffix_refl _) fun d tail more stops => ?_
    exact ⟨d, more, readScaled_of_ends (peek?_append_of ends more stops.not_mark)⟩

theorem undisturbed_readFraction : Undisturbed (readFraction negative significand exponent) := by
  intro c c' n h
  simp only [readFraction] at h
  split at h
  · split at h <;> cases h
  · rename_i hsome
    refine undisturbed_readScaled.through h (rest_advanceBy_suffix c _) fun d tail more stops => ?_
    refine ⟨_, rest_advanceBy_append more (length_digitRun_le c), ?_⟩
    simp only [readFraction, digitRun_append more stops, hsome]
    rfl

/-- What goes on with a number behind its digits. -/
def readBehind (negative : Bool) (significand : Nat) (left : List Nat) (c : Cursor) :
    Except Error (Number × Cursor) :=
  if c.peek? = some Ascii.point then readFraction negative significand left.length c.advance
  else if left.isEmpty ∧ c.peek?.any Ascii.isExponentMark = false then
    .ok (integer negative significand, c)
  else readScaled negative significand left.length c

theorem readUnsigned_eq (h : c.peek? = some byte) (digit : Ascii.isDigit byte = true)
    (lone : ¬ (byte == Ascii.zero ∧ 1 < (digitRun c).length)) :
    readUnsigned negative c =
      readBehind negative (gather largestSignificand 0 (digitRun c)).1
        (gather largestSignificand 0 (digitRun c)).2 (c.advanceBy (digitRun c).length) := by
  simp only [readUnsigned, h, digit, Bool.not_true, Bool.false_eq_true, if_false, readBehind]
  rw [if_neg lone]
  rcases hb : (c.advanceBy (digitRun c).length).peek? with _ | next
  · simp [readScaled, hb]
  · by_cases point : next = Ascii.point
    · simp [point]
    · simp only [readScaled, Option.some.injEq, point, if_false, Option.any_some, beq_iff_eq]
      split <;> simp_all

theorem undisturbed_readBehind (left : List Nat) :
    Undisturbed (readBehind negative significand left) := by
  intro c c' n h
  unfold readBehind at h
  split at h
  · rename_i point
    refine undisturbed_readFraction.through h (rest_advance_suffix c) fun d tail more _ => ?_
    exact ⟨_, rest_advance_append more point, if_pos (peek?_append more point)⟩
  · rename_i point
    have nopoint {d : Cursor} {tail : List UInt8} (more : d.rest = c.rest ++ tail)
        (stops : Stops tail) : ¬ d.peek? = some Ascii.point := by
      have other : ∀ byte ∈ c.peek?, (byte == Ascii.point) = false := by
        intro byte hbyte
        rw [beq_eq_false_iff_ne]
        rintro rfl
        exact point hbyte
      intro hd
      cases peek?_append_of other more stops.not_point _ hd
    split at h
    · rename_i whole
      refine undisturbed_ok.through h (List.suffix_refl _) fun d tail more stops => ⟨d, more, ?_⟩
      have ends := peek?_append_of ((Option.any_eq_false _ _).mp whole.2) more stops.not_mark
      rw [readBehind, if_neg (nopoint more stops),
        if_pos ⟨whole.1, (Option.any_eq_false _ _).mpr ends⟩]
    · rename_i whole
      refine undisturbed_readScaled.through h (List.suffix_refl _) fun d tail more stops => ?_
      refine ⟨d, more, ?_⟩
      rw [readBehind, if_neg (nopoint more stops), if_neg]
      rintro ⟨empty, ends⟩
      rw [Option.any_eq_false] at ends
      exact whole ⟨empty, (Option.any_eq_false _ _).mpr fun byte hbyte =>
        ends byte (peek?_append more hbyte)⟩

theorem undisturbed_readUnsigned : Undisturbed (readUnsigned negative) := by
  intro c c' n h
  rcases hc : c.peek? with _ | byte
  · simp only [readUnsigned, hc] at h
    cases h
  by_cases digit : Ascii.isDigit byte = true
  · by_cases lone : byte == Ascii.zero ∧ 1 < (digitRun c).length
    · simp only [readUnsigned, hc, digit, Bool.not_true, Bool.false_eq_true, if_false] at h
      rw [if_pos lone] at h
      cases h
    · rw [readUnsigned_eq hc digit lone] at h
      refine (undisturbed_readBehind _).through h (rest_advanceBy_suffix c _)
        fun d tail more stops => ⟨_, rest_advanceBy_append more (length_digitRun_le c), ?_⟩
      have run := digitRun_append more stops
      rw [readUnsigned_eq (peek?_append more hc) digit (by rw [run]; exact lone), run]
  · simp only [readUnsigned, hc, digit, Bool.not_false, if_true] at h
    cases h

/-- **The reader of numbers does not mind what follows** a number. -/
theorem undisturbed_readNumber : Undisturbed readNumber := by
  intro c c' n h
  rcases hc : c.peek? with _ | byte
  · have hminus : c.looksAt Ascii.minus = false := by
      rw [looksAt, rest_eq_nil hc]
      rfl
    simp only [readNumber, hminus, Bool.false_eq_true, if_false, readUnsigned, hc] at h
    cases h
  · have same {d : Cursor} {tail : List UInt8} (more : d.rest = c.rest ++ tail) :=
      looksAt_append more hc Ascii.minus
    unfold readNumber at h
    split at h
    · rename_i hminus
      refine undisturbed_readUnsigned.through h (rest_advance_suffix c) fun d tail more _ => ?_
      exact ⟨_, rest_advance_append more hc, if_pos ((same more).trans hminus)⟩
    · rename_i hminus
      refine undisturbed_readUnsigned.through h (List.suffix_refl _) fun d tail more _ => ?_
      exact ⟨d, more, if_neg (same more ▸ hminus)⟩

/-! ## The characters of a float -/

/-- **The characters of a float**: digits, a point, a mark and signs, and the letters of the word
for nothing. -/
def FloatChar (ch : Char) : Prop :=
  ch.isDigit = true ∨ ch ∈ ['.', 'e', '+', '-', 'n', 'u', 'l']

theorem floatChar_digitChars {n : Nat} : ∀ ch ∈ Decimal.digitChars n, FloatChar ch :=
  fun _ h => .inl (Nat.isDigit_of_mem_toDigits (by decide) (by decide) h)

theorem floatChar_positional (numeral : Decimal.Numeral) :
    ∀ ch ∈ Decimal.positional numeral ['.', '0'], FloatChar ch := by
  have zero : FloatChar '0' := .inl rfl
  have point : FloatChar '.' := .inr (by decide)
  have zeros (n : Nat) : ∀ ch ∈ List.replicate n '0', FloatChar ch := fun ch h =>
    List.eq_of_mem_replicate h ▸ zero
  unfold Decimal.positional
  simp only
  split
  · simp only [List.forall_mem_append, List.forall_mem_cons]
    exact ⟨⟨floatChar_digitChars, zeros _⟩, point, zero, by simp⟩
  · split
    · simp only [List.forall_mem_append, List.forall_mem_cons]
      exact ⟨fun ch h => floatChar_digitChars ch (List.mem_of_mem_take h), point,
        fun ch h => floatChar_digitChars ch (List.mem_of_mem_drop h)⟩
    · simp only [List.forall_mem_append, List.forall_mem_cons]
      exact ⟨zero, point, zeros _, floatChar_digitChars⟩

theorem floatChar_exponentChars (e : Int) : ∀ ch ∈ Decimal.exponentChars e, FloatChar ch := by
  unfold Decimal.exponentChars
  simp only [List.forall_mem_cons]
  refine ⟨.inr (by decide), ?_, floatChar_digitChars⟩
  split <;> exact .inr (by decide)

theorem floatChar_scientific (numeral : Decimal.Numeral) :
    ∀ ch ∈ Decimal.scientific numeral, FloatChar ch := by
  have digits := floatChar_digitChars (n := numeral.digits)
  unfold Decimal.scientific
  simp only
  split
  · exact floatChar_exponentChars _
  · rename_i a ha
    rw [ha] at digits
    simp only [List.forall_mem_cons] at digits ⊢
    exact ⟨digits.1, floatChar_exponentChars _⟩
  · rename_i a others ha
    rw [ha] at digits
    simp only [List.forall_mem_append, List.forall_mem_cons] at digits ⊢
    exact ⟨digits.1, .inr (by decide), digits.2, floatChar_exponentChars _⟩

theorem floatChar_writtenBinary (b : Decimal.Binary) :
    ∀ ch ∈ Decimal.writtenBinary b, FloatChar ch := by
  have unsigned (digits : List Char) (h : ∀ ch ∈ digits, FloatChar ch) :
      ∀ ch ∈ (if b.negative then '-' :: digits else digits), FloatChar ch := by
    split
    · exact List.forall_mem_cons.mpr ⟨.inr (by decide), h⟩
    · exact h
  refine unsigned _ ?_
  split
  · simp only [List.forall_mem_cons]
    exact ⟨.inl rfl, .inr (by decide), .inl rfl, by simp⟩
  · simp only
    split
    · exact floatChar_positional _
    · exact floatChar_scientific _

/-- No character of a float is a blank. -/
theorem isBlank_floatChar {ch : Char} (h : FloatChar ch) :
    ∀ byte ∈ String.utf8EncodeChar ch, Cursor.isBlank byte = false := by
  rcases h with digit | other
  · obtain ⟨ascii, hdigit, -⟩ := isDigit_byte digit
    rw [encodeChar_ascii ascii]
    intro byte hbyte
    rw [List.mem_singleton.mp hbyte]
    exact isBlank_of_isDigit hdigit
  · simp only [List.mem_cons, List.not_mem_nil, or_false] at other
    rcases other with rfl | rfl | rfl | rfl | rfl | rfl | rfl <;>
      · intro byte hbyte
        obtain rfl := List.mem_singleton.mp hbyte
        rfl

theorem floatChar_ofFloat (x : Float) : ∀ ch ∈ (Value.ofFloat x).renderChars, FloatChar ch := by
  show ∀ ch ∈ (Decimal.writtenChars? x).getD ['n', 'u', 'l', 'l'], FloatChar ch
  unfold Decimal.writtenChars?
  rcases Decimal.Binary.ofFloat? x with _ | b
  · intro ch hch
    refine .inr ?_
    have word : ['n', 'u', 'l', 'l'] ⊆ ['.', 'e', '+', '-', 'n', 'u', 'l'] := by decide
    exact word hch
  · exact floatChar_writtenBinary b

/-- There is no blank in the compact text of a float. -/
theorem isBlank_ofFloat (x : Float) :
    ∀ byte ∈ encode (Value.ofFloat x).renderChars, Cursor.isBlank byte = false := by
  intro byte hbyte
  obtain ⟨ch, hch, hbyte⟩ := List.mem_flatMap.mp hbyte
  exact isBlank_floatChar (floatChar_ofFloat x ch hch) byte hbyte

theorem rest_skipBlanks_self (h : ∀ byte ∈ c.rest, Cursor.isBlank byte = false) :
    c.skipBlanks.rest = c.rest := by
  rw [skipBlanks, rest_skipBlanksFrom, List.dropWhile_eq_self_iff]
  intro hlength
  rw [h _ (List.getElem_mem hlength)]
  exact Bool.false_ne_true

/-! ## Floats -/

/-- **A float comes back** from its compact text. One that is not finite does not: it is written as
the word for nothing. -/
def ReadsBack (x : Float) : Prop :=
  readDocument readDouble (encode (Value.ofFloat x).renderChars) = .ok x

/-- **The number that came back** ends with the text. -/
theorem ReadsBack.number {x : Float} (h : ReadsBack x) :
    ∃ b byte n b', b.rest = encode (Value.ofFloat x).renderChars ∧ b.peek? = some byte ∧
      (byte == Ascii.minus || Ascii.isDigit byte) = true ∧ readNumber b = .ok (n, b') ∧
      b'.rest = [] ∧ n.toFloat = x := by
  have noBlank := isBlank_ofFloat x
  unfold ReadsBack at h
  generalize encode (Value.ofFloat x).renderChars = bytes at h noBlank
  have hstart : (start bytes).skipBlanks.rest = bytes := rest_skipBlanks_self noBlank
  simp only [readDocument, readDouble, readNumberAs, bind, Except.bind] at h
  generalize (start bytes).skipBlanks = b at h hstart
  rcases hb : b.peek? with _ | byte
  · rw [hb] at h
    cases h
  rw [hb] at h
  simp only at h
  by_cases hnumber : (byte == Ascii.minus || Ascii.isDigit byte) = true
  · -- the number is read, and then only its end can be in front of the cursor
    rw [if_pos hnumber] at h
    rcases hread : readNumber b with e | ⟨n, b'⟩
    · rw [hread] at h
      cases h
    rw [hread] at h
    simp only at h
    obtain ⟨hsuffix, -⟩ := undisturbed_readNumber hread
    have hend : b'.skipBlanks.rest = b'.rest := rest_skipBlanks_self fun byte hbyte =>
      noBlank byte (hstart ▸ hsuffix.subset hbyte)
    split at h
    · rename_i hempty
      refine ⟨b, byte, n, b', hstart, hb, hnumber, hread, ?_, Except.ok.inj h⟩
      rw [← hend]
      exact List.isEmpty_iff.mp hempty
    · cases h
  · rw [if_neg hnumber] at h
    cases h

/-- **A float that comes back does so wherever its text stands.** -/
theorem takes_double {x : Float} (h : ReadsBack x) :
    Takes readDouble (Value.ofFloat x).renderChars x := by
  obtain ⟨b, byte, n, b', hb, hpeek, hnumber, hread, hend, rfl⟩ := h.number
  intro c ws tail blanks hc stops
  rw [← hb] at hc
  obtain ⟨bytes, hbytes⟩ : ∃ bytes, b.rest = byte :: bytes :=
    List.head?_eq_some_iff.mp hpeek
  have notBlank : Cursor.isBlank byte = false :=
    isBlank_ofFloat _ byte (hb ▸ hbytes ▸ List.mem_cons_self ..)
  have hrest : c.skipBlanks.rest = b.rest ++ tail := by
    rw [hbytes] at hc ⊢
    exact rest_skipBlanks_of blanks hc notBlank
  obtain ⟨-, again⟩ := undisturbed_readNumber hread
  obtain ⟨c', hread', hc'⟩ := again hrest stops
  refine ⟨c', ?_, by rw [hc', hend, List.nil_append]⟩
  simp only [readDouble, readNumberAs, peek?_append hrest hpeek, hnumber, if_true, hread', bind,
    Except.bind]

end OrderDesk.Json
