import OrderDesk.Proofs.Json.Number
import OrderDesk.Proofs.Json.Text

/-!
# Values that are passed over

Whatever is a well-formed value is passed over, however deep its brackets are nested: the reader
comes from the place in front of it to the place behind it, with the same brackets open.

## Main definitions

* `PassesOn`: the reader comes from one place to another
* `Passed`: what is claimed of a portion of a text

## Main results

* `skipScalar_of`: words, numbers and strings
* `passed_of_wellformed`: every portion of a text, by its structure
* `skipValue_of`: every value is passed over
-/

namespace OrderDesk.Json

open Text Text.Utf8 Cursor

variable {c : Cursor} {b : Bracket} {outer : List Bracket} {tail rest : List UInt8}
  {cs ws : List Char}

/-! ## What a value starts with, and what follows it -/

theorem Blanks.append {ws gap : List Char} (before : Blanks ws) (behind : Blanks gap) :
    Blanks (ws ++ gap) :=
  fun c hc => (List.mem_append.mp hc).elim (before c) (behind c)

/-- Nothing goes on with a number behind blanks. -/
theorem Stops.of_blanks (blanks : Blanks ws) (stops : Stops rest) : Stops (encode ws ++ rest) := by
  cases ws with
  | nil => exact stops
  | cons ch ws =>
    rcases blanks ch (List.mem_cons_self ..) with rfl | rfl | rfl | rfl <;>
      exact ⟨rfl, by decide, rfl⟩

/-- Nothing in front of an item, or of the closing bracket, goes on with a number. -/
theorem Wellformed.stops (h : Wellformed (.within b false) cs) : Stops (encode cs ++ tail) := by
  cases h with
  | close blanks =>
    rw [encode_append, List.append_assoc]
    refine Stops.of_blanks blanks ?_
    cases b <;> exact ⟨rfl, by decide, rfl⟩
  | item before behind label between value others =>
    rw [encode_append, List.append_assoc]
    exact Stops.of_blanks before ⟨rfl, by decide, rfl⟩

theorem StringText.start (string : StringText cs) :
    ∃ bytes, encode cs = Ascii.quote :: bytes := by
  obtain @⟨body, -⟩ := string
  exact ⟨_, encode_cons_ascii (by decide) _⟩

theorem NumberText.start (number : NumberText cs) :
    ∃ byte bytes, encode cs = byte :: bytes ∧
      (byte = Ascii.minus ∨ Ascii.isDigit byte = true) := by
  obtain ⟨rfl | rfl, whole, fraction, exponent⟩ := number
  · obtain ⟨byte, bytes, hbytes, hdigit⟩ := whole.toDigits.exists_cons
    rw [List.nil_append, encode_append, hbytes]
    exact ⟨byte, _, rfl, .inr hdigit⟩
  · exact ⟨Ascii.minus, _, rfl, .inl rfl⟩

/-- **A value starts** with a byte that is no blank and closes no list. -/
theorem Wellformed.start (h : Wellformed .value cs) :
    ∃ byte bytes, encode cs = byte :: bytes ∧ isBlank byte = false ∧
      byte ≠ Ascii.closeBracket := by
  cases h with
  | word mem =>
    simp only [List.mem_cons, List.not_mem_nil, or_false] at mem
    rcases mem with rfl | rfl | rfl <;> exact ⟨_, _, rfl, rfl, by decide⟩
  | number number =>
    obtain ⟨byte, bytes, hbytes, rfl | hdigit⟩ := number.start
    · exact ⟨_, bytes, hbytes, rfl, by decide⟩
    · refine ⟨byte, bytes, hbytes, isBlank_of_isDigit hdigit, ?_⟩
      rintro rfl
      cases hdigit
  | string string =>
    obtain ⟨bytes, hbytes⟩ := string.start
    exact ⟨_, bytes, hbytes, rfl, by decide⟩
  | @bracket b cs inner =>
    cases b
    · exact ⟨_, _, encode_cons_ascii (by decide) cs, rfl, by decide⟩
    · exact ⟨_, _, encode_cons_ascii (by decide) cs, rfl, by decide⟩

/-! ## Scalars -/

theorem skipNumber_of {byte : UInt8} {bytes : List UInt8} (number : NumberText cs)
    (start : encode cs = byte :: bytes) (h : c.rest = encode cs ++ tail) (stops : Stops tail) :
    ∃ c', (if byte == Ascii.minus then skipNumber c.advance else skipNumber c) = .ok c' ∧
      c'.rest = tail := by
  obtain ⟨rfl | rfl, whole, fraction, exponent⟩ := number
  · obtain ⟨digit, digits, hdigits, hdigit⟩ := whole.toDigits.exists_cons
    rw [List.nil_append, encode_append, encode_append] at h start
    rw [hdigits, List.cons_append] at start
    obtain ⟨rfl, -⟩ := List.cons.inj start
    have hminus : ¬ (digit == Ascii.minus) = true := by
      rw [beq_iff_eq]
      rintro rfl
      cases hdigit
    rw [if_neg hminus]
    exact skipNumber_unsigned whole fraction exponent
      (by rw [h, List.append_assoc, List.append_assoc]) stops
  · obtain ⟨rfl, -⟩ := List.cons.inj (start.symm.trans (encode_cons_ascii (by decide) _))
    have hrest : c.rest = Ascii.minus :: (encode (_ ++ (_ ++ _)) ++ tail) := h
    rw [if_pos (by rfl)]
    refine skipNumber_unsigned whole fraction exponent ?_ stops
    rw [rest_advance hrest, List.nil_append, encode_append, encode_append, List.append_assoc,
      List.append_assoc]

/-- **Words, numbers and strings** are passed over. -/
theorem skipScalar_of (scalar : cs ∈ ["null".toList, "true".toList, "false".toList] ∨
      NumberText cs ∨ StringText cs) (h : c.rest = encode cs ++ tail) (stops : Stops tail) :
    ∃ byte c', c.peek? = some byte ∧ byte ≠ Ascii.openBracket ∧ byte ≠ Ascii.openBrace ∧
      skipScalar byte c = .ok c' ∧ c'.rest = tail := by
  rcases scalar with mem | number | string
  · simp only [List.mem_cons, List.not_mem_nil, or_false] at mem
    rcases mem with rfl | rfl | rfl
    · have hn : c.rest = Ascii.lowerN :: ([0x75, 0x6C, 0x6C] ++ tail) := h
      obtain ⟨c', hword, hrest⟩ := word_of _ (rest_advance hn)
      exact ⟨_, c', peek?_of hn, by decide, by decide, hword, hrest⟩
    · have ht : c.rest = Ascii.lowerT :: ([0x72, 0x75, 0x65] ++ tail) := h
      obtain ⟨c', hword, hrest⟩ := word_of _ (rest_advance ht)
      exact ⟨_, c', peek?_of ht, by decide, by decide, hword, hrest⟩
    · have hf : c.rest = Ascii.lowerF :: ([0x61, 0x6C, 0x73, 0x65] ++ tail) := h
      obtain ⟨c', hword, hrest⟩ := word_of _ (rest_advance hf)
      exact ⟨_, c', peek?_of hf, by decide, by decide, hword, hrest⟩
  · obtain ⟨byte, bytes, hbytes, hstart⟩ := number.start
    obtain ⟨c', hskip, hrest⟩ := skipNumber_of number hbytes h stops
    have hpeek : c.peek? = some byte := peek?_of (by rw [h, hbytes, List.cons_append])
    have hne (other : UInt8) (hminus : other ≠ Ascii.minus) (hdigit : Ascii.isDigit other = false) :
        byte ≠ other := by
      rintro rfl
      rcases hstart with rfl | hstart
      · exact hminus rfl
      · rw [hstart] at hdigit
        cases hdigit
    refine ⟨byte, c', hpeek, hne _ (by decide) rfl, hne _ (by decide) rfl, ?_, hrest⟩
    have hlowerN := hne Ascii.lowerN (by decide) rfl
    have hlowerT := hne Ascii.lowerT (by decide) rfl
    have hlowerF := hne Ascii.lowerF (by decide) rfl
    rw [← hskip]
    rcases hstart with rfl | hdigit
    · rfl
    · simp [skipScalar, hlowerN, hlowerT, hlowerF, hdigit]
  · obtain ⟨hpeek, c', hskip, hrest⟩ := skipText_of string h
    exact ⟨Ascii.quote, c', hpeek, by decide, by decide, hskip, hrest⟩

/-! ## Brackets -/

theorem skipKey_of {gap : List Char} (key : StringText cs) (behind : Blanks gap)
    (blanks : Blanks ws)
    (h : c.rest = encode gap ++ (encode (cs ++ (ws ++ [':'])) ++ rest)) :
    ∃ c', skipKey c = .ok c' ∧ c'.rest = rest := by
  rw [encode_append, List.append_assoc] at h
  obtain ⟨bytes, hbytes⟩ := key.start
  have hquote : c.skipBlanks.rest = encode cs ++ (encode (ws ++ [':']) ++ rest) := by
    rw [hbytes] at h ⊢
    exact rest_skipBlanks_of behind h rfl
  obtain ⟨hpeek, c₁, hskip, hrest₁⟩ := skipText_of key hquote
  rw [encode_append, List.append_assoc] at hrest₁
  obtain ⟨c', hcolon, hrest⟩ := colon_of blanks hrest₁
  refine ⟨c', ?_, hrest⟩
  simp [skipKey, hpeek, hskip, hcolon]

/-- **In front of the value of an item**: its label is passed over. -/
theorem item_of {gap label : List Char} (behind : Blanks gap) (isLabel : Label b label)
    (h : c.rest = encode gap ++ (encode label ++ rest)) :
    ∃ ws c', Blanks ws ∧ b.item outer c = .ok (.before (b :: outer), c') ∧
      c'.rest = encode ws ++ rest ∧ c'.rest.length ≤ c.rest.length := by
  cases isLabel with
  | list => exact ⟨gap, c, behind, rfl, h, Nat.le_refl _⟩
  | object key blanks =>
    obtain ⟨c', hskip, hrest⟩ := skipKey_of key behind blanks h
    refine ⟨[], c', blanks_nil, by simp [Bracket.item, hskip], hrest, ?_⟩
    simp only [h, hrest, List.length_append]
    omega

/-- The byte that opens a bracket. -/
def Bracket.opening : Bracket → UInt8
  | list => Ascii.openBracket
  | object => Ascii.openBrace

theorem encode_closeChar (b : Bracket) : encode [b.closeChar] = [b.closing] := by
  cases b <;> rfl

theorem encode_openChar (b : Bracket) (cs : List Char) :
    encode (b.openChar :: cs) = b.opening :: encode cs := by
  cases b <;> exact encode_cons_ascii (by decide) cs

theorem isBlank_closing (b : Bracket) : isBlank b.closing = false := by
  cases b <;> rfl

theorem enter_close (blanks : Blanks ws) (h : c.rest = encode (ws ++ [b.closeChar]) ++ rest) :
    ∃ c', b.enter outer c = .ok (.behind outer, c') ∧ c'.rest = rest := by
  rw [encode_append, encode_closeChar, List.append_assoc] at h
  have hclose : c.skipBlanks.rest = b.closing :: rest :=
    rest_skipBlanks_of blanks h (isBlank_closing b)
  refine ⟨c.skipBlanks.advance, ?_, rest_advance hclose⟩
  simp [Bracket.enter, peek?_of hclose]

/-- **Behind an opening bracket** stands the first item. -/
theorem enter_item {gap label lead vs : List Char} (before : Blanks ws) (behind : Blanks gap)
    (isLabel : Label b label) (between : Blanks lead) (value : Wellformed .value vs)
    (h : c.rest = encode ws ++ (encode gap ++ (encode label ++ (encode lead ++
      (encode vs ++ rest))))) :
    ∃ ws' c', Blanks ws' ∧ b.enter outer c = .ok (.before (b :: outer), c') ∧
      c'.rest = encode ws' ++ (encode vs ++ rest) ∧ c'.rest.length ≤ c.rest.length := by
  cases isLabel with
  | list =>
    obtain ⟨byte, bytes, hbytes, hblank, hclose⟩ := value.start
    have hrest : c.skipBlanks.rest = encode vs ++ rest := by
      have hgap : c.rest = encode (ws ++ (gap ++ lead)) ++ (encode vs ++ rest) := by
        rw [h]
        simp
      rw [hbytes] at hgap ⊢
      exact rest_skipBlanks_of (before.append (behind.append between)) hgap hblank
    have hpeek : c.skipBlanks.peek? = some byte := peek?_of (by rw [hrest, hbytes]; rfl)
    refine ⟨[], c.skipBlanks, blanks_nil, ?_, hrest, ?_⟩
    · simp [Bracket.enter, hpeek, Bracket.closing, hclose, Bracket.item]
    · simp only [h, hrest, List.length_append]
      omega
  | @object cs ws' key blanks =>
    have hgap : c.rest = encode (ws ++ gap) ++ (encode (cs ++ (ws' ++ [':'])) ++
        (encode lead ++ (encode vs ++ rest))) := by
      rw [h]
      simp
    obtain ⟨bytes, hbytes⟩ := key.start
    have hrest : c.skipBlanks.rest = encode [] ++ (encode (cs ++ (ws' ++ [':'])) ++
        (encode lead ++ (encode vs ++ rest))) := by
      rw [encode_append cs, hbytes] at hgap ⊢
      exact rest_skipBlanks_of (before.append behind) hgap rfl
    obtain ⟨c', hskip, hrest'⟩ := skipKey_of key blanks_nil blanks hrest
    have hpeek : c.skipBlanks.peek? = some Ascii.quote := by
      rw [peek?, hrest, encode_append cs, hbytes]
      rfl
    have hclose : (Ascii.quote == Bracket.object.closing) = false := rfl
    refine ⟨lead, c', between, ?_, hrest', ?_⟩
    · simp [Bracket.enter, hpeek, hclose, Bracket.item, hskip]
    · simp only [h, hrest', List.length_append]
      omega

theorem leave_close (blanks : Blanks ws) (h : c.rest = encode (ws ++ [b.closeChar]) ++ rest) :
    ∃ c', b.leave outer c = .ok (.behind outer, c') ∧ c'.rest = rest := by
  rw [encode_append, encode_closeChar, List.append_assoc] at h
  have hclose : c.skipBlanks.rest = b.closing :: rest :=
    rest_skipBlanks_of blanks h (isBlank_closing b)
  refine ⟨c.skipBlanks.advance, ?_, rest_advance hclose⟩
  have hcomma : (b.closing == Ascii.comma) = false := by cases b <;> rfl
  simp [Bracket.leave, peek?_of hclose, hcomma]

/-- **Behind an item** a comma leads to the next one. -/
theorem leave_item {gap label : List Char} (before : Blanks ws) (behind : Blanks gap)
    (isLabel : Label b label)
    (h : c.rest = encode ws ++ (encode [','] ++ (encode gap ++ (encode label ++ rest)))) :
    ∃ ws' c', Blanks ws' ∧ b.leave outer c = .ok (.before (b :: outer), c') ∧
      c'.rest = encode ws' ++ rest ∧ c'.rest.length < c.rest.length := by
  have hcomma : c.skipBlanks.rest = Ascii.comma :: (encode gap ++ (encode label ++ rest)) :=
    rest_skipBlanks_of before h rfl
  have hgap := rest_advance hcomma
  obtain ⟨ws', c', hws', hitem, hrest, hle⟩ :
      ∃ ws' c', Blanks ws' ∧ b.item outer c.skipBlanks.advance = .ok (.before (b :: outer), c') ∧
        c'.rest = encode ws' ++ rest ∧ c'.rest.length ≤ c.skipBlanks.advance.rest.length :=
    item_of behind isLabel hgap
  refine ⟨ws', c', hws', ?_, hrest, ?_⟩
  · simp [Bracket.leave, peek?_of hcomma, hitem]
  · have hlength : c.skipBlanks.advance.rest.length < c.rest.length := by
      rw [hgap, h, encode_cons_ascii (by decide)]
      simp only [List.length_append, List.length_cons]
      omega
    exact Nat.lt_of_le_of_lt hle hlength

/-! ## Portions -/

/-- **The reader comes from one place to another.** -/
abbrev PassesOn (place : Place) (c : Cursor) (place' : Place) (rest : List UInt8) : Prop :=
  ComesTo (skipFrom · place) c (skipFrom · place') rest

/-- One step into a value. -/
theorem passesOn_into {opened : List Bracket} {place p : Place} {c₁ : Cursor}
    (step : skipInto opened c = .ok (place, c₁)) (shorter : c₁.rest.length < c.rest.length)
    (next : PassesOn place c₁ p rest) : PassesOn (.before opened) c p rest :=
  .step shorter (fun _ _ => by rw [skipFrom, step]) next

/-- One step behind an item. -/
theorem passesOn_leave {place p : Place} {c₁ : Cursor}
    (step : b.leave outer c = .ok (place, c₁)) (shorter : c₁.rest.length < c.rest.length)
    (next : PassesOn place c₁ p rest) : PassesOn (.behind (b :: outer)) c p rest :=
  .step shorter (fun _ _ => by rw [skipFrom, step]) next

/-- **What is claimed of a portion of a text**: a value is passed over, and what stands within a
bracket leads behind it. The first item is looked for by the step that opens the bracket. -/
def Passed : Portion → List Char → Prop
  | .value, vs => ∀ {c : Cursor} {ws : List Char} {tail : List UInt8} {opened : List Bracket},
    Blanks ws → c.rest = encode ws ++ (encode vs ++ tail) → Stops tail →
    PassesOn (.before opened) c (.behind opened) tail
  | .within b true, cs => ∀ {c : Cursor} {tail : List UInt8} {outer : List Bracket},
    c.rest = encode cs ++ tail → Stops tail →
    ∃ place c', b.enter outer c = .ok (place, c') ∧ c'.rest.length ≤ c.rest.length ∧
      PassesOn place c' (.behind outer) tail
  | .within b false, cs => ∀ {c : Cursor} {tail : List UInt8} {outer : List Bracket},
    c.rest = encode cs ++ tail → Stops tail → PassesOn (.behind (b :: outer)) c (.behind outer) tail

/-- A scalar is passed over in one step. -/
theorem passed_scalar (scalar : cs ∈ ["null".toList, "true".toList, "false".toList] ∨
    NumberText cs ∨ StringText cs) : Passed .value cs := by
  intro c ws tail opened blanks h stops
  have hvalue : Wellformed .value cs := by
    rcases scalar with mem | number | string
    · exact .word mem
    · exact .number number
    · exact .string string
  obtain ⟨byte, bytes, hbytes, hblank, -⟩ := hvalue.start
  have hrest : c.skipBlanks.rest = encode cs ++ tail := by
    rw [hbytes] at h ⊢
    exact rest_skipBlanks_of blanks h hblank
  obtain ⟨first, c', hpeek, hlist, hobject, hskip, hrest'⟩ := skipScalar_of scalar hrest stops
  have hinto : skipInto opened c = .ok (.behind opened, c') := by
    simp [skipInto, hpeek, hlist, hobject, hskip]
  refine passesOn_into hinto ?_ (ComesTo.here hrest')
  rw [h, hrest', hbytes]
  simp only [List.length_append, List.length_cons]
  omega

/-- **Every portion of a text is passed over**, by its structure. -/
theorem passed_of_wellformed {portion : Portion} (h : Wellformed portion cs) :
    Passed portion cs := by
  induction h with
  | word mem => exact passed_scalar (.inl mem)
  | number number => exact passed_scalar (.inr (.inl number))
  | string string => exact passed_scalar (.inr (.inr string))
  | @bracket b cs inner ih =>
    intro c ws tail opened blanks h stops
    have hstep : c.skipBlanks.rest = encode (b.openChar :: cs) ++ tail ∧
        skipInto opened c = b.enter opened c.skipBlanks.advance := by
      cases b
      · have hopen : c.skipBlanks.rest = Ascii.openBracket :: (encode cs ++ tail) :=
          rest_skipBlanks_of blanks h rfl
        exact ⟨hopen, by simp [skipInto, peek?_of hopen]⟩
      · have hopen : c.skipBlanks.rest = Ascii.openBrace :: (encode cs ++ tail) :=
          rest_skipBlanks_of blanks h rfl
        have hne : (Ascii.openBrace == Ascii.openBracket) = false := rfl
        exact ⟨hopen, by simp [skipInto, peek?_of hopen, hne]⟩
    obtain ⟨hopen, hinto⟩ := hstep
    rw [encode_openChar, List.cons_append] at hopen
    have hinner := rest_advance hopen
    obtain ⟨place, c', henter, hle, hpasses⟩ := ih hinner stops
    refine passesOn_into (hinto.trans henter) (Nat.lt_of_le_of_lt hle ?_) hpasses
    rw [hinner, h, encode_openChar]
    simp only [List.length_append, List.length_cons]
    omega
  | @close b first ws blanks =>
    cases first with
    | true =>
      intro c tail outer h stops
      obtain ⟨c', henter, hrest⟩ := enter_close blanks h
      refine ⟨.behind outer, c', henter, ?_, ComesTo.here hrest⟩
      rw [h, hrest, List.length_append]
      omega
    | false =>
      intro c tail outer h stops
      obtain ⟨c', hleave, hrest⟩ := leave_close blanks h
      refine passesOn_leave hleave ?_ (ComesTo.here hrest)
      rw [h, hrest, encode_append, encode_closeChar]
      simp only [List.length_append, List.length_singleton]
      omega
  | @item b first ws gap cs lead vs rest before behind label between value others ihValue ihRest =>
    have hvalue {c : Cursor} {ws : List Char} {tail : List UInt8} {outer : List Bracket}
        (blanks : Blanks ws) (h : c.rest = encode ws ++ (encode vs ++ (encode rest ++ tail)))
        (stops : Stops tail) : PassesOn (.before (b :: outer)) c (.behind outer) tail :=
      (ihValue blanks h others.stops).trans fun c' hrest => ihRest hrest stops
    cases first with
    | true =>
      intro c tail outer h stops
      have hitem : c.rest = encode ws ++ (encode gap ++ (encode cs ++ (encode lead ++
          (encode vs ++ (encode rest ++ tail))))) := by
        rw [h]
        simp only [comma, if_true, List.nil_append, encode_append, List.append_assoc]
      obtain ⟨ws', c', hws', henter, hrest, hle⟩ := enter_item before behind label between value
        hitem
      exact ⟨_, c', henter, hle, hvalue hws' hrest stops⟩
    | false =>
      intro c tail outer h stops
      have hitem : c.rest = encode ws ++ (encode [','] ++ (encode gap ++ (encode cs ++
          (encode lead ++ (encode vs ++ (encode rest ++ tail)))))) := by
        rw [h]
        simp only [comma, Bool.false_eq_true, if_false, encode_append, List.append_assoc]
      obtain ⟨ws', c', hws', hleave, hrest, hlt⟩ := leave_item before behind label hitem
      refine passesOn_leave hleave hlt (hvalue (hws'.append between) ?_ stops)
      rw [hrest, encode_append, List.append_assoc]

/-- **Every value is passed over.** -/
theorem skipValue_of {vs : List Char} (value : Wellformed .value vs) (blanks : Blanks ws)
    (h : c.rest = encode ws ++ (encode vs ++ tail)) (stops : Stops tail) :
    ∃ c', skipValue c = .ok c' ∧ c'.rest = tail := by
  have hpassed : Passed .value vs := passed_of_wellformed value
  have hpasses : PassesOn (.before []) c (.behind []) tail := hpassed blanks h stops
  obtain ⟨fuel, c', hrest, -, hskip⟩ := hpasses (Nat.le_refl _)
  refine ⟨c', hskip.trans ?_, hrest⟩
  cases fuel <;> rfl

end OrderDesk.Json
