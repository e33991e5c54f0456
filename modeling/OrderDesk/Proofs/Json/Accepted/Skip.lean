import OrderDesk.Proofs.Json.Accepted.Number
import OrderDesk.Proofs.Json.Accepted.Text

/-!
# Values that have been passed over

Whatever has been passed over is a well-formed value, however deep its brackets are nested. The
reader has no recursion of its own: the brackets that are open tell what has still to come, and each
step takes a part of it.

The strings of such a value are never decoded, so the value is told byte by byte, each byte as the
character with its number.

## Main definitions

* `Closes`: what closes the brackets that are open, the innermost first
* `Place.Awaits`: what is still to come at a place

## Main results

* `of_skipScalar`: words, numbers and strings
* `of_item`, `of_enter`, `of_leave`, `of_skipInto`: what one step takes
* `of_skipFrom`: what a whole run takes
* `of_skipValue`: a value that has been passed over
-/

namespace OrderDesk.Json

open Text Text.Utf8 Cursor

variable {c c' : Cursor} {b : Bracket} {outer opened : List Bracket} {place : Place}
  {byte : UInt8} {bytes tail : List UInt8} {cs ws : List Char}

/-- The bytes of ASCII characters are told by them. -/
theorem eq_encode_of_latin (h : latin bytes = cs) (ascii : ∀ ch ∈ cs, ch.toNat < 128) :
    bytes = encode cs := by
  subst h
  refine (encode_latin fun byte hbyte => ?_).symm
  have hch := ascii _ (List.mem_map_of_mem hbyte)
  rwa [toNat_ofNat_byte] at hch

/-! ## Scalars -/

/-- **A word, a number or a string** that has been passed over. -/
theorem of_skipScalar (hpeek : c.peek? = some byte) (h : skipScalar byte c = .ok c') :
    ∃ raw, c.rest = raw ++ c'.rest ∧ Wellformed .value (latin raw) := by
  have hrest := rest_of_peek? hpeek
  unfold skipScalar at h
  have hword {letters : List UInt8} (h : c.advance.word letters = .ok c')
      (mem : latin (byte :: letters) ∈ ["null".toList, "true".toList, "false".toList]) :
      ∃ raw, c.rest = raw ++ c'.rest ∧ Wellformed .value (latin raw) := by
    refine ⟨byte :: letters, ?_, .word mem⟩
    rw [hrest, of_word h]
    rfl
  split at h
  · rename_i hn
    exact hword h (beq_iff_eq.mp hn ▸ by decide)
  split at h
  · rename_i ht
    exact hword h (beq_iff_eq.mp ht ▸ by decide)
  split at h
  · rename_i hf
    exact hword h (beq_iff_eq.mp hf ▸ by decide)
  split at h
  · rename_i hminus
    obtain ⟨raw, hraw, hnumber⟩ := of_skipNumber h
    refine ⟨byte :: raw, by rw [hrest, hraw, List.cons_append], .number ?_⟩
    rw [latin_cons, beq_iff_eq.mp hminus]
    exact hnumber ['-'] (.inr rfl)
  split at h
  · obtain ⟨raw, hraw, hnumber⟩ := of_skipNumber h
    exact ⟨raw, hraw, .number (hnumber [] (.inl rfl))⟩
  split at h
  · rename_i hquote
    obtain ⟨raw, hstring, hraw⟩ := of_skipText (beq_iff_eq.mp hquote ▸ hrest) h
    exact ⟨raw, hraw, .string hstring⟩
  · cases h

/-! ## What is still to come -/

/-- **What closes the brackets that are open**, behind an item of the innermost. -/
inductive Closes : List Bracket → List Char → Prop
  | nil : Closes [] []
  | cons {b : Bracket} {outer : List Bracket} {cs rest : List Char}
    (inner : Wellformed (.within b false) cs) (others : Closes outer rest) :
    Closes (b :: outer) (cs ++ rest)

/-- What stands within a bracket, and then what closes those around it. -/
def Inside (b : Bracket) (first : Bool) (outer : List Bracket) (cs : List Char) : Prop :=
  ∃ inner rest, Wellformed (.within b first) inner ∧ Closes outer rest ∧ cs = inner ++ rest

/-- **What is still to come at a place**: in front of a value the value, and then what closes the
brackets that are open. -/
def Place.Awaits : Place → List Char → Prop
  | .behind opened, cs => Closes opened cs
  | .before opened, cs =>
    ∃ ws vs rest, Blanks ws ∧ Wellformed .value vs ∧ Closes opened rest ∧ cs = ws ++ (vs ++ rest)

theorem Inside.close {first : Bool} (blanks : Blanks ws) (others : Closes outer cs) :
    Inside b first outer (ws ++ b.closeChar :: cs) :=
  ⟨ws ++ [b.closeChar], cs, .close blanks, others, by simp⟩

theorem Inside.closes (h : Inside b false outer cs) : Closes (b :: outer) cs := by
  obtain ⟨inner, rest, hinner, others, rfl⟩ := h
  exact .cons hinner others

theorem Inside.awaits (h : Inside b true outer cs) (blanks : Blanks ws) :
    (Place.before outer).Awaits (ws ++ b.openChar :: cs) := by
  obtain ⟨inner, rest, hinner, others, rfl⟩ := h
  exact ⟨ws, b.openChar :: inner, rest, blanks, .bracket hinner, others, rfl⟩

theorem latin_closing (b : Bracket) : latin [b.closing] = [b.closeChar] := by
  cases b <;> rfl

/-- Blanks and a closing bracket, and then what closes those around it. -/
theorem of_closing (hpeek : c.skipBlanks.peek? = some b.closing)
    (hrest : c.skipBlanks.advance.rest = bytes ++ tail) (closes : Closes outer (latin bytes)) :
    ∃ raw, c.rest = raw ++ tail ∧ ∀ first, Inside b first outer (latin raw) := by
  obtain ⟨ws, hws, hblanks⟩ := of_peek?_skipBlanks hpeek
  refine ⟨encode ws ++ ([b.closing] ++ bytes), ?_, fun first => ?_⟩
  · rw [hblanks, hrest]
    simp only [List.append_assoc, List.cons_append, List.nil_append]
  · rw [latin_append, latin_append, hws.latin_encode, latin_closing]
    exact .close hws closes

/-! ## Steps -/

/-- **A key that has been passed over** with its colon. -/
theorem of_skipKey (h : skipKey c = .ok c') :
    ∃ ws key, Blanks ws ∧ Label .object (latin key) ∧ c.rest = encode ws ++ (key ++ c'.rest) := by
  obtain ⟨ws, hws, hblanks⟩ := c.exists_blanks
  unfold skipKey at h
  simp only at h
  split at h
  · cases h
  · rename_i byte hpeek
    split at h
    · rename_i hquote
      split at h
      · cases h
      · rename_i c₁ hskip
        obtain ⟨raw, hstring, hraw⟩ :=
          of_skipText (rest_of_peek? (beq_iff_eq.mp hquote ▸ hpeek)) hskip
        obtain ⟨gap, hgap, hcolon⟩ := of_colon h
        refine ⟨ws, raw ++ (encode gap ++ [Ascii.colon]), hws, ?_, ?_⟩
        · rw [latin_append, latin_append, hgap.latin_encode]
          exact .object hstring hgap
        · rw [hblanks, hraw, hcolon]
          simp only [List.append_assoc, List.singleton_append]
    · cases h

/-- **In front of the value of an item** its label has been passed over. -/
theorem of_item (h : b.item outer c = .ok (place, c')) (hrest : c'.rest = bytes ++ tail)
    (awaits : place.Awaits (latin bytes)) :
    ∃ raw, c.rest = raw ++ tail ∧ ∀ first ws, Blanks ws →
      Inside b first outer (ws ++ (comma first ++ latin raw)) := by
  obtain ⟨gap, label, rfl, hgap, hlabel, hbehind⟩ : ∃ gap label, place = .before (b :: outer) ∧
      Blanks gap ∧ Label b (latin label) ∧ c.rest = encode gap ++ (label ++ c'.rest) := by
    cases b with
    | list =>
      cases h
      exact ⟨[], [], rfl, blanks_nil, .list, rfl⟩
    | object =>
      unfold Bracket.item at h
      simp only at h
      split at h
      · cases h
      · rename_i c₁ hkey
        cases h
        obtain ⟨ws, key, hws, hlabel, hbehind⟩ := of_skipKey hkey
        exact ⟨ws, key, rfl, hws, hlabel, hbehind⟩
  obtain ⟨lead, vs, rest, hlead, hvalue, hcloses, hbytes⟩ := awaits
  obtain _ | ⟨hinner, others⟩ := hcloses
  refine ⟨encode gap ++ (label ++ bytes), ?_, fun first ws hws => ?_⟩
  · rw [hbehind, hrest, List.append_assoc, List.append_assoc]
  · refine ⟨_, _, .item hws hgap hlabel hlead hvalue hinner, others, ?_⟩
    rw [latin_append, latin_append, hgap.latin_encode, hbytes]
    simp only [List.append_assoc]

/-- **Behind an opening bracket** stands the closing one or the first item. -/
theorem of_enter (h : b.enter outer c = .ok (place, c')) (hrest : c'.rest = bytes ++ tail)
    (awaits : place.Awaits (latin bytes)) :
    ∃ raw, c.rest = raw ++ tail ∧ Inside b true outer (latin raw) := by
  obtain ⟨ws, hws, hblanks⟩ := c.exists_blanks
  unfold Bracket.enter at h
  simp only at h
  split at h
  · cases h
  · rename_i byte hpeek
    split at h
    · rename_i hclose
      cases h
      obtain ⟨raw, hraw, hinside⟩ := of_closing (beq_iff_eq.mp hclose ▸ hpeek) hrest awaits
      exact ⟨raw, hraw, hinside true⟩
    · obtain ⟨raw, hraw, hinside⟩ := of_item h hrest awaits
      refine ⟨encode ws ++ raw, by rw [hblanks, hraw, List.append_assoc], ?_⟩
      rw [latin_append, hws.latin_encode]
      exact hinside true ws hws

/-- **Behind an item** stands the closing bracket or a comma and the next item. -/
theorem of_leave (h : b.leave outer c = .ok (place, c')) (hrest : c'.rest = bytes ++ tail)
    (awaits : place.Awaits (latin bytes)) :
    ∃ raw, c.rest = raw ++ tail ∧ Closes (b :: outer) (latin raw) := by
  obtain ⟨ws, hws, hblanks⟩ := c.exists_blanks
  unfold Bracket.leave at h
  simp only at h
  split at h
  · cases h
  · rename_i byte hpeek
    split at h
    · rename_i hcomma
      obtain ⟨raw, hraw, hinside⟩ := of_item h hrest awaits
      refine ⟨encode ws ++ ([Ascii.comma] ++ raw), ?_, ?_⟩
      · rw [hblanks, rest_of_peek? hpeek, hraw, beq_iff_eq.mp hcomma]
        simp only [List.append_assoc, List.cons_append, List.nil_append]
      · rw [latin_append, latin_append, hws.latin_encode]
        exact (hinside false ws hws).closes
    · split at h
      · rename_i hclose
        cases h
        obtain ⟨raw, hraw, hinside⟩ := of_closing (beq_iff_eq.mp hclose ▸ hpeek) hrest awaits
        exact ⟨raw, hraw, (hinside false).closes⟩
      · cases h

/-- **In front of a value** stands a bracket or a scalar. -/
theorem of_skipInto (h : skipInto opened c = .ok (place, c')) (hrest : c'.rest = bytes ++ tail)
    (awaits : place.Awaits (latin bytes)) :
    ∃ raw, c.rest = raw ++ tail ∧ (Place.before opened).Awaits (latin raw) := by
  obtain ⟨ws, hws, hblanks⟩ := c.exists_blanks
  unfold skipInto at h
  simp only at h
  split at h
  · cases h
  · rename_i byte hpeek
    have hbyte := rest_of_peek? hpeek
    have hbracket (b : Bracket) (hopen : latin [byte] = [b.openChar])
        (h : b.enter opened c.skipBlanks.advance = .ok (place, c')) :
        ∃ raw, c.rest = raw ++ tail ∧ (Place.before opened).Awaits (latin raw) := by
      obtain ⟨raw, hraw, hinside⟩ := of_enter h hrest awaits
      refine ⟨encode ws ++ ([byte] ++ raw), ?_, ?_⟩
      · rw [hblanks, hbyte, hraw]
        simp only [List.append_assoc, List.cons_append, List.nil_append]
      · rw [latin_append, latin_append, hws.latin_encode, hopen]
        exact hinside.awaits hws
    split at h
    · rename_i hlist
      exact hbracket .list (beq_iff_eq.mp hlist ▸ rfl) h
    · split at h
      · rename_i hobject
        exact hbracket .object (beq_iff_eq.mp hobject ▸ rfl) h
      · split at h
        · cases h
        · rename_i c₁ hscalar
          cases h
          obtain ⟨raw, hraw, hvalue⟩ := of_skipScalar hpeek hscalar
          refine ⟨encode ws ++ (raw ++ bytes), ?_, ws, _, _, hws, hvalue, awaits, ?_⟩
          · rw [hblanks, hraw, hrest]
            simp only [List.append_assoc]
          · rw [latin_append, latin_append, hws.latin_encode]

/-! ## Whole runs -/

/-- **What a whole run takes** is what was still to come where it began. -/
theorem of_skipFrom {fuel : List UInt8} (h : skipFrom fuel place c = .ok c') :
    ∃ raw, c.rest = raw ++ c'.rest ∧ place.Awaits (latin raw) := by
  induction fuel generalizing place c with
  | nil =>
    cases place with
    | before opened => cases h
    | behind opened =>
      cases opened with
      | nil =>
        cases h
        exact ⟨[], rfl, .nil⟩
      | cons b outer => cases h
  | cons step fuel ih =>
    cases place with
    | before opened =>
      rw [skipFrom] at h
      split at h
      · cases h
      · rename_i place c₁ hstep
        obtain ⟨bytes, hbytes, awaits⟩ := ih h
        exact of_skipInto hstep hbytes awaits
    | behind opened =>
      cases opened with
      | nil =>
        cases h
        exact ⟨[], rfl, .nil⟩
      | cons b outer =>
        rw [skipFrom] at h
        split at h
        · cases h
        · rename_i place c₁ hstep
          obtain ⟨bytes, hbytes, awaits⟩ := ih h
          exact of_leave hstep hbytes awaits

/-- **A value that has been passed over** is well-formed, byte by byte. -/
theorem of_skipValue (h : skipValue c = .ok c') :
    ∃ ws raw, Blanks ws ∧ Wellformed .value (latin raw) ∧
      c.rest = encode ws ++ (raw ++ c'.rest) := by
  obtain ⟨raw, hraw, awaits⟩ := of_skipFrom h
  obtain ⟨ws, vs, rest, hws, hvalue, hcloses, hlatin⟩ := awaits
  cases hcloses
  rw [List.append_nil] at hlatin
  obtain ⟨blanks, value, rfl, hblanks, rfl⟩ := List.map_eq_append_iff.mp hlatin
  refine ⟨ws, value, hws, hvalue, ?_⟩
  rw [hraw, eq_encode_of_latin hblanks hws.ascii, List.append_assoc]

end OrderDesk.Json
