import Mathlib.Data.List.TakeWhile
import OrderDesk.Proofs.Json.Cursor
import OrderDesk.Proofs.Text.Strict

/-!
# What a cursor has passed over

If a reader goes on, then what it has passed over is what it looked for: blanks, the marks between
tokens, the letters of a word. All is told by the bytes that were still to be read before and after.

What is merely skipped is never decoded, so it need not be the bytes of any text. Its bytes are then
looked at one by one, each as the character with its number.

## Main definitions

* `latin`: bytes as characters, one each

## Main results

* `exists_of_bind`: readers one after the other
* `exists_blanks`, `of_colon`, `of_word`: what is passed over between and within tokens
* `of_objectHasNext`, `of_listHasNext`, `of_closeObject`, `of_closeList`: the marks of brackets
-/

namespace OrderDesk.Json

open Text Text.Utf8

variable {c c' : Cursor} {byte : UInt8} {bytes : List UInt8} {cs ws : List Char} {first : Bool}

/-- **A step that went well** in front of others. -/
theorem exists_of_bind {α β ε : Type} {step : Except ε α} {next : α → Except ε β} {b : β}
    (h : step >>= next = .ok b) : ∃ a, step = .ok a ∧ next a = .ok b := by
  cases step with
  | error e => cases h
  | ok a => exact ⟨a, rfl, h⟩

/-! ## Bytes as characters -/

/-- **Bytes as characters**, each with the number of its byte. -/
def latin (bytes : List UInt8) : List Char :=
  bytes.map fun byte => Char.ofNat byte.toNat

@[simp] theorem latin_append (bytes more : List UInt8) :
    latin (bytes ++ more) = latin bytes ++ latin more :=
  List.map_append

theorem latin_cons (byte : UInt8) (bytes : List UInt8) :
    latin (byte :: bytes) = Char.ofNat byte.toNat :: latin bytes :=
  List.map_cons

theorem toNat_ofNat_byte (byte : UInt8) : (Char.ofNat byte.toNat).toNat = byte.toNat :=
  toNat_ofNat (.inl (Nat.lt_trans byte.toNat_lt (by decide)))

/-- The bytes of ASCII characters are these characters. -/
theorem latin_encode (ascii : ∀ ch ∈ cs, ch.toNat < 128) : latin (encode cs) = cs := by
  induction cs with
  | nil => rfl
  | cons ch cs ih =>
    obtain ⟨hch, hcs⟩ := List.forall_mem_cons.mp ascii
    have hnat : (UInt8.ofNat ch.toNat).toNat = ch.toNat := by
      simp
      omega
    rw [encode_cons_ascii hch, latin_cons, hnat, Char.ofNat_toNat, ih hcs]

/-- ASCII bytes are those of their characters. -/
theorem encode_latin (ascii : ∀ byte ∈ bytes, byte.toNat < 128) : encode (latin bytes) = bytes := by
  induction bytes with
  | nil => rfl
  | cons byte bytes ih =>
    obtain ⟨hbyte, hbytes⟩ := List.forall_mem_cons.mp ascii
    rw [latin_cons, encode_cons_ascii (by rw [toNat_ofNat_byte]; exact hbyte), toNat_ofNat_byte,
      UInt8.ofNat_toNat, ih hbytes]

theorem Blanks.ascii (blanks : Blanks ws) : ∀ ch ∈ ws, ch.toNat < 128 := by
  intro ch hch
  rcases blanks ch hch with rfl | rfl | rfl | rfl <;> decide

theorem Blanks.latin_encode (blanks : Blanks ws) : latin (encode ws) = ws :=
  Json.latin_encode blanks.ascii

namespace Cursor

/-! ## One byte -/

theorem rest_of_peek? (h : c.peek? = some byte) : c.rest = byte :: c.advance.rest := by
  obtain ⟨bytes, hrest⟩ := List.head?_eq_some_iff.mp h
  rw [rest_advance hrest, hrest]

theorem rest_of_looksAt (h : c.looksAt byte = true) : c.rest = byte :: c.advance.rest :=
  rest_of_peek? (beq_iff_eq.mp h)

/-! ## Blanks -/

theorem blank_of_isBlank (h : isBlank byte = true) :
    Blanks [Char.ofNat byte.toNat] ∧ byte.toNat < 128 := by
  simp only [isBlank, Bool.or_eq_true, beq_iff_eq] at h
  rcases h with ((rfl | rfl) | rfl) | rfl <;> exact ⟨by simp [Blanks]; decide, by decide⟩

/-- **What is passed over between tokens** is blank. -/
theorem exists_blanks (c : Cursor) :
    ∃ ws, Blanks ws ∧ c.rest = encode ws ++ c.skipBlanks.rest := by
  refine ⟨latin (c.rest.takeWhile isBlank), ?_, ?_⟩
  · intro ch hch
    obtain ⟨byte, hbyte, rfl⟩ := List.mem_map.mp hch
    exact (blank_of_isBlank (List.mem_takeWhile_imp hbyte)).1 _ (List.mem_singleton_self _)
  · rw [encode_latin fun byte hbyte => (blank_of_isBlank (List.mem_takeWhile_imp hbyte)).2,
      skipBlanks, rest_skipBlanksFrom, List.takeWhile_append_dropWhile]

/-- Behind blanks, the next byte. -/
theorem of_peek?_skipBlanks (h : c.skipBlanks.peek? = some byte) :
    ∃ ws, Blanks ws ∧ c.rest = encode ws ++ byte :: c.skipBlanks.advance.rest := by
  obtain ⟨ws, hws, hrest⟩ := c.exists_blanks
  exact ⟨ws, hws, hrest.trans (by rw [← rest_of_peek? h])⟩

/-! ## Words and marks -/

/-- **A word that is passed over** has its letters. -/
theorem of_word {letters : List UInt8} (h : c.word letters = .ok c') :
    c.rest = letters ++ c'.rest := by
  induction letters generalizing c with
  | nil =>
    cases h
    rfl
  | cons letter letters ih =>
    rw [word] at h
    split at h
    · cases h
    · rename_i byte hpeek
      split at h
      · rename_i heq
        rw [rest_of_peek? hpeek, ih h, beq_iff_eq.mp heq]
        rfl
      · cases h

theorem of_colon (h : c.colon = .ok c') :
    ∃ ws, Blanks ws ∧ c.rest = encode ws ++ Ascii.colon :: c'.rest := by
  unfold colon at h
  simp only at h
  split at h
  · cases h
  · rename_i byte hpeek
    split at h
    · rename_i heq
      cases h
      exact beq_iff_eq.mp heq ▸ of_peek?_skipBlanks hpeek
    · cases h

/-- **An object that goes on**, behind a comma unless with its first key. -/
theorem of_objectHasNext (h : c.objectHasNext first = .ok (true, c')) :
    ∃ ws gap, Blanks ws ∧ Blanks gap ∧ c'.rest = Ascii.quote :: c'.advance.rest ∧
      c.rest = encode ws ++ (encode (comma first) ++ (encode gap ++ c'.rest)) := by
  unfold objectHasNext at h
  simp only at h
  split at h
  · cases h
  · rename_i byte hpeek
    split at h
    · cases h
    · cases first with
      | true =>
        simp only [if_true] at h
        split at h
        · rename_i hquote
          cases h
          obtain ⟨ws, hws, hrest⟩ := c.exists_blanks
          exact ⟨ws, [], hws, blanks_nil, rest_of_peek? (beq_iff_eq.mp hquote ▸ hpeek), hrest⟩
        · cases h
      | false =>
        simp only [Bool.false_eq_true, if_false] at h
        split at h
        · rename_i hcomma
          obtain ⟨ws, hws, hrest⟩ := of_peek?_skipBlanks hpeek
          obtain ⟨gap, hgap, hbehind⟩ := c.skipBlanks.advance.exists_blanks
          split at h
          · cases h
          · rename_i byte' hpeek'
            split at h
            · rename_i hquote
              cases h
              refine ⟨ws, gap, hws, hgap, rest_of_peek? (beq_iff_eq.mp hquote ▸ hpeek'), ?_⟩
              rw [hrest, beq_iff_eq.mp hcomma, hbehind]
              rfl
            · split at h <;> cases h
        · cases h

/-- **An object that ends.** -/
theorem of_objectHasNext_false (h : c.objectHasNext first = .ok (false, c')) :
    ∃ ws, Blanks ws ∧ c.rest = encode ws ++ c'.rest := by
  unfold objectHasNext at h
  simp only at h
  split at h
  · cases h
  · split at h
    · cases h
      exact c.exists_blanks
    · cases first with
      | true =>
        simp only [if_true] at h
        split at h <;> cases h
      | false =>
        simp only [Bool.false_eq_true, if_false] at h
        split at h
        · split at h
          · cases h
          · split at h
            · cases h
            · split at h <;> cases h
        · cases h

/-- **A list that goes on**, behind a comma unless with its first item. -/
theorem of_listHasNext (h : c.listHasNext first = .ok (true, c')) :
    ∃ ws gap, Blanks ws ∧ Blanks gap ∧
      c.rest = encode ws ++ (encode (comma first) ++ (encode gap ++ c'.rest)) := by
  unfold listHasNext at h
  simp only at h
  split at h
  · cases h
  · rename_i byte hpeek
    split at h
    · cases h
    · cases first with
      | true =>
        simp only [if_true] at h
        cases h
        obtain ⟨ws, hws, hrest⟩ := c.exists_blanks
        exact ⟨ws, [], hws, blanks_nil, hrest⟩
      | false =>
        simp only [Bool.false_eq_true, if_false] at h
        split at h
        · rename_i hcomma
          obtain ⟨ws, hws, hrest⟩ := of_peek?_skipBlanks hpeek
          obtain ⟨gap, hgap, hbehind⟩ := c.skipBlanks.advance.exists_blanks
          split at h
          · cases h
          · split at h
            · cases h
            · cases h
              refine ⟨ws, gap, hws, hgap, ?_⟩
              rw [hrest, beq_iff_eq.mp hcomma, hbehind]
              rfl
        · cases h

theorem of_closeObject (h : c.closeObject = (.ok (), c')) :
    ∃ ws, Blanks ws ∧ c.rest = encode ws ++ Ascii.closeBrace :: c'.rest := by
  unfold closeObject at h
  simp only at h
  split at h
  · cases h
  · rename_i byte hpeek
    split at h
    · rename_i hbrace
      cases h
      exact beq_iff_eq.mp hbrace ▸ of_peek?_skipBlanks hpeek
    · split at h <;> cases h

theorem of_closeList (h : c.closeList = (.ok (), c')) :
    ∃ ws, Blanks ws ∧ c.rest = encode ws ++ Ascii.closeBracket :: c'.rest := by
  unfold closeList at h
  simp only at h
  split at h
  · cases h
  · rename_i byte hpeek
    split at h
    · rename_i hbracket
      cases h
      exact beq_iff_eq.mp hbracket ▸ of_peek?_skipBlanks hpeek
    · split at h
      · split at h <;> cases h
      · cases h

/-- **A container that is settled** has an outcome and was closed. -/
theorem of_settle {α : Type} {outcome : Except Cause α} {closing : Except Error Unit × Cursor}
    {a : α} (h : settle outcome closing = .ok (a, c')) :
    outcome = .ok a ∧ closing = (.ok (), c') := by
  unfold settle at h
  split at h
  · cases h
  · cases h
  · cases h
    exact ⟨rfl, rfl⟩

end Cursor

end OrderDesk.Json
