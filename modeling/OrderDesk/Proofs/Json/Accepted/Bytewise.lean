import OrderDesk.Proofs.Json.Accepted.Skip
import OrderDesk.Proofs.Json.Skip

/-!
# Values that are told byte by byte

What is well-formed byte by byte is well-formed as a text, if its bytes are those of a text. Only
strings may hold characters of more than one byte, and the bytes of such a character all stand for
themselves. The other way round, what is well-formed as a text is passed over, and so it is
well-formed byte by byte.

## Main definitions

* `Bytewise`: what is so byte by byte is so as a text, wherever in a text it stands
* `PassedOver`: a value that has been passed over

## Main results

* `bytewise_of_wellformed`: every portion of a text, by its structure
* `passedOver_encode`: a text is passed over exactly if it is well-formed
-/

namespace OrderDesk.Json

open Text Text.Utf8

variable {cs ds text : List Char} {raw tail others : List UInt8} {Q R : List Char → Prop}

/-- **What is so byte by byte is so as a text**, wherever in a text it stands. -/
def Bytewise (Q : List Char → Prop) (cs : List Char) : Prop :=
  ∀ ⦃text : List Char⦄ ⦃raw tail : List UInt8⦄, latin raw = cs → encode text = raw ++ tail →
    ∃ front rest, text = front ++ rest ∧ Q front ∧ raw = encode front ∧ tail = encode rest

/-- **The bytes of a text begin with those of another one** only if the text does. -/
theorem append_of_encode (h : encode text = encode cs ++ tail) :
    ∃ rest, text = cs ++ rest ∧ tail = encode rest := by
  induction cs generalizing text with
  | nil => exact ⟨text, rfl, h.symm⟩
  | cons ch cs ih =>
    rw [encode_cons, List.append_assoc] at h
    obtain ⟨others, rfl, hothers⟩ := cons_eq_of_encode h
    obtain ⟨rest, rfl, hrest⟩ := ih hothers.symm
    exact ⟨rest, rfl, hrest⟩

namespace Bytewise

theorem mono (h : Bytewise Q cs) (imp : ∀ ds, Q ds → R ds) : Bytewise R cs := by
  intro text raw tail hlatin hencode
  obtain ⟨front, rest, htext, hfront, hbytes⟩ := h hlatin hencode
  exact ⟨front, rest, htext, imp front hfront, hbytes⟩

/-- ASCII characters are told by their bytes. -/
theorem ascii (ascii : ∀ ch ∈ cs, ch.toNat < 128) (q : Q cs) : Bytewise Q cs := by
  intro text raw tail hlatin hencode
  obtain rfl := eq_encode_of_latin hlatin ascii
  obtain ⟨rest, htext, htail⟩ := append_of_encode hencode
  exact ⟨cs, rest, htext, q, rfl, htail⟩

/-- One portion behind another. -/
theorem append (h : Bytewise R ds) (next : ∀ xs, R xs → Bytewise (fun ys => Q (xs ++ ys)) cs) :
    Bytewise Q (ds ++ cs) := by
  intro text raw tail hlatin hencode
  obtain ⟨fore, aft, rfl, hfore, haft⟩ := List.map_eq_append_iff.mp hlatin
  rw [List.append_assoc] at hencode
  obtain ⟨front, more, rfl, hfront, rfl, hmore⟩ := h hfore hencode
  obtain ⟨behind, rest, rfl, hbehind, rfl, htail⟩ := next front hfront haft hmore.symm
  refine ⟨front ++ behind, rest, ?_, hbehind, (encode_append _ _).symm, htail⟩
  rw [List.append_assoc]

theorem ascii_append (ascii : ∀ ch ∈ ds, ch.toNat < 128)
    (h : Bytewise (fun ys => Q (ds ++ ys)) cs) : Bytewise Q (ds ++ cs) :=
  (Bytewise.ascii ascii rfl : Bytewise (· = ds) ds).append fun _ hxs => hxs ▸ h

end Bytewise

theorem ascii_of_all (h : cs.all (fun ch => ch.toNat < 128) = true) :
    ∀ ch ∈ cs, ch.toNat < 128 :=
  fun ch hch => of_decide_eq_true (List.all_eq_true.mp h ch hch)

/-! ## Strings -/

theorem PlainByte.of_plain {byte : UInt8} (plain : Plain (Char.ofNat byte.toNat)) :
    PlainByte byte where
  ne_quote := by
    rintro rfl
    exact plain.ne_quote rfl
  ne_backslash := by
    rintro rfl
    exact plain.ne_backslash rfl
  printable := by
    have hprintable := plain.printable
    rw [toNat_ofNat_byte] at hprintable
    exact UInt8.not_lt.mpr (UInt8.le_iff_toNat_le.mpr hprintable)

/-- **What stands in front of a closing quote** is so as a text, from within a character on. -/
def UntilQuote (cs : List Char) : Prop :=
  ∀ ⦃text : List Char⦄ ⦃others raw tail : List UInt8⦄, latin raw = cs →
    (∀ byte ∈ others, isContinuation byte = true) →
    others ++ encode text = raw ++ Ascii.quote :: tail →
    ∃ body rest, text = body ++ rest ∧ Unquoted body ∧ raw = others ++ encode body ∧
      encode rest = Ascii.quote :: tail

/-- No character is continued by a byte that begins one. -/
theorem eq_nil_of_append {byte : UInt8} {bytes more : List UInt8}
    (continues : ∀ byte ∈ others, isContinuation byte = true)
    (h : others ++ bytes = byte :: more) (begins : isContinuation byte = false) : others = [] := by
  cases others with
  | nil => rfl
  | cons first others =>
    obtain ⟨rfl, -⟩ := List.cons.inj h
    have hfirst := continues _ (List.mem_cons_self ..)
    rw [begins] at hfirst
    cases hfirst

/-- An escape is no part of a character. -/
theorem UntilQuote.escape {form : List Char} (h : UntilQuote cs)
    (ascii : ∀ ch ∈ '\\' :: form, ch.toNat < 128)
    (unquoted : ∀ body, Unquoted body → Unquoted ('\\' :: form ++ body)) :
    UntilQuote ('\\' :: form ++ cs) := by
  intro text others raw tail hlatin continues hencode
  obtain ⟨fore, aft, rfl, hfore, haft⟩ := List.map_eq_append_iff.mp hlatin
  obtain rfl := eq_encode_of_latin hfore ascii
  have hback : encode ('\\' :: form) = Ascii.backslash :: encode form :=
    encode_cons_ascii (by decide) form
  have hothers : others = [] := by
    rw [hback] at hencode
    exact eq_nil_of_append continues hencode (by decide)
  subst hothers
  rw [List.nil_append, List.append_assoc] at hencode
  obtain ⟨text, rfl, hbehind⟩ := append_of_encode hencode
  obtain ⟨body, rest, rfl, hbody, rfl, hrest⟩ := h haft continues hbehind.symm
  refine ⟨_, rest, ?_, unquoted body hbody, (encode_append _ _).symm, hrest⟩
  rw [List.append_assoc]

/-- **A byte that stands for itself** is a character or a part of one. -/
theorem UntilQuote.plain {ch : Char} (h : UntilQuote cs) (plain : Plain ch) :
    UntilQuote (ch :: cs) := by
  intro text others raw tail hlatin continues hencode
  obtain ⟨byte, raw, rfl, rfl, hraw⟩ := List.map_eq_cons_iff.mp hlatin
  cases others with
  | cons first others =>
    obtain ⟨rfl, hbehind⟩ := List.cons.inj hencode
    obtain ⟨-, hothers⟩ := List.forall_mem_cons.mp continues
    obtain ⟨body, rest, rfl, hbody, rfl, hrest⟩ := h hraw hothers hbehind
    exact ⟨body, rest, rfl, hbody, rfl, hrest⟩
  | nil =>
    cases text with
    | nil => cases hencode
    | cons ch text =>
      obtain ⟨first, others, hchar, -, hothers⟩ := encodeChar_cons ch
      rw [List.nil_append, encode_cons, hchar] at hencode
      obtain ⟨rfl, hbehind⟩ := List.cons.inj hencode
      obtain ⟨body, rest, rfl, hbody, rfl, hrest⟩ := h hraw hothers hbehind
      refine ⟨ch :: body, rest, rfl, ?_, ?_, hrest⟩
      · exact .plain (.of_byte (.of_plain plain) hchar) hbody
      · rw [encode_cons, hchar]
        rfl

theorem shortEscapes_ascii {letter ch : Char} (mem : (letter, ch) ∈ shortEscapes) :
    letter.toNat < 128 := by
  have hall : shortEscapes.all (fun pair => pair.1.toNat < 128) = true := rfl
  exact of_decide_eq_true (List.all_eq_true.mp hall _ mem)

theorem untilQuote_of_unquoted (h : Unquoted cs) : UntilQuote cs := by
  induction h with
  | nil =>
    intro text others raw tail hlatin continues hencode
    obtain rfl := List.map_eq_nil_iff.mp hlatin
    obtain rfl := eq_nil_of_append continues hencode (by decide)
    exact ⟨[], text, rfl, .nil, rfl, hencode⟩
  | plain plain tail ih => exact ih.plain plain
  | @short letter ch cs mem tail ih =>
    have hascii : ∀ ch ∈ ['\\', letter], ch.toNat < 128 := by
      simp only [List.forall_mem_cons]
      exact ⟨by decide, shortEscapes_ascii mem, by simp⟩
    exact ih.escape hascii fun body hbody => .short mem hbody
  | @number ds cs n digits tail ih =>
    have hascii : ∀ ch ∈ '\\' :: 'u' :: ds, ch.toNat < 128 := by
      simp only [List.forall_mem_cons]
      exact ⟨by decide, by decide, digits.ascii⟩
    exact ih.escape hascii fun body hbody => .number digits hbody

theorem bytewise_string (h : StringText cs) : Bytewise StringText cs := by
  obtain @⟨body, unquoted⟩ := h
  have hquote : ∀ ch ∈ ['"'], ch.toNat < 128 := ascii_of_all rfl
  refine Bytewise.ascii_append hquote ?_
  intro text raw tail hlatin hencode
  obtain ⟨fore, aft, rfl, hfore, haft⟩ := List.map_eq_append_iff.mp hlatin
  obtain rfl := eq_encode_of_latin haft hquote
  rw [List.append_assoc] at hencode
  obtain ⟨body, rest, rfl, hbody, rfl, hrest⟩ :=
    untilQuote_of_unquoted unquoted hfore (List.forall_mem_nil _) hencode
  have hclosing : encode rest = encode ['"'] ++ tail := hrest
  obtain ⟨rest, rfl, htail⟩ := append_of_encode hclosing
  refine ⟨body ++ ['"'], rest, ?_, .mk hbody, (encode_append _ _).symm, htail⟩
  rw [List.append_assoc]

/-! ## Portions -/

theorem Digits.ascii (digits : Digits cs) : ∀ ch ∈ cs, ch.toNat < 128 := by
  intro ch hch
  have hdigit := digits.isDigit ch hch
  simp only [Char.isDigit, Bool.and_eq_true, decide_eq_true_eq, UInt32.le_iff_toNat_le] at hdigit
  exact Nat.lt_of_le_of_lt hdigit.2 (by decide)

theorem NumberText.ascii (number : NumberText cs) : ∀ ch ∈ cs, ch.toNat < 128 := by
  obtain ⟨signs, whole, fraction, exponent⟩ := number
  simp only [List.forall_mem_append]
  refine ⟨?_, ?_, ?_, ?_⟩
  · rcases signs with rfl | rfl <;> exact ascii_of_all rfl
  · cases whole with
    | zero => exact ascii_of_all rfl
    | digits digits head => exact digits.ascii
  · cases fraction with
    | none => exact ascii_of_all rfl
    | places digits => exact List.forall_mem_cons.mpr ⟨by decide, digits.ascii⟩
  · cases exponent with
    | none => exact ascii_of_all rfl
    | power marks signs digits =>
      refine List.forall_mem_cons.mpr ⟨?_, List.forall_mem_append.mpr ⟨?_, digits.ascii⟩⟩
      · rcases marks with rfl | rfl <;> decide
      · rcases signs with rfl | rfl | rfl <;> exact ascii_of_all rfl

theorem comma_ascii (first : Bool) : ∀ ch ∈ comma first, ch.toNat < 128 := by
  cases first <;> exact ascii_of_all rfl

theorem bytewise_label {b : Bracket} (h : Label b cs) : Bytewise (Label b) cs := by
  cases h with
  | list => exact .ascii (by simp) .list
  | object key blanks =>
    refine (bytewise_string key).append fun key hkey => ?_
    refine .ascii (List.forall_mem_append.mpr ⟨blanks.ascii, ?_⟩) (.object hkey blanks)
    exact ascii_of_all rfl

/-- **Every portion of a text** is well-formed if it is so byte by byte, by its structure. -/
theorem bytewise_of_wellformed {portion : Portion} (h : Wellformed portion cs) :
    Bytewise (Wellformed portion) cs := by
  induction h with
  | @word cs mem =>
    have hall : ["null".toList, "true".toList, "false".toList].all (fun word =>
        word.all fun ch => ch.toNat < 128) = true := rfl
    exact .ascii (ascii_of_all (List.all_eq_true.mp hall cs mem)) (.word mem)
  | number number => exact .ascii number.ascii (.number number)
  | string string => exact (bytewise_string string).mono fun _ => .string
  | @bracket b cs inner ih =>
    have hopen : ∀ ch ∈ [b.openChar], ch.toNat < 128 := by
      cases b <;> exact ascii_of_all rfl
    refine Bytewise.ascii_append hopen ?_
    exact ih.mono fun _ => .bracket
  | @close b first ws blanks =>
    refine .ascii (List.forall_mem_append.mpr ⟨blanks.ascii, ?_⟩) (.close blanks)
    cases b <;> exact ascii_of_all rfl
  | @item b first ws gap cs lead vs rest before behind label between value others ihValue ihRest =>
    refine .ascii_append before.ascii
      (.ascii_append (comma_ascii first) (.ascii_append behind.ascii ?_))
    refine (bytewise_label label).append fun label hlabel => .ascii_append between.ascii ?_
    exact ihValue.append fun value hvalue => ihRest.mono fun rest hrest =>
      .item before behind hlabel between hvalue hrest

/-- **A value that has been passed over**, byte by byte. -/
def PassedOver (raw : List UInt8) : Prop :=
  Wellformed .value (latin raw)

theorem PassedOver.wellformed (h : PassedOver (encode cs)) : Wellformed .value cs := by
  obtain ⟨front, rest, rfl, hfront, hbytes, hrest⟩ :=
    bytewise_of_wellformed h rfl (List.append_nil (encode cs)).symm
  rw [encode_inj hbytes]
  exact hfront

theorem Wellformed.passedOver (h : Wellformed .value cs) : PassedOver (encode cs) := by
  have hstart : (Cursor.start (encode cs)).rest = encode [] ++ (encode cs ++ []) :=
    (List.append_nil _).symm
  obtain ⟨c', hskip, hend⟩ := skipValue_of h Cursor.blanks_nil hstart trivial
  obtain ⟨ws, raw, hws, hraw, hrest⟩ := of_skipValue hskip
  rw [hend, List.append_nil] at hrest
  obtain ⟨byte, bytes, hbytes, hblank, -⟩ := h.start
  cases ws with
  | nil =>
    obtain rfl : encode cs = raw := hrest
    exact hraw
  | cons ch ws =>
    have hcs : (Cursor.start (encode cs)).rest = encode cs := rfl
    rw [hcs, hbytes] at hrest
    rcases hws ch (List.mem_cons_self ..) with rfl | rfl | rfl | rfl <;>
    · obtain ⟨rfl, -⟩ := List.cons.inj hrest
      cases hblank

/-- **A text is passed over** exactly if it is a well-formed value. -/
theorem passedOver_encode : PassedOver (encode cs) ↔ Wellformed .value cs :=
  ⟨PassedOver.wellformed, Wellformed.passedOver⟩

/-- A string is one byte by byte. -/
theorem StringText.latin (h : StringText cs) : StringText (latin (encode cs)) := by
  have hstart : (Cursor.start (encode cs)).rest = encode cs ++ [] := (List.append_nil _).symm
  obtain ⟨hpeek, c', hskip, hend⟩ := skipText_of h hstart
  obtain ⟨raw, hraw, hrest⟩ := of_skipText (Cursor.rest_of_peek? hpeek) hskip
  rw [hend, List.append_nil] at hrest
  obtain rfl : encode cs = raw := hrest
  exact hraw

end OrderDesk.Json
