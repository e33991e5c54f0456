import OrderDesk.Proofs.Json.Accepted.Bytewise
import OrderDesk.Proofs.Json.Record

/-!
# Records that have been read

A record that has been read was written as an object, each of its fields once and anything else with
a well-formed value, or as the list of its fields in order. All that has to be known of a record is
what each of its fields takes.

The values of members with other names are passed over, so of their bytes it is only told that they
are well-formed one by one.

## Main definitions

* `Reads`: what a reader reads is of a form
* `MembersBytes`, `ObjectBytes`, `RowBytes`: objects and lists, with the bytes of their values
* `Shape.Reads`: what the fields of a record read leads from one draft of it to another
* `Shape.Step`, `Shape.Led`, `Shape.LedInOrder`: what a member, members and elements have led to
* `valuesOf`, `Once`: the members of a name, and one that occurs once
* `Sets`, `Shape.Keeps`: a field by what sets it

## Main results

* `reads_string`, `reads_uuid`, `reads_int64`: what has been read as a scalar
* `step_of_readMembers`, `of_readMembers`, `of_readElements`: what the loops of the reader take
* `Shape.Reads.read`, `Shape.Reads.readBytes`: a record that has been read
* `Shape.Led.once`, `Shape.LedInOrder.once`: a field that is set at the end was a member once, or
  the element in its place
-/

namespace OrderDesk.Json

open Text Text.Utf8 Cursor

variable {P α β : Type} {s : Shape P α} {c c' : Cursor} {fuel bytes raw tail : List UInt8}
  {ws : List Char} {name : String} {members : List (String × List UInt8)} {first : Bool} {p q : P}

/-! ## Scalars that have been read -/

/-- **What a reader reads is of a form**, behind blanks. -/
def Reads (read : Cursor → Except Error (α × Cursor)) (form : α → List UInt8 → Prop) : Prop :=
  ∀ ⦃c c' : Cursor⦄ ⦃a : α⦄, read c = .ok (a, c') →
    ∃ ws raw, Blanks ws ∧ form a raw ∧ c.rest = encode ws ++ (raw ++ c'.rest)

/-- The bytes of a string in any of its spellings. -/
def StringBytes (text : String) (bytes : List UInt8) : Prop :=
  ∃ cs, Quotes text cs ∧ bytes = encode cs

/-- The bytes of an identifier in any of the texts that are read as it. -/
def UuidBytes (id : Uuid) (bytes : List UInt8) : Prop :=
  ∃ text : String, id.Reading text.toList ∧ StringBytes text bytes

/-- The bytes of an integer of 64 bits in plain decimal. -/
def Int64Bytes (n : Int) (bytes : List UInt8) : Prop :=
  (-0x8000000000000000 ≤ n ∧ n < 0x8000000000000000) ∧ bytes = encode (toString n).toList

theorem reads_stringAs (expected : String) : Reads (readStringAs expected) StringBytes := by
  intro c c' text h
  obtain ⟨ws, hws, hblanks⟩ := c.exists_blanks
  unfold readStringAs at h
  simp only at h
  split at h
  · cases h
  · rename_i byte hpeek
    split at h
    · rename_i hquote
      obtain ⟨cs, hcs, hrest⟩ := of_readText (rest_of_peek? (beq_iff_eq.mp hquote ▸ hpeek)) h
      exact ⟨ws, encode cs, hws, ⟨cs, hcs, rfl⟩, hblanks.trans (by rw [hrest])⟩
    · cases h

theorem reads_string : Reads readString StringBytes :=
  reads_stringAs _

theorem reads_uuid : Reads readUuid UuidBytes := by
  intro c c' id h
  obtain ⟨⟨text, c₁⟩, hread, h⟩ := exists_of_bind h
  obtain ⟨ws, raw, hws, hstring, hrest⟩ := reads_stringAs _ hread
  simp only at h
  split at h
  · rename_i id' hparse
    cases h
    exact ⟨ws, raw, hws, ⟨text, Uuid.reading_of_parse hparse, hstring⟩, hrest⟩
  · cases h

theorem reads_int64 : Reads readInt64 Int64Bytes := by
  intro c c' n h
  obtain ⟨hfits, ws, hws, hrest⟩ := of_readInt64 h
  exact ⟨ws, _, hws, ⟨hfits, rfl⟩, hrest⟩

/-! ## Objects and lists -/

/-- **The members of an object**, from the first one or from a later one on, with the closing brace:
each with its name, in any spelling, and the bytes of its value. -/
inductive MembersBytes : Bool → List (String × List UInt8) → List UInt8 → Prop
  | close {first : Bool} {ws : List Char} (blanks : Blanks ws) :
    MembersBytes first [] (encode ws ++ [Ascii.closeBrace])
  | member {first : Bool} {name : String} {value rest : List UInt8}
    {members : List (String × List UInt8)} {ws gap key middle lead : List Char} (before : Blanks ws)
    (behind : Blanks gap) (quotes : Quotes name key) (between : Blanks middle) (ahead : Blanks lead)
    (others : MembersBytes false members rest) :
    MembersBytes first ((name, value) :: members)
      (encode (ws ++ (comma first ++ (gap ++ (key ++ (middle ++ ':' :: lead))))) ++ (value ++ rest))

/-- **An object** with its members. -/
inductive ObjectBytes (members : List (String × List UInt8)) : List UInt8 → Prop
  | mk {inner : List UInt8} (within : MembersBytes true members inner) :
    ObjectBytes members (Ascii.openBrace :: inner)

/-- The items of a list, from the first one or from a later one on, with the closing bracket. -/
inductive ItemsBytes : Bool → List (List UInt8) → List UInt8 → Prop
  | close {first : Bool} {ws : List Char} (blanks : Blanks ws) :
    ItemsBytes first [] (encode ws ++ [Ascii.closeBracket])
  | item {first : Bool} {value rest : List UInt8} {values : List (List UInt8)} {ws gap : List Char}
    (before : Blanks ws) (behind : Blanks gap) (others : ItemsBytes false values rest) :
    ItemsBytes first (value :: values) (encode (ws ++ (comma first ++ gap)) ++ (value ++ rest))

/-- **A list** with its items. -/
inductive RowBytes (values : List (List UInt8)) : List UInt8 → Prop
  | mk {inner : List UInt8} (within : ItemsBytes true values inner) :
    RowBytes values (Ascii.openBracket :: inner)

/-! ## Well-formed records -/

theorem StringBytes.passedOver {text : String} (h : StringBytes text bytes) : PassedOver bytes := by
  obtain ⟨cs, quotes, rfl⟩ := h
  exact passedOver_encode.mpr (.string quotes.stringText)

theorem UuidBytes.passedOver {id : Uuid} (h : UuidBytes id bytes) : PassedOver bytes := by
  obtain ⟨text, -, hbytes⟩ := h
  exact hbytes.passedOver

theorem numberText_int (n : Int) : NumberText (toString n).toList := by
  have hdecimal (sign : List Char) (hsign : sign = [] ∨ sign = ['-']) (m : Nat) :
      NumberText (sign ++ Nat.toDigits 10 m) := by
    have hnumber := NumberText.mk hsign (wholeText_toDigits m) .none .none
    rwa [List.append_nil, List.append_nil] at hnumber
  rw [Int.toString_eq_repr, Int.repr_eq_if]
  split
  · rw [Nat.toList_repr]
    exact hdecimal [] (.inl rfl) _
  · rw [String.toList_append, Nat.toList_repr]
    exact hdecimal ['-'] (.inr rfl) _

theorem Int64Bytes.passedOver {n : Int} (h : Int64Bytes n bytes) : PassedOver bytes := by
  obtain ⟨-, rfl⟩ := h
  exact passedOver_encode.mpr (.number (numberText_int n))

/-- The members of an object are well-formed, byte by byte, if their values are. -/
theorem MembersBytes.wellformed (h : MembersBytes first members raw)
    (values : ∀ m ∈ members, PassedOver m.2) : Wellformed (.within .object first) (latin raw) := by
  induction h with
  | close blanks =>
    rw [latin_append, blanks.latin_encode]
    exact .close blanks
  | @member first name value rest members ws gap key middle lead before behind quotes between ahead
      others ih =>
    obtain ⟨hvalue, hvalues⟩ := List.forall_mem_cons.mp values
    have hlatin :
        latin (encode (ws ++ (comma first ++ (gap ++ (key ++ (middle ++ ':' :: lead))))) ++
          (value ++ rest)) =
        ws ++ (comma first ++ (gap ++ ((latin (encode key) ++ (middle ++ [':'])) ++
          (lead ++ (latin value ++ latin rest))))) := by
      have hcolon : encode (':' :: lead) = encode [':'] ++ encode lead := encode_append [':'] lead
      simp only [encode_append, latin_append, hcolon, before.latin_encode, behind.latin_encode,
        between.latin_encode, ahead.latin_encode, latin_encode (comma_ascii first),
        List.append_assoc]
      rfl
    rw [hlatin]
    exact .item before behind (.object quotes.stringText.latin between) ahead hvalue (ih hvalues)

/-- The items of a list are well-formed, byte by byte, if they are so one by one. -/
theorem ItemsBytes.wellformed {values : List (List UInt8)} (h : ItemsBytes first values raw)
    (passed : ∀ value ∈ values, PassedOver value) :
    Wellformed (.within .list first) (latin raw) := by
  induction h with
  | close blanks =>
    rw [latin_append, blanks.latin_encode]
    exact .close blanks
  | @item first value rest values ws gap before behind others ih =>
    obtain ⟨hvalue, hvalues⟩ := List.forall_mem_cons.mp passed
    have hlatin : latin (encode (ws ++ (comma first ++ gap)) ++ (value ++ rest)) =
        ws ++ (comma first ++ (gap ++ ([] ++ ([] ++ (latin value ++ latin rest))))) := by
      simp only [encode_append, latin_append, before.latin_encode, behind.latin_encode,
        latin_encode (comma_ascii first), List.append_assoc, List.nil_append]
    rw [hlatin]
    exact .item before behind .list blanks_nil hvalue (ih hvalues)

theorem ObjectBytes.passedOver (h : ObjectBytes members raw)
    (values : ∀ m ∈ members, PassedOver m.2) : PassedOver raw := by
  obtain ⟨within⟩ := h
  rw [PassedOver, latin_cons]
  exact .bracket (b := .object) (within.wellformed values)

theorem RowBytes.passedOver {values : List (List UInt8)} (h : RowBytes values raw)
    (passed : ∀ value ∈ values, PassedOver value) : PassedOver raw := by
  obtain ⟨within⟩ := h
  rw [PassedOver, latin_cons]
  exact .bracket (b := .list) (within.wellformed passed)

/-- **A value with blanks around it** is a whole text if its bytes are those of one. -/
theorem text_of_document {lead trail text : List Char} (passed : PassedOver raw)
    (h : encode text = encode lead ++ (raw ++ encode trail)) :
    ∃ cs, text = lead ++ (cs ++ trail) ∧ Wellformed .value cs := by
  obtain ⟨rest, rfl, hrest⟩ := append_of_encode h
  obtain ⟨cs, more, rfl, hcs, rfl, hmore⟩ := bytewise_of_wellformed passed rfl hrest.symm
  exact ⟨cs, by rw [encode_inj hmore], hcs⟩

/-! ## Members and elements -/

variable {took : String → P → List UInt8 → P → Prop}

/-- **What the fields of a record read** leads from one draft of it to another, by their names. -/
def Shape.Reads (s : Shape P α) (took : String → P → List UInt8 → P → Prop) : Prop :=
  ∀ f ∈ s.fields, ∀ p, Json.Reads (f.read p) fun q raw => took f.name p raw q

/-- **What a member has led to**: one with an unknown name was passed over, and a field that had not
been read yet took the bytes of its value. -/
inductive Shape.Step (s : Shape P α) (took : String → P → List UInt8 → P → Prop) (p : P) :
    String → List UInt8 → P → Prop
  | other {name : String} {value : List UInt8} (unknown : name ∉ s.names)
    (passed : PassedOver value) : Step s took p name value p
  | field {f : Field P} {value : List UInt8} {q : P} (mem : f ∈ s.fields)
    (unset : f.isSet p = false) (takes : took f.name p value q) : Step s took p f.name value q

/-- **What the members of an object have led to**, one after the other. -/
inductive Shape.Led (s : Shape P α) (took : String → P → List UInt8 → P → Prop) :
    P → List (String × List UInt8) → P → Prop
  | nil {p : P} : Led s took p [] p
  | cons {p p' q : P} {name : String} {value : List UInt8} {members : List (String × List UInt8)}
    (step : s.Step took p name value p') (rest : Led s took p' members q) :
    Led s took p ((name, value) :: members) q

/-- **What the elements of a list have led to**, each of them by the field in its place. -/
inductive Shape.LedInOrder (took : String → P → List UInt8 → P → Prop) :
    List (Field P) → P → List (List UInt8) → P → Prop
  | nil {p : P} : LedInOrder took [] p [] p
  | cons {f : Field P} {fields : List (Field P)} {p p' q : P} {value : List UInt8}
    {values : List (List UInt8)} (takes : took f.name p value p')
    (rest : LedInOrder took fields p' values q) :
    LedInOrder took (f :: fields) p (value :: values) q

theorem of_inside {step : PathStep} {result : Except Error α} {a : α}
    (h : inside step result = .ok a) : result = .ok a := by
  cases result with
  | error e => cases h
  | ok b => exact h

theorem Shape.not_mem_names (unknown : (s.fields.find? fun f => f.name == name) = none) :
    name ∉ s.names := by
  intro hname
  obtain ⟨f, hf⟩ := s.exists_field hname
  rw [unknown] at hf
  cases hf

/-- The key of a member, with its colon and the blanks around. -/
theorem member_bytes {c₁ c₂ c₃ : Cursor} {value rest : List UInt8} {lead : List Char}
    (hnext : c.objectHasNext first = .ok (true, c₁)) (hkey : readText c₁.advance = .ok (name, c₂))
    (hcolon : c₂.colon = .ok c₃) (hlead : Blanks lead)
    (hvalue : c₃.rest = encode lead ++ (value ++ (rest ++ tail)))
    (others : MembersBytes false members rest) :
    ∃ raw, MembersBytes first ((name, value) :: members) raw ∧ c.rest = raw ++ tail := by
  obtain ⟨ws, gap, hws, hgap, hquote, hrest⟩ := of_objectHasNext hnext
  obtain ⟨key, hquotes, hrest₁⟩ := of_readText hquote hkey
  obtain ⟨middle, hmiddle, hrest₂⟩ := of_colon hcolon
  refine ⟨_, .member hws hgap hquotes hmiddle hlead others, ?_⟩
  rw [hrest, hrest₁, hrest₂, hvalue]
  have hencode : encode (':' :: lead) = Ascii.colon :: encode lead :=
    encode_cons_ascii (by decide) lead
  simp only [encode_append, hencode, List.append_assoc, List.cons_append]

/-- The value of a member with an unknown name is passed over. -/
theorem of_skipMember (h : Shape.skipMember name c = .ok c') :
    ∃ c₁ lead value, c.colon = .ok c₁ ∧ Blanks lead ∧ PassedOver value ∧
      c₁.rest = encode lead ++ (value ++ c'.rest) := by
  unfold Shape.skipMember at h
  split at h
  · cases h
  · rename_i c₁ hcolon
    obtain ⟨lead, value, hlead, hvalue, hrest⟩ := of_skipValue (of_inside h)
    exact ⟨c₁, lead, value, hcolon, hlead, hvalue, hrest⟩

/-- The value of a field is read by it. -/
theorem of_readMember (reads : s.Reads took) {f : Field P} (mem : f ∈ s.fields)
    (h : Shape.readMember f p c = .ok (q, c')) :
    ∃ c₁ lead value, c.colon = .ok c₁ ∧ Blanks lead ∧ took f.name p value q ∧
      c₁.rest = encode lead ++ (value ++ c'.rest) := by
  unfold Shape.readMember at h
  split at h
  · cases h
  · rename_i c₁ hcolon
    obtain ⟨lead, value, hlead, htakes, hrest⟩ := reads f mem p (of_inside h)
    exact ⟨c₁, lead, value, hcolon, hlead, htakes, hrest⟩

/-- **What one step of the loop over the members takes**: nothing at the end of the object, and a
member in front of the others otherwise. -/
theorem step_of_readMembers {step : UInt8} (reads : s.Reads took)
    (h : s.readMembers first p (step :: fuel) c = .ok (.ok q, c')) :
    q = p ∧ c.objectHasNext first = .ok (false, c') ∨
    ∃ name value p' c₁, s.Step took p name value p' ∧
      s.readMembers false p' fuel c₁ = .ok (.ok q, c') ∧
      ∀ {members rest tail}, MembersBytes false members rest → c₁.rest = rest ++ tail →
        ∃ raw, MembersBytes first ((name, value) :: members) raw ∧ c.rest = raw ++ tail := by
  rw [Shape.readMembers] at h
  split at h
  · cases h
  · rename_i c₁ hend
    cases h
    exact .inl ⟨rfl, hend⟩
  · rename_i c₁ hnext
    split at h
    · cases h
    · rename_i name c₂ hkey
      split at h
      · rename_i hunknown
        split at h
        · cases h
        · rename_i c₄ hskip
          obtain ⟨c₃, lead, value, hcolon, hlead, hvalue, hrest⟩ := of_skipMember hskip
          exact .inr ⟨name, value, p, c₄, .other (Shape.not_mem_names hunknown) hvalue, h,
            fun others hothers => member_bytes hnext hkey hcolon hlead (hothers ▸ hrest) others⟩
      · rename_i f hknown
        have hf := List.mem_of_find?_eq_some hknown
        obtain rfl : f.name = name := by simpa using List.find?_some hknown
        split at h
        · cases h
        · rename_i hunset
          split at h
          · cases h
          · rename_i p' c₄ hread
            obtain ⟨c₃, lead, value, hcolon, hlead, htakes, hrest⟩ := of_readMember reads hf hread
            exact .inr ⟨f.name, value, p', c₄, .field hf (by simpa using hunset) htakes, h,
              fun others hothers => member_bytes hnext hkey hcolon hlead (hothers ▸ hrest) others⟩

/-- **What the loop over the members has taken**, up to the closing brace. -/
theorem of_readMembers (reads : s.Reads took)
    (h : s.readMembers first p fuel c = .ok (.ok q, c'))
    (close : c'.rest = encode ws ++ Ascii.closeBrace :: tail) (blanks : Blanks ws) :
    ∃ members raw, s.Led took p members q ∧ MembersBytes first members raw ∧
      c.rest = raw ++ tail := by
  induction fuel generalizing first p c with
  | nil => cases h
  | cons step fuel ih =>
    rcases step_of_readMembers reads h with
      ⟨rfl, hend⟩ | ⟨name, value, p', c₁, hstep, hnext, hmember⟩
    · obtain ⟨gap, hgap, hrest⟩ := of_objectHasNext_false hend
      refine ⟨[], _, .nil, .close (hgap.append blanks), ?_⟩
      rw [hrest, close, encode_append]
      simp only [List.append_assoc, List.cons_append, List.nil_append]
    · obtain ⟨members, rest, hled, hmembers, hrest⟩ := ih hnext
      obtain ⟨raw, hraw, hbytes⟩ := hmember hmembers hrest
      exact ⟨_, raw, .cons hstep hled, hraw, hbytes⟩

/-- **What the loop over the elements has taken**, up to the closing bracket. -/
theorem of_readElements {fields : List (Field P)} {index : Nat}
    (reads : ∀ f ∈ fields, ∀ p, Reads (f.read p) fun q raw => took f.name p raw q)
    (h : s.readElements index p fields c = .ok (.ok q, c'))
    (close : c'.rest = encode ws ++ Ascii.closeBracket :: tail) (blanks : Blanks ws) :
    ∃ values raw, Shape.LedInOrder took fields p values q ∧
      ItemsBytes (index == 0) values raw ∧ c.rest = raw ++ tail := by
  induction fields generalizing index p c with
  | nil =>
    cases h
    refine ⟨[], _, .nil, .close blanks, ?_⟩
    rw [close, List.append_assoc, List.singleton_append]
  | cons f fields ih =>
    obtain ⟨hf, hfields⟩ := List.forall_mem_cons.mp reads
    rw [Shape.readElements] at h
    split at h
    · cases h
    · cases h
    · rename_i c₁ hnext
      split at h
      · cases h
      · rename_i p' c₂ hread
        obtain ⟨ws₁, gap, hws₁, hgap, hrest⟩ := of_listHasNext hnext
        obtain ⟨lead, value, hlead, htakes, hrest₁⟩ := hf p (of_inside hread)
        obtain ⟨values, rest, hled, hitems, hrest₂⟩ := ih hfields h
        refine ⟨value :: values, _, .cons htakes hled,
          .item hws₁ (hgap.append hlead) hitems, ?_⟩
        rw [hrest, hrest₁, hrest₂]
        simp only [encode_append, List.append_assoc]

/-! ## Whole records -/

theorem of_complete {outcome : Except Cause P} {a : α} (h : s.complete outcome = .ok a) :
    ∃ q, outcome = .ok q ∧ s.finish q = .ok a := by
  cases outcome with
  | error cause => cases h
  | ok q =>
    simp only [Shape.complete] at h
    split at h
    · rename_i a' hfinish
      cases h
      exact ⟨q, rfl, hfinish⟩
    · cases h

/-- **A record that has been read**: an object or a list that has led to a draft of it. -/
inductive Shape.Written (s : Shape P α) (took : String → P → List UInt8 → P → Prop) (a : α) :
    List UInt8 → Prop
  | object {members : List (String × List UInt8)} {q : P} {raw : List UInt8}
    (object : ObjectBytes members raw) (led : s.Led took s.start members q)
    (finish : s.finish q = .ok a) : Written s took a raw
  | list {values : List (List UInt8)} {q : P} {raw : List UInt8} (row : RowBytes values raw)
    (led : Shape.LedInOrder took s.fields s.start values q) (finish : s.finish q = .ok a) :
    Written s took a raw

theorem Shape.Reads.read (reads : s.Reads took) : Json.Reads s.read (s.Written took) := by
  intro c c' a h
  obtain ⟨ws, hws, hblanks⟩ := c.exists_blanks
  unfold Shape.read at h
  simp only at h
  split at h
  · cases h
  · rename_i byte hpeek
    have hbyte := rest_of_peek? hpeek
    split at h
    · rename_i hobject
      split at h
      · cases h
      · rename_i outcome c₁ hmembers
        obtain ⟨hcomplete, hclose⟩ := of_settle h
        obtain ⟨q, rfl, hfinish⟩ := of_complete hcomplete
        obtain ⟨gap, hgap, hend⟩ := of_closeObject hclose
        obtain ⟨members, raw, hled, hraw, hrest⟩ := of_readMembers reads hmembers hend hgap
        refine ⟨ws, Ascii.openBrace :: raw, hws, .object (.mk hraw) hled hfinish, ?_⟩
        rw [hblanks, hbyte, hrest, beq_iff_eq.mp hobject, List.cons_append]
    · split at h
      · rename_i hlist
        split at h
        · cases h
        · rename_i outcome c₁ helements
          obtain ⟨hcomplete, hclose⟩ := of_settle h
          obtain ⟨q, rfl, hfinish⟩ := of_complete hcomplete
          obtain ⟨gap, hgap, hend⟩ := of_closeList hclose
          obtain ⟨values, raw, hled, hraw, hrest⟩ := of_readElements reads helements hend hgap
          refine ⟨ws, Ascii.openBracket :: raw, hws, .list (.mk hraw) hled hfinish, ?_⟩
          rw [hblanks, hbyte, hrest, beq_iff_eq.mp hlist, List.cons_append]
      · cases h

/-- **A value that was a whole text**: there were only blanks around it. -/
theorem of_readDocument {read : Cursor → Except Error (α × Cursor)} {form : α → List UInt8 → Prop}
    {a : α} (reads : Reads read form) (h : readDocument read bytes = .ok a) :
    ∃ lead raw trail, Blanks lead ∧ Blanks trail ∧ form a raw ∧
      bytes = encode lead ++ (raw ++ encode trail) := by
  obtain ⟨⟨a', c⟩, hread, h⟩ := exists_of_bind h
  obtain ⟨lead, raw, hlead, hform, hrest⟩ := reads hread
  obtain ⟨trail, htrail, hbehind⟩ := c.exists_blanks
  simp only at h
  split at h
  · rename_i hend
    cases h
    rw [List.isEmpty_iff.mp hend, List.append_nil] at hbehind
    exact ⟨lead, raw, trail, hlead, htrail, hform, hrest.trans (by rw [hbehind])⟩
  · cases h

/-! ## Fields -/

/-- The values of the members of a name. -/
def valuesOf (members : List (String × List UInt8)) (name : String) : List (List UInt8) :=
  (members.filter fun m => m.1 == name).map Prod.snd

theorem valuesOf_own (name : String) (value : List UInt8) :
    valuesOf ((name, value) :: members) name = value :: valuesOf members name := by
  simp [valuesOf]

theorem valuesOf_other {other : String} (ne : other ≠ name) (value : List UInt8) :
    valuesOf ((other, value) :: members) name = valuesOf members name := by
  simp [valuesOf, ne]

/-- **A member that occurs once**, with bytes of a form. -/
def Once (members : List (String × List UInt8)) (name : String) (form : List UInt8 → Prop) : Prop :=
  ∃ value, valuesOf members name = [value] ∧ form value

/-- The values of members of other names have been passed over. -/
theorem Shape.Led.others (led : s.Led took p members q) :
    ∀ m ∈ members, m.1 ∉ s.names → PassedOver m.2 := by
  induction led with
  | nil => simp
  | cons step rest ih =>
    refine List.forall_mem_cons.mpr ⟨fun hname => ?_, ih⟩
    cases step with
    | other unknown passed => exact passed
    | field mem unset takes => exact absurd (List.mem_map_of_mem mem) hname

theorem Once.of_mem {form : List UInt8 → Prop} (once : Once members name form)
    {m : String × List UInt8} (mem : m ∈ members) (own : m.1 = name) : form m.2 := by
  obtain ⟨value, hvalue, hform⟩ := once
  have hmem : m.2 ∈ valuesOf members name :=
    List.mem_map_of_mem (List.mem_filter.mpr ⟨mem, beq_iff_eq.mpr own⟩)
  rw [hvalue, List.mem_singleton] at hmem
  exact hmem ▸ hform

/-- **A field of a draft**: it takes the bytes of its own value, and no others. -/
def Sets (name : String) (get : P → Option β) (form : β → List UInt8 → Prop) (other : String)
    (p : P) (raw : List UInt8) (q : P) : Prop :=
  if other = name then ∃ b, get q = some b ∧ form b raw else get q = get p

/-- **A field of the drafts** of a record, told by its name. -/
structure Shape.Keeps (s : Shape P α) (took : String → P → List UInt8 → P → Prop) (name : String)
    (get : P → Option β) (form : β → List UInt8 → Prop) : Prop where
  known : name ∈ s.names
  isSet : ∀ f ∈ s.fields, f.name = name → ∀ p, f.isSet p = (get p).isSome
  sets : ∀ {other : String} {p q : P} {raw : List UInt8}, took other p raw q →
    Sets name get form other p raw q

variable {get : P → Option β} {form : β → List UInt8 → Prop} {b : β} {other : String}

theorem Shape.Keeps.ne (keeps : s.Keeps took name get form) (unknown : other ∉ s.names) :
    other ≠ name := by
  rintro rfl
  exact unknown keeps.known

theorem Shape.Keeps.own (keeps : s.Keeps took name get form) (takes : took name p raw q) :
    ∃ b, get q = some b ∧ form b raw := by
  have hsets := keeps.sets takes
  rwa [Sets, if_pos rfl] at hsets

theorem Shape.Keeps.frame (keeps : s.Keeps took name get form) (ne : other ≠ name)
    (takes : took other p raw q) : get q = get p := by
  have hsets := keeps.sets takes
  rwa [Sets, if_neg ne] at hsets

/-- **One member**: it is a field that has not been set, or it leaves the field as it is. -/
theorem Shape.Step.own_or_other {value : List UInt8} (step : s.Step took p other value q)
    (keeps : s.Keeps took name get form) :
    other = name ∧ get p = none ∧ (∃ b, get q = some b ∧ form b value) ∨
      other ≠ name ∧ get q = get p := by
  cases step with
  | other unknown passed => exact .inr ⟨keeps.ne unknown, rfl⟩
  | @field f value q mem unset takes =>
    by_cases hname : f.name = name
    · rw [keeps.isSet f mem hname] at unset
      exact .inl ⟨hname, by simpa using unset, keeps.own (hname ▸ takes)⟩
    · exact .inr ⟨hname, keeps.frame hname takes⟩

/-- A field that is set stays as it is, and is no member any more. -/
theorem Shape.Led.never (led : s.Led took p members q) (keeps : s.Keeps took name get form)
    (set : get p = some b) : get q = some b ∧ valuesOf members name = [] := by
  induction led with
  | nil => exact ⟨set, rfl⟩
  | cons step rest ih =>
    rcases step.own_or_other keeps with ⟨-, hunset, -⟩ | ⟨hname, hkept⟩
    · rw [set] at hunset
      cases hunset
    · rw [valuesOf_other hname]
      exact ih (hkept.trans set)

/-- **A field that is set at the end** was a member once. -/
theorem Shape.Led.once (led : s.Led took p members q) (keeps : s.Keeps took name get form)
    (unset : get p = none) (set : get q = some b) : Once members name (form b) := by
  induction led with
  | nil =>
    rw [unset] at set
    cases set
  | @cons p p' q other value members step rest ih =>
    rcases step.own_or_other keeps with ⟨rfl, -, b', hb', hform⟩ | ⟨hname, hkept⟩
    · -- the member that sets it, behind which there is no other of its name
      obtain ⟨hlast, hnever⟩ := rest.never keeps hb'
      obtain rfl : b' = b := Option.some.inj (hlast.symm.trans set)
      exact ⟨value, by rw [valuesOf_own, hnever], hform⟩
    · rw [Once, valuesOf_other hname]
      exact ih (hkept.trans unset) set

variable {fields : List (Field P)} {values : List (List UInt8)}

theorem Shape.LedInOrder.length_eq (led : LedInOrder took fields p values q) :
    values.length = fields.length := by
  induction led with
  | nil => rfl
  | cons takes rest ih => rw [List.length_cons, List.length_cons, ih]

/-- A field that is not among those to come stays as it is. -/
theorem Shape.LedInOrder.never (led : LedInOrder took fields p values q)
    (keeps : s.Keeps took name get form) (fresh : name ∉ fields.map (·.name)) :
    get q = get p ∧ valuesOf ((fields.map (·.name)).zip values) name = [] := by
  induction led with
  | nil => exact ⟨rfl, rfl⟩
  | cons takes rest ih =>
    rw [List.map_cons, List.mem_cons, not_or] at fresh
    obtain ⟨hname, hfresh⟩ := fresh
    obtain ⟨hkept, hnever⟩ := ih hfresh
    rw [List.map_cons, List.zip_cons_cons, valuesOf_other (Ne.symm hname)]
    exact ⟨hkept.trans (keeps.frame (Ne.symm hname) takes), hnever⟩

/-- **A field that is set at the end** was the element in its place. -/
theorem Shape.LedInOrder.once (led : LedInOrder took fields p values q)
    (keeps : s.Keeps took name get form) (distinct : (fields.map (·.name)).Nodup)
    (mem : name ∈ fields.map (·.name)) (set : get q = some b) :
    Once ((fields.map (·.name)).zip values) name (form b) := by
  induction led with
  | nil => cases mem
  | @cons f fields p p' q value values takes rest ih =>
    rw [List.map_cons, List.nodup_cons] at distinct
    rw [List.map_cons, List.mem_cons] at mem
    rw [List.map_cons, List.zip_cons_cons]
    by_cases hname : f.name = name
    · subst hname
      obtain ⟨b', hb', hform⟩ := keeps.own takes
      obtain ⟨hkept, hnever⟩ := rest.never keeps distinct.1
      obtain rfl : b' = b := Option.some.inj ((hkept.trans hb').symm.trans set)
      exact ⟨value, by rw [valuesOf_own, hnever], hform⟩
    · rw [Once, valuesOf_other hname]
      exact ih distinct.2 (mem.resolve_left (Ne.symm hname)) set

end OrderDesk.Json
