import OrderDesk.Json.Value
import OrderDesk.Proofs.Json.Reader

/-!
# Values that are rendered and read

The compact text of a string is one of its spellings, and the compact text of an object is an object
of the texts of its members, so whatever reads every text reads the compact ones. The reader of
arbitrary values reads an object if it reads the values of its members.

## Main results

* `charForm_escapedChar`, `quotes_quotedChars`: the compact text of a string spells it
* `objectText_renderChars`: the compact text of an object
* `Shape.Tracks.readBytes_compact`: a record is read from the compact text of its fields
* `takes_text`, `takes_object`: strings and objects are read as arbitrary values
-/

namespace OrderDesk.Json

open Text Text.Utf8 Cursor

/-! ## Compact texts -/

/-- A control character is rendered by its number. -/
theorem fourDigits_control {c : Char} (h : c.toNat < 32) :
    FourDigits ('0' :: '0' :: Hex.ofByte (UInt8.ofNat c.toNat)) c.toNat := by
  have hnat : (UInt8.ofNat c.toNat).toNat = c.toNat := by
    simp
    omega
  have hvalue : ((((0 : Fin 16).val * 16 + (0 : Fin 16).val) * 16 +
      (Fin.ofNat 16 ((UInt8.ofNat c.toNat).toNat / 16)).val) * 16 +
      (Fin.ofNat 16 (UInt8.ofNat c.toNat).toNat).val) = c.toNat := by
    rw [hnat]
    simp
    omega
  have hdigits := FourDigits.mk (a := '0') (b := '0') (w := 0) (x := 0) (.inl rfl) (.inl rfl)
    (.inl rfl : Hex.Writes _ (Fin.ofNat 16 ((UInt8.ofNat c.toNat).toNat / 16)))
    (.inl rfl : Hex.Writes _ (Fin.ofNat 16 (UInt8.ofNat c.toNat).toNat))
  rw [hvalue] at hdigits
  exact hdigits

/-- **A character is rendered** in one of its forms. -/
theorem charForm_escapedChar (c : Char) : CharForm c (Value.escapedChar c) := by
  unfold Value.escapedChar
  split
  · exact .short (by decide)
  · exact .short (by decide)
  · exact .short (by decide)
  · exact .short (by decide)
  · exact .short (by decide)
  · rename_i hquote hbackslash _ _ _
    split
    · rename_i h
      obtain rfl : c = '\x08' := Char.toNat_inj.mp h
      exact .short (by decide)
    split
    · rename_i h
      obtain rfl : c = '\x0c' := Char.toNat_inj.mp h
      exact .short (by decide)
    split
    · rename_i h
      exact .number (fourDigits_control h)
    · rename_i h
      exact .plain ⟨Nat.le_of_not_lt h, hquote, hbackslash⟩

theorem spelled_flatMap (text : List Char) : Spelled text (text.flatMap Value.escapedChar) := by
  induction text with
  | nil => exact .nil
  | cons c text ih => exact .cons (charForm_escapedChar c) ih

/-- **The compact text of a string** spells it. -/
theorem quotes_quotedChars (s : String) : Quotes s (Value.quotedChars s) :=
  .mk (spelled_flatMap s.toList)

/-- The members of an object with the compact texts of their values. -/
def memberTexts (members : List (String × Value)) : List (String × List Char) :=
  members.map fun m => (m.1, m.2.renderChars)

theorem membersText_renderMembers (first : Bool) (m : String × Value)
    (members : List (String × Value)) :
    MembersText first (memberTexts (m :: members))
      (comma first ++ (Value.renderChars.renderMembers (m :: members) ++ ['}'])) := by
  induction members generalizing first m with
  | nil =>
    have hclose : MembersText false [] ([] ++ ['}']) := .close blanks_nil
    have hmember : MembersText first [(m.1, m.2.renderChars)] _ :=
      .member blanks_nil blanks_nil (quotes_quotedChars m.1) blanks_nil blanks_nil hclose
    simpa [memberTexts, Value.renderChars.renderMembers] using hmember
  | cons w members ih =>
    have hrest := ih false w
    have hmember : MembersText first ((m.1, m.2.renderChars) :: memberTexts (w :: members)) _ :=
      .member blanks_nil blanks_nil (quotes_quotedChars m.1) blanks_nil blanks_nil hrest
    simpa [memberTexts, Value.renderChars.renderMembers, comma] using hmember

/-- **The compact text of an object** is an object of the texts of its members. -/
theorem objectText_renderChars (members : List (String × Value)) :
    ObjectText (memberTexts members) (Value.object members).renderChars := by
  cases members with
  | nil => exact .mk (.close blanks_nil)
  | cons m members => exact .mk (membersText_renderMembers true m members)

/-! ## Records from their compact texts -/

section Records

variable {P α β : Type} {s : Shape P α} {draft : List String → P} {name : String}
  {members : List (String × Value)}

theorem mem_memberTexts {text : List Char} {v : Value} (distinct : (members.map Prod.fst).Nodup)
    (mem : (name, v) ∈ members) (h : (name, text) ∈ memberTexts members) :
    text = v.renderChars := by
  obtain ⟨⟨name', w⟩, hw, heq⟩ := List.mem_map.mp h
  obtain ⟨rfl, rfl⟩ := Prod.mk.inj heq
  cases List.inj_on_of_nodup_map distinct hw mem rfl
  rfl

/-- **A field whose value is a member** takes the compact text of that member. -/
theorem Field.Tracks.compact {get : P → Option β} {set : P → Option β → P}
    {read : Cursor → Except Error (β × Cursor)} {b : β} {v : Value}
    (distinct : (members.map Prod.fst).Nodup) (mem : (name, v) ∈ members)
    (unset : ∀ seen, name ∉ seen → get (draft seen) = none)
    (sets : ∀ seen, set (draft seen) (some b) = draft (name :: seen))
    (takes : Takes read v.renderChars b) :
    (Field.of name get set read).Tracks draft fun name text =>
      (name, text) ∈ memberTexts members := by
  refine .of unset sets fun text h => ?_
  rw [mem_memberTexts distinct mem h]
  exact takes

/-- **A record is read from the compact text** of an object of its fields. -/
theorem Shape.Tracks.readBytes_compact {a : α}
    (tracks : s.Tracks draft fun name text => (name, text) ∈ memberTexts members)
    (names : members.map Prod.fst = s.names) (distinct : s.names.Nodup)
    (finish : ∀ seen, (∀ name ∈ s.names, name ∈ seen) → s.finish (draft seen) = .ok a) :
    s.readBytes (encode (Value.object members).renderChars) = .ok a := by
  have hnames : (memberTexts members).map Prod.fst = s.names := by
    rw [← names, memberTexts, List.map_map]
    rfl
  have hmem : ∀ m ∈ memberTexts members, m.1 ∈ s.names := fun m hm =>
    hnames ▸ List.mem_map_of_mem hm
  refine tracks.readBytes distinct finish (.of_object (objectText_renderChars members) ?_
    (fun m hm _ => hm) fun m hm other => absurd (hmem m hm) other)
  rw [hnames]
  exact .of_eq (List.filter_eq_self.mpr (by simp))

end Records

/-! ## Arbitrary values -/

variable {read : Cursor → Except Error (Value × Cursor)} {c : Cursor} {tail : List UInt8}
  {cs : List Char} {depth : Nat}

/-- The reader of the values takes the texts of the members of an object for their values. -/
def TakesMembers (read : Cursor → Except Error (Value × Cursor)) :
    List (String × Value) → List (String × List Char) → Prop :=
  List.Forall₂ fun m text => m.1 = text.1 ∧ Takes read text.2 m.2

/-- **The members of an object are read** one by one, onto those that were read before. -/
theorem readAnyMembers_of {members : List (String × Value)} {texts : List (String × List Char)}
    (takes : TakesMembers read members texts) {earlier : List (String × Value)}
    (text : MembersText earlier.isEmpty texts cs) {fuel : List UInt8}
    (h : c.rest = encode cs ++ tail) (hfuel : c.rest.length ≤ fuel.length) :
    ∃ c', readAnyMembers read earlier fuel c = .ok (earlier.reverse ++ members, c') ∧
      c'.rest = Ascii.closeBrace :: tail := by
  induction takes generalizing earlier cs c fuel with
  | nil =>
    obtain ⟨step, fuel, rfl, -⟩ := exists_step (h ▸ text.pos) hfuel
    cases text with
    | close blanks =>
      rw [encode_append, List.append_assoc] at h
      obtain ⟨c', hnext, hrest⟩ := objectHasNext_close earlier.isEmpty blanks h
      exact ⟨c', by simp only [readAnyMembers, hnext, List.append_nil], hrest⟩
  | @cons m _ _ _ head _ ih =>
    obtain ⟨name, v⟩ := m
    obtain ⟨hname, htakes⟩ := head
    cases text with
    | member before behind quotes between ahead others =>
      obtain ⟨c₁, c₂, c₃, hnext, hread, hcolon, hrest₃, hlt⟩ :=
        key_of before behind quotes between h
      obtain ⟨c₄, htake, hrest₄⟩ := htakes ahead hrest₃ others.stops
      obtain ⟨step, fuel, rfl, hfuel₄⟩ := exists_step hlt hfuel
      obtain rfl : name = _ := hname
      have hothers : MembersText ((name, v) :: earlier).isEmpty _ _ := others
      obtain ⟨c', hmembers, hrest⟩ := ih hothers hrest₄ (hrest₄ ▸ hfuel₄)
      refine ⟨c', ?_, hrest⟩
      simp only [readAnyMembers, hnext, hread, hcolon, htake, hmembers, List.reverse_cons,
        List.append_assoc, List.singleton_append]

/-- **A string is read** as an arbitrary value. -/
theorem takes_text {s : String} (quotes : Quotes s cs) :
    Takes (readNested depth) cs (.text s) := by
  intro c ws tail blanks h _
  obtain ⟨hpeek, c', hread, hrest⟩ := quote_of quotes blanks h
  refine ⟨c', ?_, hrest⟩
  have hscalar : readScalar Ascii.quote c.skipBlanks = .ok (.text s, c') := by
    simp only [readScalar, hread]
    rfl
  cases depth with
  | zero =>
    simp only [readNested, hpeek]
    exact hscalar
  | succ depth =>
    simp only [readNested, hpeek]
    exact hscalar

/-- **An object is read** as an arbitrary value if the values of its members are. -/
theorem takes_object {members : List (String × Value)} {texts : List (String × List Char)}
    (takes : TakesMembers (readNested depth) members texts) (object : ObjectText texts cs) :
    Takes (readNested (depth + 1)) cs (.object members) := by
  intro c ws tail blanks h _
  obtain @⟨inner, within⟩ := object
  have hopen : c.skipBlanks.rest = Ascii.openBrace :: (encode inner ++ tail) :=
    rest_skipBlanks_of blanks h rfl
  have hwithin : MembersText ([] : List (String × Value)).isEmpty texts inner := within
  obtain ⟨c₁, hmembers, hrest₁⟩ := readAnyMembers_of takes hwithin (rest_advance hopen)
    (Nat.le_refl _)
  obtain ⟨c', hclose, hrest⟩ := closeObject_of hrest₁
  refine ⟨c', ?_, hrest⟩
  have hne : (Ascii.openBrace == Ascii.openBracket) = false := rfl
  simp [readNested, peek?_of hopen, hne, hmembers, hclose, settle]

end OrderDesk.Json
