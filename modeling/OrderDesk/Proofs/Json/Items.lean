import OrderDesk.Proofs.Json.Value

/-!
# Lists and optional values that are read

A list is read if each of its items is, with any blanks between the tokens. An optional value is
read as the word for nothing or as a value, which its first character tells apart.

## Main definitions

* `ItemsText`, `ListText`: the texts of a list, by the texts of its items

## Main results

* `takes_list`: a list whose items are read
* `takes_null`, `takes_some`: an optional value
* `listText_renderChars`: the compact text of a list
-/

namespace OrderDesk.Json

open Text Text.Utf8 Cursor

variable {α : Type} {c : Cursor} {tail rest : List UInt8} {cs ws vs : List Char} {first : Bool}
  {byte : UInt8}

/-! ## The texts of lists -/

/-- **The items of a list**, from the first one or from a later one on, with the closing bracket. -/
inductive ItemsText : Bool → List (List Char) → List Char → Prop
  | close {first : Bool} {ws : List Char} (blanks : Blanks ws) : ItemsText first [] (ws ++ [']'])
  | item {first : Bool} {vs : List Char} {items : List (List Char)} {ws lead rest : List Char}
    (before : Blanks ws) (ahead : Blanks lead) (others : ItemsText false items rest) :
    ItemsText first (vs :: items) (ws ++ (comma first ++ (lead ++ (vs ++ rest))))

/-- **A list** with its items. -/
inductive ListText (items : List (List Char)) : List Char → Prop
  | mk {inner : List Char} (within : ItemsText true items inner) : ListText items ('[' :: inner)

/-- Nothing behind an item goes on with a number. -/
theorem ItemsText.stops {items : List (List Char)} (h : ItemsText false items cs) :
    Stops (encode cs ++ tail) := by
  cases h with
  | close blanks =>
    rw [encode_append, List.append_assoc]
    exact Stops.of_blanks blanks ⟨rfl, by decide, rfl⟩
  | item before ahead others =>
    rw [encode_append, List.append_assoc]
    exact Stops.of_blanks before ⟨rfl, by decide, rfl⟩

/-- There is always the closing bracket to come. -/
theorem ItemsText.pos {items : List (List Char)} (h : ItemsText first items cs) :
    0 < (encode cs ++ tail).length := by
  rw [List.length_append]
  refine Nat.add_pos_left ?_ _
  induction h with
  | close blanks =>
    rw [encode_append, List.length_append]
    exact Nat.add_pos_right _ (Nat.succ_pos _)
  | item before ahead others ih =>
    simp only [encode_append, List.length_append]
    omega

/-! ## The marks of a list -/

/-- **A list goes on** with an item, behind a comma unless it is the first one. -/
theorem listHasNext_item {lead : List Char} (first : Bool) (before : Blanks ws)
    (ahead : Blanks lead) (notBlank : isBlank byte = false) (item : byte ≠ Ascii.closeBracket)
    (h : c.rest = encode ws ++ (encode (comma first) ++ (encode lead ++ byte :: rest))) :
    ∃ c', c.listHasNext first = .ok (true, c') ∧ c'.rest = byte :: rest := by
  cases first with
  | true =>
    have hlead : c.rest = encode (ws ++ lead) ++ byte :: rest := by
      rw [h, encode_append, List.append_assoc]
      rfl
    have hrest := rest_skipBlanks_of (before.append ahead) hlead notBlank
    refine ⟨c.skipBlanks, ?_, hrest⟩
    simp [listHasNext, peek?_of hrest, item]
  | false =>
    have hcomma : c.skipBlanks.rest = Ascii.comma :: (encode lead ++ byte :: rest) :=
      rest_skipBlanks_of before h rfl
    have hrest := rest_skipBlanks_of ahead (rest_advance hcomma) notBlank
    have hother : Ascii.comma ≠ Ascii.closeBracket := by decide
    refine ⟨c.skipBlanks.advance.skipBlanks, ?_, hrest⟩
    simp [listHasNext, peek?_of hcomma, hother, peek?_of hrest, item]

/-- **A list ends** with its closing bracket. -/
theorem listHasNext_close (first : Bool) (blanks : Blanks ws)
    (h : c.rest = encode ws ++ Ascii.closeBracket :: rest) :
    ∃ c', c.listHasNext first = .ok (false, c') ∧ c'.rest = Ascii.closeBracket :: rest := by
  have hrest := rest_skipBlanks_of blanks h rfl
  refine ⟨c.skipBlanks, ?_, hrest⟩
  simp [listHasNext, peek?_of hrest]

theorem closeList_of (h : c.rest = Ascii.closeBracket :: rest) :
    ∃ c', c.closeList = (.ok (), c') ∧ c'.rest = rest := by
  have hrest := rest_skipBlanks_of blanks_nil h rfl
  refine ⟨c.skipBlanks.advance, ?_, rest_advance hrest⟩
  simp [closeList, peek?_of hrest]

/-! ## Lists -/

variable {read : Cursor → Except Error (α × Cursor)}

/-- The reader of the items takes the texts of the items for their values. -/
def TakesItems (read : Cursor → Except Error (α × Cursor)) : List α → List (List Char) → Prop :=
  List.Forall₂ fun a text => Wellformed .value text ∧ Takes read text a

/-- **The items of a list are read** one by one, onto those that were read before. -/
theorem readItems_of {items : List α} {texts : List (List Char)}
    (takes : TakesItems read items texts) (earlier : List α) (count : Nat)
    (text : ItemsText (count == 0) texts cs) {fuel : List UInt8} (h : c.rest = encode cs ++ tail)
    (hfuel : c.rest.length ≤ fuel.length) :
    ∃ c', readItems read earlier count fuel c = .ok (earlier.reverse ++ items, c') ∧
      c'.rest = Ascii.closeBracket :: tail := by
  induction takes generalizing earlier count cs c fuel with
  | nil =>
    obtain ⟨step, fuel, rfl, -⟩ := exists_step (h ▸ text.pos) hfuel
    cases text with
    | close blanks =>
      rw [encode_append, List.append_assoc] at h
      obtain ⟨c', hnext, hrest⟩ := listHasNext_close (count == 0) blanks h
      exact ⟨c', by simp only [readItems, hnext, List.append_nil], hrest⟩
  | @cons a vs _ _ head _ ih =>
    obtain ⟨wellformed, takes⟩ := head
    obtain ⟨byte, bytes, hbytes, notBlank, item⟩ := wellformed.start
    cases text with
    | @item _ _ _ _ _ rest before ahead others =>
      simp only [encode_append, List.append_assoc, hbytes, List.cons_append] at h
      obtain ⟨c₁, hnext, hrest₁⟩ := listHasNext_item _ before ahead notBlank item h
      have hitem : c₁.rest = encode [] ++ (encode vs ++ (encode rest ++ tail)) := by
        rw [hrest₁, hbytes]
        rfl
      obtain ⟨c₂, hread, hrest₂⟩ := takes blanks_nil hitem others.stops
      have hlt : (encode rest ++ tail).length < c.rest.length := by
        rw [h]
        simp only [List.length_append, List.length_cons]
        omega
      obtain ⟨step, fuel, rfl, hfuel₂⟩ := exists_step hlt hfuel
      have hothers : ItemsText (count + 1 == 0) _ rest := others
      obtain ⟨c', hitems, hrest⟩ := ih (a :: earlier) (count + 1) hothers hrest₂ (hrest₂ ▸ hfuel₂)
      refine ⟨c', ?_, hrest⟩
      simp only [readItems, hnext, hread, inside, hitems, List.reverse_cons, List.append_assoc,
        List.singleton_append]

/-- **A list is read** if its items are. -/
theorem takes_list {items : List α} {texts : List (List Char)}
    (takes : TakesItems read items texts) (list : ListText texts cs) :
    Takes (readList read) cs items := by
  intro c ws tail blanks h _
  obtain @⟨inner, within⟩ := list
  have hopen : c.skipBlanks.rest = Ascii.openBracket :: (encode inner ++ tail) :=
    rest_skipBlanks_of blanks h rfl
  obtain ⟨c₁, hitems, hrest₁⟩ := readItems_of takes [] 0 within
    (rest_advance hopen) (Nat.le_refl _)
  obtain ⟨c', hclose, hrest⟩ := closeList_of hrest₁
  refine ⟨c', ?_, hrest⟩
  simp [readList, peek?_of hopen, hitems, hclose, settle]

/-! ## Optional values -/

/-- **Nothing** is read as such. -/
theorem takes_null : Takes (readOption read) ['n', 'u', 'l', 'l'] none := by
  intro c ws tail blanks h _
  have hrest : c.skipBlanks.rest = Ascii.lowerN :: ([0x75, 0x6C, 0x6C] ++ tail) :=
    rest_skipBlanks_of blanks h rfl
  obtain ⟨c', hword, hrest'⟩ := word_of _ (rest_advance hrest)
  refine ⟨c', ?_, hrest'⟩
  simp [readOption, looksAt_of hrest, hword]

/-- **A value** is read if it cannot be taken for nothing. -/
theorem takes_some {a : α} (takes : Takes read cs a)
    (start : ∃ byte bytes, encode cs = byte :: bytes ∧ isBlank byte = false ∧
      byte ≠ Ascii.lowerN) : Takes (readOption read) cs (some a) := by
  intro c ws tail blanks h stops
  obtain ⟨byte, bytes, hbytes, notBlank, other⟩ := start
  have hrest : c.skipBlanks.rest = byte :: (bytes ++ tail) := by
    rw [hbytes] at h
    exact rest_skipBlanks_of blanks h notBlank
  have hvalue : c.skipBlanks.rest = encode [] ++ (encode cs ++ tail) := by
    rw [hrest, hbytes]
    rfl
  obtain ⟨c', hread, hrest'⟩ := takes blanks_nil hvalue stops
  refine ⟨c', ?_, hrest'⟩
  simp [readOption, looksAt_of hrest, other, hread]

/-- A string cannot be taken for nothing. -/
theorem Quotes.start {s : String} (quotes : Quotes s cs) :
    ∃ byte bytes, encode cs = byte :: bytes ∧ isBlank byte = false ∧ byte ≠ Ascii.lowerN := by
  obtain ⟨bytes, hbytes⟩ := quotes.stringText.start
  exact ⟨_, bytes, hbytes, rfl, by decide⟩

/-! ## Compact texts -/

theorem itemsText_renderItems (first : Bool) (v : Value) (items : List Value) :
    ItemsText first ((v :: items).map Value.renderChars)
      (comma first ++ (Value.renderChars.renderItems (v :: items) ++ [']'])) := by
  induction items generalizing first v with
  | nil =>
    have hclose : ItemsText false [] ([] ++ [']']) := .close blanks_nil
    have hitem : ItemsText first [v.renderChars] _ := .item blanks_nil blanks_nil hclose
    simpa [Value.renderChars.renderItems] using hitem
  | cons w items ih =>
    have hitem : ItemsText first (v.renderChars :: (w :: items).map Value.renderChars) _ :=
      .item blanks_nil blanks_nil (ih false w)
    simpa [Value.renderChars.renderItems, comma] using hitem

/-- **The compact text of a list** is a list of the texts of its items. -/
theorem listText_renderChars (items : List Value) :
    ListText (items.map Value.renderChars) (Value.list items).renderChars := by
  cases items with
  | nil => exact .mk (.close blanks_nil)
  | cons v items => exact .mk (itemsText_renderItems true v items)

/-- **A list of strings** is read from its compact text. -/
theorem takes_strings (texts : List String) :
    Takes (readList readString) (Value.list (texts.map .text)).renderChars texts := by
  refine takes_list ?_ (listText_renderChars _)
  induction texts with
  | nil => exact .nil
  | cons s texts ih =>
    have quotes := quotes_quotedChars s
    exact .cons ⟨.string quotes.stringText, takes_string quotes⟩ ih

/-- **An optional value** that is written as a string is read from its compact text. -/
theorem takes_ofOption {f : α → Value} (text : ∀ a, ∃ s, f a = .text s)
    (takes : ∀ a, Takes read (f a).renderChars a) (o : Option α) :
    Takes (readOption read) (Value.ofOption f o).renderChars o := by
  rcases o with _ | a
  · exact takes_null
  · obtain ⟨s, hs⟩ := text a
    have start := (quotes_quotedChars s).start
    refine takes_some (takes a) ?_
    show ∃ byte bytes, encode (f a).renderChars = byte :: bytes ∧ _
    rw [hs]
    exact start

end OrderDesk.Json
