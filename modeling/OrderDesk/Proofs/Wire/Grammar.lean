import OrderDesk.Proofs.Wire.Field
import OrderDesk.Wire.Layout

/-!
# Well-formed fields

What may stand in a message, whether or not anybody knows it: a row of fields, each of which has a
key with a tag and a content that its key announces. A group holds a row of fields of its own and is
closed by a key with its tag. Numbers need not be written with the fewest bytes.

Skipping a field that nobody asked for takes exactly such a field, as long as its groups are not
nested too deep.

## Main definitions

* `Varint.Spells`, `Key.Spells`: the bytes of numbers and of keys
* `Content.Plain`: the bytes of contents other than groups
* `Fields`: rows of well-formed fields, by the depth of their groups and by their tags

## Main results

* `Varint.reads_of_spells`, `Varint.spells_of_read`: exactly these numbers are read
* `Content.skipPlain_plain`, `Content.plain_of_skipPlain`: exactly these contents are skipped
* `Fields.skip`, `Fields.of_skip`: exactly these fields are skipped
* `Fields.eq_of_append_eq`: a field is known by its beginning
-/

namespace OrderDesk.Wire

variable {bytes more rest content : List UInt8} {places n depth tag : Nat} {key : Key} {kind : Kind}

/-! ## Numbers -/

namespace Varint

/-- **Bytes that spell a number**, seven bits a byte and lowest first, in a number of places. They
need not be the fewest that do, and of the last place only one bit may be used. -/
inductive Spells : Nat → List UInt8 → Nat → Prop
  | last {places : Nat} {byte : UInt8} (small : byte < 0x80) (fits : places = 0 → byte < 2) :
      Spells (places + 1) [byte] byte.toNat
  | more {places n : Nat} {byte : UInt8} {bytes : List UInt8} (large : 0x80 ≤ byte)
      (spells : Spells places bytes n) :
      Spells (places + 1) (byte :: bytes) (byte.toNat - 128 + 128 * n)

theorem Spells.readWithin (h : Spells places bytes n) : Reads (readWithin places) bytes n := by
  intro rest
  induction h with
  | last small fits =>
    rw [List.singleton_append, Varint.readWithin, if_pos small,
      if_neg fun h => UInt8.not_le.mpr (fits h.1) h.2]
  | more large spells ih =>
    rw [List.cons_append, Varint.readWithin, if_neg (UInt8.not_lt.mpr large), ih]

/-- **What is read as a number spells it.** -/
theorem spells_of_readWithin (h : readWithin places bytes = .ok (n, rest)) :
    ∃ front, bytes = front ++ rest ∧ Spells places front n := by
  induction places generalizing bytes n with
  | zero => cases h
  | succ places ih =>
    cases bytes with
    | nil => cases h
    | cons byte bytes =>
      rw [readWithin] at h
      split at h
      · rename_i small
        split at h
        · cases h
        · rename_i fits
          cases h
          exact ⟨[byte], rfl, .last small fun hp => UInt8.not_le.mp fun h => fits ⟨hp, h⟩⟩
      · rename_i large
        split at h
        · rename_i n rest hread
          cases h
          obtain ⟨front, rfl, spells⟩ := ih hread
          exact ⟨byte :: front, rfl, .more (UInt8.not_lt.mp large) spells⟩
        · cases h

/-- **A spelled number is read.** -/
theorem reads_of_spells (h : Spells 10 bytes n) : Reads read bytes n :=
  h.readWithin

theorem spells_of_read (h : read bytes = .ok (n, rest)) :
    ∃ front, bytes = front ++ rest ∧ Spells 10 front n :=
  spells_of_readWithin h

theorem Spells.ne_nil (h : Spells places bytes n) : bytes ≠ [] := by
  cases h <;> simp

end Varint

/-! ## Keys -/

theorem Kind.number_of_ofNumber? (h : ofNumber? n = some kind) : kind.number = n := by
  unfold ofNumber? at h
  split at h <;> cases h <;> rfl

/-- **Bytes that spell a key**, which has a tag and fits in 32 bits. -/
structure Key.Spells (bytes : List UInt8) (key : Key) : Prop where
  number : Varint.Spells 10 bytes (key.tag * 8 + key.kind.number)
  pos : 0 < key.tag
  small : key.tag < 2 ^ 29

theorem Key.reads_of_spells (h : key.Spells bytes) : Reads Key.read bytes key := by
  intro rest
  obtain ⟨tag, kind⟩ := key
  obtain ⟨number, pos, small⟩ := h
  simp only at number pos small
  have hkind : kind.number < 8 := kind.number_lt
  have hmod : (tag * 8 + kind.number) % 8 = kind.number := by omega
  have hdiv : (tag * 8 + kind.number) / 8 = tag := by omega
  simp only [read, Varint.reads_of_spells number rest]
  rw [if_neg (by simp at small; omega), hmod, hdiv, kind.ofNumber?_number]
  simp only
  rw [if_neg (Nat.pos_iff_ne_zero.mp pos)]

/-- **What is read as a key spells it.** -/
theorem Key.spells_of_read (h : Key.read bytes = .ok (key, rest)) :
    ∃ front, bytes = front ++ rest ∧ key.Spells front := by
  unfold Key.read at h
  split at h
  · cases h
  · rename_i number rest' hread
    split at h
    · cases h
    · rename_i small
      split at h
      · cases h
      · rename_i kind hkind
        split at h
        · cases h
        · rename_i pos
          cases h
          obtain ⟨front, rfl, spells⟩ := Varint.spells_of_read hread
          have hnumber : kind.number = number % 8 := Kind.number_of_ofNumber? hkind
          refine ⟨front, rfl, ?_, Nat.pos_of_ne_zero pos, ?_⟩
          · simp only [hnumber, Nat.div_add_mod']
            exact spells
          · simp only
            omega

theorem Key.Spells.ne_nil (h : key.Spells bytes) : bytes ≠ [] :=
  h.number.ne_nil

/-! ## Contents -/

namespace Content

/-- **The content of a field** that is no group. -/
inductive Plain : Kind → List UInt8 → Prop
  | varint {n : Nat} {bytes : List UInt8} (spells : Varint.Spells 10 bytes n) : Plain .varint bytes
  | fixed64 {bytes : List UInt8} (length : bytes.length = 8) : Plain .fixed64 bytes
  | delimited {size bytes : List UInt8} (spells : Varint.Spells 10 size bytes.length) :
      Plain .delimited (size ++ bytes)
  | fixed32 {bytes : List UInt8} (length : bytes.length = 4) : Plain .fixed32 bytes

theorem Plain.ne_groupStart (h : Plain kind bytes) : kind ≠ .groupStart := by
  cases h <;> simp

theorem Plain.ne_groupEnd (h : Plain kind bytes) : kind ≠ .groupEnd := by
  cases h <;> simp

theorem take_append (h : bytes.length = n) (rest : List UInt8) :
    take n (bytes ++ rest) = .ok (bytes, rest) :=
  h ▸ reads_take bytes rest

/-- The bytes that are taken are the first ones. -/
theorem append_of_take (h : take n bytes = .ok (content, rest)) :
    bytes = content ++ rest ∧ content.length = n := by
  unfold take at h
  split at h
  · cases h
  · rename_i hlength
    cases h
    rw [List.take_append_drop, List.length_take]
    exact ⟨rfl, Nat.min_eq_left (Nat.not_lt.mp hlength)⟩

/-- **Bytes behind any spelling of their length** are read. -/
theorem reads_delimited_spells {size : List UInt8} (h : Varint.Spells 10 size content.length) :
    Reads delimited (size ++ content) content := by
  intro rest
  rw [List.append_assoc, delimited, Varint.reads_of_spells h]
  exact reads_take content rest

theorem spells_of_delimited (h : delimited bytes = .ok (content, rest)) :
    ∃ size, bytes = size ++ content ++ rest ∧ Varint.Spells 10 size content.length := by
  unfold delimited at h
  split at h
  · cases h
  · rename_i hread
    obtain ⟨size, rfl, spells⟩ := Varint.spells_of_read hread
    obtain ⟨rfl, rfl⟩ := append_of_take h
    exact ⟨size, (List.append_assoc ..).symm, spells⟩

/-- **Every plain content is skipped.** -/
theorem skipPlain_plain (h : Plain kind bytes) (rest : List UInt8) :
    skipPlain kind (bytes ++ rest) = .ok rest := by
  cases h with
  | varint spells => simp only [skipPlain, Varint.reads_of_spells spells rest, Except.map]
  | fixed64 length => simp only [skipPlain, take_append length, Except.map]
  | delimited spells => simp only [skipPlain, reads_delimited_spells spells rest, Except.map]
  | fixed32 length => simp only [skipPlain, take_append length, Except.map]

/-- A reader whose value is dropped. -/
theorem eq_ok_of_map {α : Type} {r : Except Fault (α × List UInt8)}
    (h : r.map (·.2) = .ok rest) : ∃ a, r = .ok (a, rest) := by
  cases r with
  | error e => cases h
  | ok p =>
    cases h
    exact ⟨p.1, rfl⟩

/-- **What is skipped is a plain content.** -/
theorem plain_of_skipPlain (h : skipPlain kind bytes = .ok rest) :
    ∃ front, bytes = front ++ rest ∧ Plain kind front := by
  unfold skipPlain at h
  cases kind with
  | varint =>
    obtain ⟨n, hread⟩ := eq_ok_of_map h
    obtain ⟨front, rfl, spells⟩ := Varint.spells_of_read hread
    exact ⟨front, rfl, .varint spells⟩
  | fixed64 =>
    obtain ⟨word, hread⟩ := eq_ok_of_map h
    obtain ⟨rfl, length⟩ := append_of_take hread
    exact ⟨word, rfl, .fixed64 length⟩
  | delimited =>
    obtain ⟨content, hread⟩ := eq_ok_of_map h
    obtain ⟨size, rfl, spells⟩ := spells_of_delimited hread
    exact ⟨_, rfl, .delimited spells⟩
  | fixed32 =>
    obtain ⟨word, hread⟩ := eq_ok_of_map h
    obtain ⟨rfl, length⟩ := append_of_take hread
    exact ⟨word, rfl, .fixed32 length⟩
  | groupStart => cases h
  | groupEnd => cases h

end Content

/-! ## Rows of fields -/

/-- **A row of well-formed fields**, by how deep its groups are nested and by its tags. A group
holds a row of fields and is closed with its own tag. -/
inductive Fields : Nat → List Nat → List UInt8 → Prop
  | nil {depth : Nat} : Fields depth [] []
  | plain {depth : Nat} {tags : List Nat} {front content rest : List UInt8} {key : Key}
      (spells : key.Spells front) (plain : Content.Plain key.kind content)
      (fields : Fields (depth + 1) tags rest) :
      Fields (depth + 1) (key.tag :: tags) (front ++ content ++ rest)
  | group {depth tag : Nat} {inside tags : List Nat} {front content back rest : List UInt8}
      (opens : Key.Spells front ⟨tag, .groupStart⟩) (fills : Fields depth inside content)
      (closes : Key.Spells back ⟨tag, .groupEnd⟩) (fields : Fields (depth + 1) tags rest) :
      Fields (depth + 1) (tag :: tags) (front ++ content ++ back ++ rest)

namespace Fields

variable {tags inside outer : List Nat} {fuel front back : List UInt8} {limit : Nat}

/-- **One plain field.** -/
theorem one_plain (spells : key.Spells front) (plain : Content.Plain key.kind content) :
    Fields (depth + 1) [key.tag] (front ++ content) := by
  have hrow : Fields (depth + 1) [key.tag] (front ++ content ++ []) := .plain spells plain .nil
  rwa [List.append_nil] at hrow

/-- **One group.** -/
theorem one_group (opens : Key.Spells front ⟨tag, .groupStart⟩)
    (fills : Fields depth inside content) (closes : Key.Spells back ⟨tag, .groupEnd⟩) :
    Fields (depth + 1) [tag] (front ++ content ++ back) := by
  have hrow : Fields (depth + 1) [tag] (front ++ content ++ back ++ []) :=
    .group opens fills closes .nil
  rwa [List.append_nil] at hrow

theorem succ (h : Fields depth tags bytes) : Fields (depth + 1) tags bytes := by
  induction h with
  | nil => exact .nil
  | plain spells plain _ ih => exact .plain spells plain ih
  | group opens _ closes _ ihfills ih => exact .group opens ihfills closes ih

/-- **What may be nested less deep** may be nested deeper. -/
theorem mono (h : Fields depth tags bytes) (hle : depth ≤ limit) : Fields limit tags bytes := by
  induction hle with
  | refl => exact h
  | step _ ih => exact ih.succ

/-- **A row falls into its fields.** -/
theorem cons_iff : Fields depth (tag :: tags) bytes ↔
    ∃ field rest, bytes = field ++ rest ∧ Fields depth [tag] field ∧ Fields depth tags rest := by
  constructor
  · intro h
    cases h with
    | plain spells plain fields => exact ⟨_, _, rfl, one_plain spells plain, fields⟩
    | group opens fills closes fields => exact ⟨_, _, rfl, one_group opens fills closes, fields⟩
  · rintro ⟨field, rest, rfl, hfield, hrest⟩
    cases hfield with
    | plain spells plain fields =>
      cases fields
      rw [List.append_nil]
      exact .plain spells plain hrest
    | group opens fills closes fields =>
      cases fields
      rw [List.append_nil]
      exact .group opens fills closes hrest

theorem ne_nil (h : Fields depth (tag :: tags) bytes) : bytes ≠ [] := by
  cases h with
  | plain spells _ _ => simp [spells.ne_nil]
  | group opens _ _ _ => simp [opens.ne_nil]

/-! ## Skipping -/

/-- Every key that is read takes one of the steps that the bytes bound. -/
theorem exists_step (ne : front ≠ []) (hfuel : (front ++ rest).length ≤ fuel.length) :
    ∃ step fuel', fuel = step :: fuel' ∧ rest.length ≤ fuel'.length := by
  have hpos : 0 < front.length := List.length_pos_iff.mpr ne
  rw [List.length_append] at hfuel
  cases fuel with
  | nil =>
    rw [List.length_nil] at hfuel
    omega
  | cons step fuel =>
    rw [List.length_cons] at hfuel
    exact ⟨step, fuel, rfl, by omega⟩

section Steps

variable {step : UInt8}

theorem skipGroups_plain (spells : key.Spells front) (plain : Content.Plain key.kind content)
    (deep : outer.length + 1 < limit) :
    Content.skipGroups limit (step :: fuel) (tag :: outer) (front ++ (content ++ rest)) =
      Content.skipGroups limit fuel (tag :: outer) rest := by
  rw [Content.skipGroups, Key.reads_of_spells spells]
  simp only [if_neg plain.ne_groupEnd, if_neg (Nat.not_le.mpr deep), if_neg plain.ne_groupStart,
    Content.skipPlain_plain plain]

theorem skipGroups_opens (spells : Key.Spells front ⟨n, .groupStart⟩)
    (deep : outer.length + 1 < limit) :
    Content.skipGroups limit (step :: fuel) (tag :: outer) (front ++ rest) =
      Content.skipGroups limit fuel (n :: tag :: outer) rest := by
  rw [Content.skipGroups, Key.reads_of_spells spells]
  simp only [reduceCtorEq, if_false, if_neg (Nat.not_le.mpr deep), if_true]

theorem skipGroups_closes (spells : Key.Spells front ⟨tag, .groupEnd⟩) :
    Content.skipGroups limit (step :: fuel) (tag :: outer) (front ++ rest) =
      Content.skipGroups limit fuel outer rest := by
  rw [Content.skipGroups, Key.reads_of_spells spells]
  simp only [if_true]

end Steps

/-- **A row inside groups is skipped**, as deep as they are nested. The bytes that are still to be
read bound the keys. -/
theorem skipGroups (h : Fields depth inside bytes) (deep : depth + (outer.length + 1) ≤ limit)
    (hfuel : (bytes ++ rest).length ≤ fuel.length) : ∃ fuel', rest.length ≤ List.length fuel' ∧
      Content.skipGroups limit fuel (tag :: outer) (bytes ++ rest) =
        Content.skipGroups limit fuel' (tag :: outer) rest := by
  induction h generalizing tag outer fuel rest with
  | nil => exact ⟨fuel, hfuel, rfl⟩
  | @plain depth tags front content bytes key spells plain _ ih =>
    simp only [List.append_assoc] at hfuel ⊢
    obtain ⟨step, fuel₁, rfl, hfuel₁⟩ := exists_step spells.ne_nil hfuel
    rw [skipGroups_plain spells plain (by omega)]
    have hrest : (bytes ++ rest).length ≤ (content ++ (bytes ++ rest)).length :=
      (List.suffix_append content _).length_le
    exact ih deep (Nat.le_trans hrest hfuel₁)
  | @group depth inner inside tags front content back bytes opens _ closes _ ihfills ih =>
    simp only [List.append_assoc] at hfuel ⊢
    obtain ⟨step, fuel₁, rfl, hfuel₁⟩ := exists_step opens.ne_nil hfuel
    obtain ⟨fuel₂, hfuel₂, hfills⟩ := @ihfills _ inner (tag :: outer) _
      (by rw [List.length_cons]; omega) hfuel₁
    obtain ⟨step', fuel₃, rfl, hfuel₃⟩ := exists_step closes.ne_nil hfuel₂
    rw [skipGroups_opens opens (by omega), hfills, skipGroups_closes closes]
    exact ih deep hfuel₃

/-- **What the groups that are open still demand**, the innermost first: a row of fields and the
closing key of each. -/
inductive Closes (limit : Nat) : List Nat → List UInt8 → Prop
  | nil : Closes limit [] []
  | cons {tag : Nat} {outer inside : List Nat} {content back rest : List UInt8}
      (fills : Fields (limit - (outer.length + 1)) inside content)
      (closes : Key.Spells back ⟨tag, .groupEnd⟩) (more : Closes limit outer rest) :
      Closes limit (tag :: outer) (content ++ back ++ rest)

/-- A field in front of what an open group demands. -/
theorem Closes.field {field : List UInt8}
    (hfield : Fields (limit - (outer.length + 1)) [n] field)
    (h : Closes limit (tag :: outer) bytes) : Closes limit (tag :: outer) (field ++ bytes) := by
  cases h with
  | cons fills closes more =>
    have hrow := cons_iff.mpr ⟨_, _, rfl, hfield, fills⟩
    simpa using Closes.cons hrow closes more

/-- A group in front of what the one around it demands. -/
theorem Closes.group (opens : Key.Spells front ⟨n, .groupStart⟩) (deep : outer.length + 1 < limit)
    (h : Closes limit (n :: tag :: outer) bytes) : Closes limit (tag :: outer) (front ++ bytes) := by
  cases h with
  | @cons _ _ inside content back rest fills ends more =>
    have hdepth : limit - (outer.length + 1) = limit - ((tag :: outer).length + 1) + 1 := by
      rw [List.length_cons]
      omega
    have hgroup := hdepth ▸ one_group opens fills ends
    simpa only [List.append_assoc] using more.field hgroup

/-- **What one step takes**: the end of the innermost group, the start of another one, or a plain
field. Only the end of a group may stand too deep. -/
theorem step_of_skipGroups {step : UInt8}
    (h : Content.skipGroups limit (step :: fuel) (tag :: outer) bytes = .ok rest) :
    ∃ (key : Key) (front behind : List UInt8), bytes = front ++ behind ∧ key.Spells front ∧
      (key = ⟨tag, .groupEnd⟩ ∧ Content.skipGroups limit fuel outer behind = .ok rest ∨
        outer.length + 1 < limit ∧
          (key.kind = .groupStart ∧
              Content.skipGroups limit fuel (key.tag :: tag :: outer) behind = .ok rest ∨
            ∃ content left, behind = content ++ left ∧ Content.Plain key.kind content ∧
              Content.skipGroups limit fuel (tag :: outer) left = .ok rest)) := by
  rw [Content.skipGroups] at h
  split at h
  · cases h
  · rename_i key behind hread
    obtain ⟨front, rfl, spells⟩ := Key.spells_of_read hread
    refine ⟨key, front, behind, rfl, spells, ?_⟩
    split at h
    · rename_i hkind
      split at h
      · rename_i htag
        obtain ⟨tag, kind⟩ := key
        exact .inl ⟨by rw [← hkind, ← htag], h⟩
      · cases h
    · split at h
      · cases h
      · rename_i hdepth
        refine .inr ⟨by omega, ?_⟩
        split at h
        · rename_i hkind
          exact .inl ⟨hkind, h⟩
        · split at h
          · cases h
          · rename_i left hskip
            obtain ⟨content, rfl, plain⟩ := Content.plain_of_skipPlain hskip
            exact .inr ⟨content, left, rfl, plain, h⟩

/-- **What is skipped closes the groups that are open.** -/
theorem closes_of_skipGroups {stack : List Nat}
    (h : Content.skipGroups limit fuel stack bytes = .ok rest) :
    ∃ front, bytes = front ++ rest ∧ Closes limit stack front := by
  induction fuel generalizing stack bytes with
  | nil =>
    cases stack with
    | nil =>
      cases h
      exact ⟨[], rfl, .nil⟩
    | cons tag outer => cases h
  | cons step fuel ih =>
    cases stack with
    | nil =>
      cases h
      exact ⟨[], rfl, .nil⟩
    | cons tag outer =>
      obtain ⟨key, front, behind, rfl, spells, ⟨rfl, hnext⟩ | ⟨deep, hinner⟩⟩ :=
        step_of_skipGroups h
      · -- the innermost group ends
        obtain ⟨more, rfl, closes⟩ := ih hnext
        exact ⟨front ++ more, (List.append_assoc ..).symm, .cons .nil spells closes⟩
      · obtain ⟨ktag, kind⟩ := key
        rcases hinner with ⟨rfl, hnext⟩ | ⟨content, left, rfl, plain, hnext⟩
        · -- another group begins, and what closes it closes the others as well
          obtain ⟨more, rfl, closes⟩ := ih hnext
          exact ⟨front ++ more, (List.append_assoc ..).symm, closes.group spells deep⟩
        · obtain ⟨more, rfl, closes⟩ := ih hnext
          have hdepth : limit - (outer.length + 1) = limit - (outer.length + 2) + 1 := by omega
          have hfield := hdepth ▸ one_plain spells plain
          refine ⟨front ++ content ++ more, ?_, closes.field hfield⟩
          simp only [List.append_assoc]

/-- **A field is skipped** behind its key. -/
theorem skip (h : Fields depth [tag] bytes) (hle : depth ≤ limit) (rest : List UInt8) :
    ∃ key front content, bytes = front ++ content ∧ key.Spells front ∧ key.tag = tag ∧
      Content.skip limit key (content ++ rest) = .ok rest := by
  cases h with
  | @plain depth _ front content _ key spells plain fields =>
    cases fields
    refine ⟨key, front, content, by simp, spells, rfl, ?_⟩
    rw [Content.skip, if_neg (by omega), if_neg plain.ne_groupStart,
      Content.skipPlain_plain plain]
  | @group depth _ inside _ front content back _ opens fills closes fields =>
    cases fields
    refine ⟨_, front, content ++ back, by simp, opens, rfl, ?_⟩
    have hfuel : (content ++ (back ++ rest)).length ≤ (0 :: (content ++ (back ++ rest))).length :=
      Nat.le_succ _
    obtain ⟨fuel, hfuel, hfills⟩ := @skipGroups _ _ _ tag _ [] _ limit fills
      (by rw [List.length_nil]; omega) hfuel
    obtain ⟨step, fuel, rfl, -⟩ := exists_step closes.ne_nil hfuel
    rw [List.append_assoc, Content.skip, if_neg (by omega), if_pos rfl, hfills,
      skipGroups_closes closes]
    cases fuel <;> rfl

/-- **What is skipped behind a key is a field.** -/
theorem of_skip (spells : key.Spells front) (h : Content.skip limit key bytes = .ok rest) :
    ∃ content, bytes = content ++ rest ∧ Fields limit [key.tag] (front ++ content) := by
  unfold Content.skip at h
  split at h
  · cases h
  · rename_i hpos
    obtain ⟨depth, rfl⟩ := Nat.exists_eq_succ_of_ne_zero hpos
    obtain ⟨tag, kind⟩ := key
    split at h
    · rename_i hkind
      simp only at hkind
      subst hkind
      obtain ⟨content, rfl, closes⟩ := closes_of_skipGroups h
      cases closes with
      | cons fills ends more =>
        cases more
        refine ⟨_, rfl, ?_⟩
        rw [List.append_nil, ← List.append_assoc]
        exact one_group spells fills ends
    · obtain ⟨content, rfl, plain⟩ := Content.plain_of_skipPlain h
      exact ⟨content, rfl, one_plain spells plain⟩

/-- **A field is known by its beginning**, so two fields that begin the same bytes are one. -/
theorem eq_of_append_eq {depth' tag' : Nat} {bytes' rest' : List UInt8}
    (h : Fields depth [tag] bytes) (h' : Fields depth' [tag'] bytes')
    (heq : bytes ++ rest = bytes' ++ rest') : bytes = bytes' ∧ rest = rest' := by
  obtain ⟨key, front, content, rfl, spells, -, hskip⟩ := h.skip (Nat.le_max_left depth depth') rest
  obtain ⟨key', front', content', rfl, spells', -, hskip'⟩ :=
    h'.skip (Nat.le_max_right depth depth') rest'
  have hread := Key.reads_of_spells spells (content ++ rest)
  have hread' := Key.reads_of_spells spells' (content' ++ rest')
  rw [← List.append_assoc, heq, List.append_assoc, hread'] at hread
  simp only [Except.ok.injEq, Prod.mk.injEq] at hread
  obtain ⟨rfl, hcontent⟩ := hread
  rw [← hcontent, hskip'] at hskip
  cases hskip
  exact ⟨List.append_cancel_right heq, rfl⟩

end Fields

end OrderDesk.Wire
