import OrderDesk.Proofs.Wire.Grammar
import OrderDesk.Proofs.Wire.Layout

/-!
# Fields that nobody asked for

A layout reads a message field by field, and each of its slots takes exactly the content that the
key announces. So whatever stands between two fields of a message can be told from the fields alone,
and a field that the layout does not know may stand there too without changing what is read.

## Main definitions

* `Slot.Exact`, `Layout.Exact`: slots that take exactly their contents

## Main results

* `Slot.exact_text`, `Slot.exact_double`, `Layout.Exact.message`: the slots of messages do
* `Takes.of_readFields`, `decode_iff`: what is read is a row of fields
* `Takes.split`: a row is read up to the end of any of its fields
* `Widened.decode`, `Widened.takes_inside`: an unknown field between two others, and in a message
  inside
-/

namespace OrderDesk.Wire

variable {M N α : Type} {depth after tag level : Nat} {v w : M} {tags : List Nat}
  {bytes more rest field front back fuel : List UInt8} {kind : Kind}

/-! ## Slots -/

/-- **A slot that takes exactly its content**: of whatever it reads, a content of its kind, and it
reads that in the same way whatever follows. -/
def Slot.Exact (slot : Slot M) : Prop :=
  ∀ ⦃depth : Nat⦄ ⦃v w : M⦄ ⦃bytes rest : List UInt8⦄, slot.read depth v bytes = .ok (w, rest) →
    ∃ content, bytes = content ++ rest ∧ Content.Plain slot.kind content ∧
      ∀ rest, slot.read depth v (content ++ rest) = .ok (w, rest)

/-- **A layout whose slots take exactly their contents.** -/
def Layout.Exact (layout : Layout M) : Prop :=
  ∀ ⦃tag : Nat⦄ ⦃slot : Slot M⦄, layout.slot? tag = some slot → slot.Exact

namespace Slot

theorem exact_plain {name : String} {content : List UInt8 → Except Fault (α × List UInt8)}
    {put : M → α → M}
    (h : ∀ bytes a rest, content bytes = .ok (a, rest) →
      ∃ front, bytes = front ++ rest ∧ Content.Plain kind front ∧ Reads content front a) :
    (plain name kind content put).Exact := by
  intro depth v w bytes rest hread
  simp only [plain] at hread
  split at hread
  · cases hread
  · rename_i a rest hcontent
    cases hread
    obtain ⟨front, rfl, hplain, hreads⟩ := h bytes a rest hcontent
    refine ⟨front, rfl, hplain, fun rest => ?_⟩
    simp only [plain, hreads rest]

theorem exact_text (name : String) (put : M → String → M) : (text name put).Exact := by
  refine exact_plain fun bytes t rest h => ?_
  unfold Content.text at h
  split at h
  · cases h
  · rename_i content rest' hcontent
    split at h
    · cases h
    · rename_i htext
      cases h
      obtain ⟨size, rfl, spells⟩ := Content.spells_of_delimited hcontent
      refine ⟨_, rfl, .delimited spells, fun rest => ?_⟩
      rw [Content.text, Content.reads_delimited_spells spells rest]
      simp only [htext]

theorem exact_double (name : String) (put : M → UInt64 → M) : (double name put).Exact := by
  refine exact_plain fun bytes word rest h => ?_
  unfold Content.fixed64 at h
  split at h
  · cases h
  · rename_i content rest' hcontent
    cases h
    obtain ⟨rfl, length⟩ := Content.append_of_take hcontent
    refine ⟨content, rfl, .fixed64 length, fun rest => ?_⟩
    rw [Content.fixed64, Content.take_append length]

/-- What is read of a message inside is put into the one around it. -/
theorem eq_ok_of_message {inner : Layout N} {name : String} {get : M → N} {put : M → N → M}
    (h : (message name inner get put).read depth v bytes = .ok (w, rest)) :
    ∃ n, inner.readDelimited depth (get v) bytes = .ok (n, rest) ∧ put v n = w := by
  simp only [message] at h
  split at h
  · cases h
  · rename_i n rest hread
    cases h
    exact ⟨n, hread, rfl⟩

end Slot

namespace Layout

variable {layout : Layout M}

/-! ## One field -/

/-- **A field that nobody asked for** changes nothing. -/
theorem readField_unknown (h : Fields level [tag] field) (deep : level ≤ depth)
    (unknown : layout.slot? tag = none) (v : M) (rest : List UInt8) :
    layout.readField depth v (field ++ rest) = .ok (v, rest) := by
  obtain ⟨key, front, content, rfl, spells, rfl, hskip⟩ := h.skip deep rest
  rw [List.append_assoc, readField, Key.reads_of_spells spells]
  simp only [unknown, hskip]

/-- **A key leads to the slot** of its tag. -/
theorem readField_known {slot : Slot M} {key : Key} (known : layout.slot? key.tag = some slot)
    (spells : key.Spells front) (hkind : key.kind = slot.kind) (v : M) (bytes : List UInt8) :
    layout.readField depth v (front ++ bytes) =
      (slot.read depth v bytes).mapError (·.within layout.name slot.name) := by
  rw [readField, Key.reads_of_spells spells]
  simp only [known, hkind, if_true]

theorem eq_ok_of_mapError {ε ε' : Type} {r : Except ε α} {f : ε → ε'} {a : α}
    (h : r.mapError f = .ok a) : r = .ok a := by
  cases r with
  | error e => cases h
  | ok b =>
    cases h
    rfl

/-- **One field of those that are read** is well-formed, and is read in the same way whatever
follows. -/
theorem field_of_readField (exact : layout.Exact)
    (h : layout.readField depth v bytes = .ok (w, rest)) :
    ∃ tag field, bytes = field ++ rest ∧ Fields (depth + 1) [tag] field ∧
      ∀ rest, layout.readField depth v (field ++ rest) = .ok (w, rest) := by
  cases hkey : Key.read bytes with
  | error fault =>
    rw [readField, hkey] at h
    cases h
  | ok p =>
    obtain ⟨key, behind⟩ := p
    obtain ⟨front, rfl, spells⟩ := Key.spells_of_read hkey
    cases known : layout.slot? key.tag with
    | none =>
      simp only [readField, hkey, known] at h
      split at h
      · cases h
      · rename_i hskip
        cases h
        obtain ⟨content, rfl, hfields⟩ := Fields.of_skip spells hskip
        exact ⟨_, front ++ content, by simp, hfields.succ,
          readField_unknown hfields (Nat.le_refl _) known v⟩
    | some slot =>
      by_cases hkind : key.kind = slot.kind
      · rw [readField_known known spells hkind] at h
        obtain ⟨content, rfl, plain, hreads⟩ := exact known (eq_ok_of_mapError h)
        refine ⟨_, front ++ content, by simp, .one_plain spells (hkind ▸ plain), fun rest => ?_⟩
        rw [List.append_assoc, readField_known known spells hkind, hreads rest]
        rfl
      · simp only [readField, hkey, known, if_neg hkind] at h
        cases h

/-- **A well-formed field** is all that is read of what begins with it. -/
theorem readField_append (exact : layout.Exact) (hfield : Fields level [tag] field)
    (h : layout.readField depth v (field ++ more) = .ok (w, rest)) :
    rest = more ∧ ∀ rest, layout.readField depth v (field ++ rest) = .ok (w, rest) := by
  obtain ⟨tag', field', heq, hfield', hreads⟩ := field_of_readField exact h
  obtain ⟨rfl, rfl⟩ := hfield.eq_of_append_eq hfield' heq
  exact ⟨rfl, hreads⟩

/-! ## Rows -/

/-- A message that ends. -/
theorem Takes.of_end
    (h : (if bytes.length = after then .ok (v, bytes) else .error ⟨[], .overrun⟩ :
      Except Error (M × List UInt8)) = .ok (w, rest)) :
    ∃ tags row, bytes = row ++ rest ∧ rest.length = after ∧ Fields (depth + 1) tags row ∧
      layout.Takes depth v row w := by
  split at h
  · rename_i hlength
    cases h
    exact ⟨[], [], rfl, hlength, .nil, .nil⟩
  · cases h

/-- **What is read is a row of fields** up to where the message ends. -/
theorem Takes.of_readFields (exact : layout.Exact)
    (h : layout.readFields depth after fuel v bytes = .ok (w, rest)) :
    ∃ tags row, bytes = row ++ rest ∧ rest.length = after ∧ Fields (depth + 1) tags row ∧
      layout.Takes depth v row w := by
  induction fuel generalizing v bytes with
  | nil => exact Takes.of_end h
  | cons step fuel ih =>
    rw [Layout.readFields] at h
    split at h
    · split at h
      · cases h
      · rename_i x behind hfield
        obtain ⟨tag, field, rfl, wellformed, hreads⟩ := field_of_readField exact hfield
        obtain ⟨tags, row, rfl, hlength, hrow, htakes⟩ := ih h
        exact ⟨tag :: tags, field ++ row, by simp, hlength,
          Fields.cons_iff.mpr ⟨_, _, rfl, wellformed, hrow⟩,
          (Takes.field wellformed.ne_nil hreads).append htakes⟩
    · exact Takes.of_end h

/-- **A message of some bytes** is a row of fields that turns the empty message into it. -/
theorem decode_iff (exact : layout.Exact) :
    layout.decode bytes = .ok w ↔ layout.Takes maxDepth layout.empty bytes w := by
  refine ⟨fun h => ?_, Takes.decode⟩
  unfold decode at h
  cases hread : layout.readFields maxDepth 0 bytes layout.empty bytes with
  | error e =>
    rw [hread] at h
    cases h
  | ok p =>
    rw [hread] at h
    cases h
    obtain ⟨tags, row, hbytes, hlength, -, htakes⟩ := Takes.of_readFields exact hread
    rw [List.eq_nil_of_length_eq_zero hlength, List.append_nil] at hbytes
    exact hbytes ▸ htakes

/-- **The first field of a row** is read by itself, and the others go on from there. -/
theorem Takes.uncons (exact : layout.Exact) (hfield : Fields level [tag] field)
    (h : layout.Takes depth v (field ++ back) w) :
    ∃ x, (∀ rest, layout.readField depth v (field ++ rest) = .ok (x, rest)) ∧
      layout.Takes depth x back w := by
  obtain ⟨step, fuel, hsteps, -⟩ :=
    Fields.exists_step hfield.ne_nil (Nat.le_refl (field ++ back).length)
  have hread : layout.readFields depth 0 (step :: fuel) v (field ++ back) = .ok (w, []) := by
    have hfuel : (field ++ back ++ []).length ≤ (step :: fuel).length := by
      rw [List.append_nil, hsteps]
    have hread := h.readFields [] hfuel
    rw [List.append_nil] at hread
    exact hread
  have hlt : 0 < (field ++ back).length := by simp [hsteps]
  rw [Layout.readFields, if_pos hlt] at hread
  split at hread
  · cases hread
  · rename_i x behind hfirst
    obtain ⟨rfl, hreads⟩ := readField_append exact hfield hfirst
    obtain ⟨tags, row, hrow, -, -, htakes⟩ := Takes.of_readFields exact hread
    rw [List.append_nil] at hrow
    exact ⟨x, hreads, hrow ▸ htakes⟩

/-- **A row is read up to the end of any of its fields**, and goes on from there. -/
theorem Takes.split (exact : layout.Exact) (boundary : Fields level tags front)
    (h : layout.Takes depth v (front ++ back) w) :
    ∃ x, layout.Takes depth v front x ∧ layout.Takes depth x back w := by
  induction tags generalizing v front with
  | nil =>
    cases boundary
    exact ⟨v, .nil, h⟩
  | cons tag tags ih =>
    obtain ⟨field, row, rfl, hfield, hrow⟩ := Fields.cons_iff.mp boundary
    rw [List.append_assoc] at h
    obtain ⟨x, hreads, hbehind⟩ := h.uncons exact hfield
    obtain ⟨y, hfront, hback⟩ := ih hrow hbehind
    exact ⟨y, (Takes.field hfield.ne_nil hreads).append hfront, hback⟩

/-- **A message with one field more**: somewhere between two fields, a well-formed field of a tag
that the layout does not know. -/
inductive Widened (layout : Layout M) (depth : Nat) : List UInt8 → List UInt8 → Prop
  | intro {level tag : Nat} {tags : List Nat} {front field back : List UInt8}
      (boundary : Fields level tags front) (wellformed : Fields depth [tag] field)
      (unknown : layout.slot? tag = none) :
      Widened layout depth (front ++ back) (front ++ field ++ back)

/-- **One field more** changes nothing, -/
theorem Widened.takes (exact : layout.Exact) (widened : layout.Widened depth bytes more)
    (h : layout.Takes depth v bytes w) : layout.Takes depth v more w := by
  obtain ⟨boundary, wellformed, unknown⟩ := widened
  obtain ⟨x, hfront, hback⟩ := h.split exact boundary
  have hunknown := Takes.field wellformed.ne_nil
    (readField_unknown wellformed (Nat.le_refl _) unknown x)
  exact (hfront.append hunknown).append hback

/-- whatever the message is. -/
theorem Widened.decode (exact : layout.Exact) (widened : layout.Widened maxDepth bytes more)
    (h : layout.decode bytes = .ok w) : layout.decode more = .ok w :=
  (widened.takes exact ((decode_iff exact).mp h)).decode

/-! ## Messages inside -/

section Inside

variable {inner : Layout N} {name : String} {get : M → N} {put : M → N → M} {size : List UInt8}

/-- **A message behind any spelling of its length** is read up to its end. -/
theorem readDelimited_spells (spells : Varint.Spells 10 size bytes.length) (v : M)
    (rest : List UInt8) :
    layout.readDelimited (depth + 1) v (size ++ (bytes ++ rest)) =
      layout.readFields depth rest.length (bytes ++ rest) v (bytes ++ rest) := by
  have hle : ¬ (bytes ++ rest).length < bytes.length := by simp
  have hbehind : (bytes ++ rest).length - bytes.length = rest.length := by simp
  rw [readDelimited, if_neg (Nat.succ_ne_zero depth), Varint.reads_of_spells spells]
  simp only
  rw [if_neg hle, hbehind, Nat.add_sub_cancel]

/-- **What is read of a message inside** is a spelling of its length and a row of fields. -/
theorem Takes.of_readDelimited (exact : layout.Exact)
    (h : layout.readDelimited depth v bytes = .ok (w, rest)) :
    ∃ d size row, depth = d + 1 ∧ bytes = size ++ (row ++ rest) ∧
      Varint.Spells 10 size row.length ∧ layout.Takes d v row w := by
  unfold Layout.readDelimited at h
  split at h
  · cases h
  · rename_i hpos
    obtain ⟨d, rfl⟩ := Nat.exists_eq_succ_of_ne_zero hpos
    split at h
    · cases h
    · rename_i n behind hread
      obtain ⟨size, rfl, spells⟩ := Varint.spells_of_read hread
      split at h
      · cases h
      · rename_i hlength
        obtain ⟨tags, row, rfl, hrest, -, htakes⟩ := Takes.of_readFields exact h
        have hn : row.length = n := by
          rw [List.length_append] at hlength hrest
          omega
        exact ⟨d, size, row, rfl, rfl, hn ▸ spells, htakes⟩

/-- **A message inside takes exactly its content.** -/
theorem Exact.message (exact : inner.Exact) (name : String) (get : M → N) (put : M → N → M) :
    (Slot.message name inner get put).Exact := by
  intro depth v w bytes rest h
  obtain ⟨n, hread, rfl⟩ := Slot.eq_ok_of_message h
  obtain ⟨d, size, row, rfl, rfl, spells, htakes⟩ := Takes.of_readDelimited exact hread
  refine ⟨size ++ row, by simp, .delimited spells, fun rest => ?_⟩
  simp only [Slot.message, List.append_assoc, readDelimited_spells spells,
    htakes.readFields rest (Nat.le_refl _)]

section Message

variable {key : List UInt8} (known : layout.slot? tag = some (Slot.message name inner get put))
  (spells : Key.Spells key ⟨tag, .delimited⟩) (length : Varint.Spells 10 size bytes.length)
include known spells length

/-- **A message inside** is put into the one around it, -/
theorem takes_message_spells {n : N} (h : inner.Takes depth (get v) bytes n) :
    layout.Takes (depth + 1) v (key ++ (size ++ bytes)) (put v n) := by
  refine Takes.field (by simp [spells.ne_nil]) fun rest => ?_
  rw [List.append_assoc, List.append_assoc, readField_known known spells rfl]
  simp only [Slot.message, readDelimited_spells length, h.readFields rest (Nat.le_refl _)]
  rfl

/-- and what is put there is a message inside. -/
theorem takes_of_message (exact : inner.Exact)
    (h : layout.readField (depth + 1) v (key ++ (size ++ bytes)) = .ok (w, [])) :
    ∃ n, inner.Takes depth (get v) bytes n ∧ put v n = w := by
  rw [readField_known known spells rfl] at h
  obtain ⟨n, hmessage, hput⟩ := Slot.eq_ok_of_message (eq_ok_of_mapError h)
  rw [← List.append_nil bytes, readDelimited_spells length] at hmessage
  obtain ⟨tags, row, hrow, -, -, htakes⟩ := Takes.of_readFields exact hmessage
  exact ⟨n, List.append_cancel_right hrow ▸ htakes, hput⟩

end Message

/-- **One field more in a message inside** changes nothing, with the length in front of the message
as it is then. -/
theorem Widened.takes_inside {tags : List Nat} {key size' before behind : List UInt8}
    (exact : layout.Exact) (exactInside : inner.Exact)
    (known : layout.slot? tag = some (Slot.message name inner get put))
    (boundary : Fields level tags before) (spells : Key.Spells key ⟨tag, .delimited⟩)
    (length : Varint.Spells 10 size bytes.length) (widened : inner.Widened depth bytes more)
    (length' : Varint.Spells 10 size' more.length)
    (h : layout.Takes (depth + 1) v (before ++ (key ++ (size ++ bytes) ++ behind)) w) :
    layout.Takes (depth + 1) v (before ++ (key ++ (size' ++ more) ++ behind)) w := by
  obtain ⟨x, hbefore, hx⟩ := h.split exact boundary
  have hmessage : Fields 1 [tag] (key ++ (size ++ bytes)) :=
    .one_plain spells (.delimited length)
  obtain ⟨y, hreads, hbehind⟩ := hx.uncons exact hmessage
  have hread := hreads []
  rw [List.append_nil] at hread
  obtain ⟨n, htakes, rfl⟩ := takes_of_message known spells length exactInside hread
  have hwidened : layout.Takes (depth + 1) x (key ++ (size' ++ more)) (put x n) :=
    takes_message_spells known spells length' (widened.takes exactInside htakes)
  exact hbefore.append (hwidened.append hbehind)

end Inside

end Layout

end OrderDesk.Wire
