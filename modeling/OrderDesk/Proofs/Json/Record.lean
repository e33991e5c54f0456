import Mathlib.Data.List.Nodup
import OrderDesk.Proofs.Json.Skip

/-!
# Records that are read

A record is read from every object that holds each of its fields once: in any order, with any blanks
between the tokens, with the names in any spelling, and with any other members in between. All that
has to be known of a record is that each of its fields takes the texts of its values.

## Main definitions

* `RecordText`: the texts of a record, by the names of its fields and the texts of their values
* `Shape.Goes`: what the members of an object lead to
* `Field.Tracks`, `Shape.Tracks`: the drafts of a record, by the fields that have been read

## Main results

* `readMembers_of`: the members of an object are read one by one
* `readDocument_of`: a value that is a whole text
* `Tracks.readBytes`: a record is read from each of its texts
-/

namespace OrderDesk.Json

open Text Text.Utf8 Cursor

variable {P α β : Type} {s : Shape P α} {c : Cursor} {tail : List UInt8} {cs ws : List Char}
  {name : String} {members : List (String × List Char)} {first : Bool}

/-- **The texts of a record** with fields of these names, in which the value of each field has a
form: an object with each of the fields once and well-formed members of other names, and blanks
around it. -/
inductive RecordText (names : List String) (form : String → List Char → Prop) : List Char → Prop
  | mk {lead cs trail : List Char} {members : List (String × List Char)} (before : Blanks lead)
    (behind : Blanks trail) (object : ObjectText members cs)
    (once : ((members.map Prod.fst).filter (· ∈ names)).Perm names)
    (forms : ∀ m ∈ members, m.1 ∈ names → form m.1 m.2)
    (others : ∀ m ∈ members, m.1 ∉ names → Wellformed .value m.2) :
    RecordText names form (lead ++ (cs ++ trail))

/-- An object without blanks around it. -/
theorem RecordText.of_object {names : List String} {form : String → List Char → Prop}
    (object : ObjectText members cs)
    (once : ((members.map Prod.fst).filter (· ∈ names)).Perm names)
    (forms : ∀ m ∈ members, m.1 ∈ names → form m.1 m.2)
    (others : ∀ m ∈ members, m.1 ∉ names → Wellformed .value m.2) :
    RecordText names form cs := by
  have htext := RecordText.mk blanks_nil blanks_nil object once forms others
  rwa [List.nil_append, List.append_nil] at htext

/-! ## Members -/

/-- Nothing behind the value of a member goes on with a number. -/
theorem MembersText.stops (h : MembersText false members cs) : Stops (encode cs ++ tail) := by
  cases h with
  | close blanks =>
    rw [encode_append, List.append_assoc]
    exact Stops.of_blanks blanks ⟨rfl, by decide, rfl⟩
  | member before behind quotes between ahead others =>
    rw [encode_append, List.append_assoc]
    exact Stops.of_blanks before ⟨rfl, by decide, rfl⟩

/-- **The key of a member** is read with its colon, up to the value. -/
theorem key_of {gap key middle lead vs rest : List Char} (before : Blanks ws)
    (behind : Blanks gap) (quotes : Quotes name key) (between : Blanks middle)
    (h : c.rest = encode (ws ++ (comma first ++ (gap ++ (key ++ (middle ++
      ':' :: (lead ++ (vs ++ rest))))))) ++ tail) :
    ∃ c₁ c₂ c₃, c.objectHasNext first = .ok (true, c₁) ∧ readText c₁.advance = .ok (name, c₂) ∧
      c₂.colon = .ok c₃ ∧ c₃.rest = encode lead ++ (encode vs ++ (encode rest ++ tail)) ∧
      (encode rest ++ tail).length < c.rest.length := by
  obtain ⟨bytes, hbytes⟩ := quotes.stringText.start
  have hkey : c.rest = encode ws ++ (encode (comma first) ++ (encode gap ++
      Ascii.quote :: (bytes ++ (encode middle ++
        Ascii.colon :: (encode lead ++ (encode vs ++ (encode rest ++ tail))))))) := by
    rw [h, encode_append, encode_append, encode_append, encode_append, encode_append,
      encode_cons_ascii (by decide), encode_append, encode_append, hbytes]
    simp only [List.append_assoc, List.cons_append]
    rfl
  obtain ⟨c₁, hnext, hrest₁⟩ := objectHasNext_member first before behind hkey
  rw [← List.cons_append, ← hbytes] at hrest₁
  obtain ⟨-, c₂, hread, hrest₂⟩ := readText_of quotes hrest₁
  obtain ⟨c₃, hcolon, hrest₃⟩ := colon_of between hrest₂
  refine ⟨c₁, c₂, c₃, hnext, hread, hcolon, hrest₃, ?_⟩
  rw [hkey]
  simp only [List.length_append, List.length_cons]
  omega

/-- There is always the closing brace to come. -/
theorem MembersText.pos (h : MembersText first members cs) : 0 < (encode cs ++ tail).length := by
  rw [List.length_append]
  refine Nat.add_pos_left ?_ _
  cases h with
  | close blanks =>
    rw [encode_append, List.length_append]
    exact Nat.add_pos_right _ (Nat.succ_pos _)
  | member before behind quotes between ahead others =>
    obtain ⟨bytes, hbytes⟩ := quotes.stringText.start
    simp only [encode_append, hbytes, List.length_append, List.length_cons]
    omega

/-- **What the members of an object lead to**: a member with an unknown name is passed over, and a
field that has not been read yet takes the text of its value. -/
inductive Shape.Goes (s : Shape P α) : P → List (String × List Char) → P → Prop
  | nil {p : P} : Goes s p [] p
  | other {p q : P} {name : String} {vs : List Char} {members : List (String × List Char)}
    (unknown : (s.fields.find? fun f => f.name == name) = none) (value : Wellformed .value vs)
    (rest : Goes s p members q) : Goes s p ((name, vs) :: members) q
  | field {p p' q : P} {name : String} {vs : List Char} {members : List (String × List Char)}
    {f : Field P} (known : (s.fields.find? fun f => f.name == name) = some f)
    (unset : f.isSet p = false) (takes : Takes (f.read p) vs p') (rest : Goes s p' members q) :
    Goes s p ((name, vs) :: members) q

/-- **The members of an object are read** one by one, up to the closing brace. -/
theorem readMembers_of {p q : P} (goes : s.Goes p members q) (text : MembersText first members cs)
    {fuel : List UInt8} (h : c.rest = encode cs ++ tail) (hfuel : c.rest.length ≤ fuel.length) :
    ∃ c', s.readMembers first p fuel c = .ok (.ok q, c') ∧
      c'.rest = Ascii.closeBrace :: tail := by
  induction goes generalizing first cs c fuel with
  | nil =>
    obtain ⟨step, fuel, rfl, -⟩ := exists_step (h ▸ text.pos) hfuel
    cases text with
    | close blanks =>
      rw [encode_append, List.append_assoc] at h
      obtain ⟨c', hnext, hrest⟩ := objectHasNext_close first blanks h
      exact ⟨c', by simp only [Shape.readMembers, hnext], hrest⟩
  | other unknown value rest ih =>
    cases text with
    | member before behind quotes between ahead others =>
      obtain ⟨c₁, c₂, c₃, hnext, hread, hcolon, hrest₃, hlt⟩ :=
        key_of before behind quotes between h
      obtain ⟨c₄, hskip, hrest₄⟩ := skipValue_of value ahead hrest₃ others.stops
      obtain ⟨step, fuel, rfl, hfuel₄⟩ := exists_step hlt hfuel
      obtain ⟨c', hmembers, hrest⟩ := ih others hrest₄ (hrest₄ ▸ hfuel₄)
      refine ⟨c', ?_, hrest⟩
      simp only [Shape.readMembers, hnext, hread, unknown, Shape.skipMember, hcolon, hskip, inside,
        hmembers]
  | field known unset takes rest ih =>
    cases text with
    | member before behind quotes between ahead others =>
      obtain ⟨c₁, c₂, c₃, hnext, hread, hcolon, hrest₃, hlt⟩ :=
        key_of before behind quotes between h
      obtain ⟨c₄, htake, hrest₄⟩ := takes ahead hrest₃ others.stops
      obtain ⟨step, fuel, rfl, hfuel₄⟩ := exists_step hlt hfuel
      obtain ⟨c', hmembers, hrest⟩ := ih others hrest₄ (hrest₄ ▸ hfuel₄)
      refine ⟨c', ?_, hrest⟩
      simp only [Shape.readMembers, hnext, hread, known, unset, Shape.readMember, hcolon, htake,
        inside, hmembers, Bool.false_eq_true, if_false]

/-! ## Whole records -/

/-- **A record is read** from an object whose members lead to a draft of it. -/
theorem takes_record {q : P} {a : α} (goes : s.Goes s.start members q)
    (finish : s.finish q = .ok a) (object : ObjectText members cs) : Takes s.read cs a := by
  intro c ws tail blanks h _
  obtain @⟨inner, within⟩ := object
  have hopen : c.skipBlanks.rest = Ascii.openBrace :: (encode inner ++ tail) :=
    rest_skipBlanks_of blanks h rfl
  obtain ⟨c₁, hmembers, hrest₁⟩ := readMembers_of goes within (rest_advance hopen) (Nat.le_refl _)
  obtain ⟨c', hclose, hrest⟩ := closeObject_of hrest₁
  refine ⟨c', ?_, hrest⟩
  simp [Shape.read, peek?_of hopen, hmembers, hclose, Shape.complete, finish, settle]

/-- **A value that is a whole text**, with blanks around it. -/
theorem readDocument_of {read : Cursor → Except Error (α × Cursor)} {a : α} {lead trail : List Char}
    (takes : Takes read cs a) (before : Blanks lead) (behind : Blanks trail) :
    readDocument read (encode (lead ++ (cs ++ trail))) = .ok a := by
  have hstart : (Cursor.start (encode (lead ++ (cs ++ trail)))).rest =
      encode lead ++ (encode cs ++ encode trail) := by
    rw [Cursor.start, encode_append, encode_append]
  have hstops : Stops (encode trail) := by
    rw [← List.append_nil (encode trail)]
    exact Stops.of_blanks behind trivial
  obtain ⟨c, hread, hrest⟩ := takes before hstart hstops
  have hend := rest_skipBlanks_nil behind hrest
  simp only [readDocument, bind, Except.bind, hread, hend, List.isEmpty_nil, if_true]

/-- A value that is a whole text by itself. -/
theorem readDocument_compact {read : Cursor → Except Error (α × Cursor)} {a : α}
    (takes : Takes read cs a) : readDocument read (encode cs) = .ok a := by
  have hread := readDocument_of takes blanks_nil blanks_nil
  rwa [List.nil_append, List.append_nil] at hread

/-! ## Fields -/

/-- **A field of the drafts**, by the names of the fields that have been read: it is not set before
it has been read, and it takes each text of the form of its value. -/
structure Field.Tracks (f : Field P) (draft : List String → P)
    (form : String → List Char → Prop) : Prop where
  unset : ∀ seen, f.name ∉ seen → f.isSet (draft seen) = false
  takes : ∀ seen cs, form f.name cs → Takes (f.read (draft seen)) cs (draft (f.name :: seen))

variable {draft : List String → P} {form : String → List Char → Prop}

theorem Field.Tracks.of {get : P → Option β} {set : P → Option β → P}
    {read : Cursor → Except Error (β × Cursor)} {b : β}
    (unset : ∀ seen, name ∉ seen → get (draft seen) = none)
    (sets : ∀ seen, set (draft seen) (some b) = draft (name :: seen))
    (takes : ∀ cs, form name cs → Takes read cs b) :
    (Field.of name get set read).Tracks draft form where
  unset seen h := by
    simp only [Field.of, unset seen h, Option.isSome_none]
  takes seen cs text c ws tail blanks h stops := by
    obtain ⟨c', hread, hrest⟩ := takes cs text blanks h stops
    refine ⟨c', ?_, hrest⟩
    simp only [Field.of, hread, sets]

/-- **The drafts of a record** begin where its reader does, and each field is one of them. -/
structure Shape.Tracks (s : Shape P α) (draft : List String → P)
    (form : String → List Char → Prop) : Prop where
  start : s.start = draft []
  fields : ∀ f ∈ s.fields, f.Tracks draft form

/-- The names of the fields of a record. -/
def Shape.names (s : Shape P α) : List String :=
  s.fields.map (·.name)

theorem Shape.exists_field (s : Shape P α) (known : name ∈ s.names) :
    ∃ f, (s.fields.find? fun f => f.name == name) = some f := by
  obtain ⟨f, hf, rfl⟩ := List.mem_map.mp known
  refine Option.isSome_iff_exists.mp (List.find?_isSome.mpr ⟨f, hf, ?_⟩)
  exact beq_self_eq_true f.name

/-- **Each field once** leads to the draft in which all of them have been read. -/
theorem Shape.Tracks.goes (tracks : s.Tracks draft form) {seen : List String}
    (once : (seen ++ (members.map Prod.fst).filter (· ∈ s.names)).Nodup)
    (forms : ∀ m ∈ members, m.1 ∈ s.names → form m.1 m.2)
    (others : ∀ m ∈ members, m.1 ∉ s.names → Wellformed .value m.2) :
    s.Goes (draft seen) members
      (draft (((members.map Prod.fst).filter (· ∈ s.names)).reverse ++ seen)) := by
  -- the draft of those seen so far, none of which comes again
  induction members generalizing seen with
  | nil => exact .nil
  | cons m members ih =>
    obtain ⟨name, vs⟩ := m
    obtain ⟨hform, hforms⟩ := List.forall_mem_cons.mp forms
    obtain ⟨hother, hothers⟩ := List.forall_mem_cons.mp others
    by_cases hname : name ∈ s.names
    · -- a field that has not been read yet
      rw [List.map_cons, List.filter_cons_of_pos (by simpa using hname)] at once ⊢
      obtain ⟨f, hf⟩ := s.exists_field hname
      have htracks := tracks.fields f (List.mem_of_find?_eq_some hf)
      obtain rfl : f.name = name := by simpa using List.find?_some hf
      have hfresh : f.name ∉ seen := fun hseen =>
        (List.nodup_append.mp once).2.2 _ hseen _ (List.mem_cons_self ..) rfl
      have honce : ((f.name :: seen) ++ (members.map Prod.fst).filter (· ∈ s.names)).Nodup :=
        List.nodup_middle.mp once
      rw [List.reverse_cons, List.append_assoc]
      exact .field hf (htracks.unset seen hfresh) (htracks.takes seen vs (hform hname))
        (ih honce hforms hothers)
    · have hunknown : (s.fields.find? fun f => f.name == name) = none := by
        rw [List.find?_eq_none]
        intro f hf hfname
        exact hname (List.mem_map.mpr ⟨f, hf, by simpa using hfname⟩)
      rw [List.map_cons, List.filter_cons_of_neg (by simpa using hname)] at once ⊢
      exact .other hunknown (hother hname) (ih once hforms hothers)

/-- **A record is read from each of its texts.** -/
theorem Shape.Tracks.readBytes {a : α} (tracks : s.Tracks draft form)
    (distinct : s.names.Nodup)
    (finish : ∀ seen, (∀ name ∈ s.names, name ∈ seen) → s.finish (draft seen) = .ok a)
    (text : RecordText s.names form cs) : s.readBytes (encode cs) = .ok a := by
  obtain ⟨before, behind, object, once, forms, others⟩ := text
  have honce : ([] ++ (_ : List String)).Nodup := once.nodup_iff.mpr distinct
  have hgoes := tracks.goes honce forms others
  rw [← tracks.start] at hgoes
  refine readDocument_of (takes_record hgoes (finish _ fun name hname => ?_) object) before behind
  rw [List.append_nil, List.mem_reverse]
  exact once.mem_iff.mpr hname

end OrderDesk.Json
