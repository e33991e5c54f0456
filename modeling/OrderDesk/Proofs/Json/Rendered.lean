import OrderDesk.Proofs.Json.Items
import OrderDesk.Proofs.Json.Written

/-!
# Objects that are rendered and looked into

Whatever is rendered is well formed, so a reader that is after one member of a rendered object gets
past all others. It is enough to know that it takes the text of that member.

## Main definitions

* `Shows`: what is read of a text under a name
* `Member`: the text of a member as it stands in an object

## Main results

* `wellformed_renderChars`: what is rendered is well formed
* `shows_render`: a member of a rendered object is read
-/

namespace OrderDesk.Json

open Text Text.Utf8 Cursor

/-! ## What is rendered is well formed -/

theorem wellformed_numberChars (n : Number) : Wellformed .value (Value.numberChars n) := by
  have whole (n : ℕ) : WholeText (Decimal.digitChars n) := wholeText_toDigits n
  cases n with
  | natural n =>
    have number := NumberText.mk (.inl rfl) (whole n) .none .none
    rw [List.append_nil, List.append_nil] at number
    exact .number number
  | negative n =>
    have number := NumberText.mk (.inr rfl) (whole n) .none .none
    rw [List.append_nil, List.append_nil] at number
    exact .number number
  | float x =>
    show Wellformed .value (Value.ofFloat x).renderChars
    cases h : x.isFinite with
    | false =>
      rw [renderChars_ofFloat_infinite h]
      exact .word (by decide)
    | true =>
      obtain ⟨q, denotes, -⟩ := exists_denotes_ofFloat h
      exact .number denotes.numberText

theorem wellformed_renderItems (first : Bool) (v : Value) (items : List Value)
    (value : ∀ w ∈ v :: items, Wellformed .value w.renderChars) :
    Wellformed (.within .list first)
      (comma first ++ (Value.renderChars.renderItems (v :: items) ++ [']'])) := by
  obtain ⟨head, tail⟩ := List.forall_mem_cons.mp value
  induction items generalizing first v with
  | nil =>
    have hclose : Wellformed (.within .list false) ([] ++ [']']) := .close blanks_nil
    have hitem : Wellformed (.within .list first) _ :=
      .item blanks_nil blanks_nil .list blanks_nil head hclose
    simpa [Value.renderChars.renderItems] using hitem
  | cons w items ih =>
    obtain ⟨next, later⟩ := List.forall_mem_cons.mp tail
    have hitem : Wellformed (.within .list first) _ :=
      .item blanks_nil blanks_nil .list blanks_nil head (ih false w tail next later)
    simpa [Value.renderChars.renderItems, comma] using hitem

theorem wellformed_renderMembers (first : Bool) (m : String × Value)
    (members : List (String × Value))
    (value : ∀ w ∈ m :: members, Wellformed .value w.2.renderChars) :
    Wellformed (.within .object first)
      (comma first ++ (Value.renderChars.renderMembers (m :: members) ++ ['}'])) := by
  obtain ⟨head, tail⟩ := List.forall_mem_cons.mp value
  have key (name : String) := Label.object (quotes_quotedChars name).stringText blanks_nil
  induction members generalizing first m with
  | nil =>
    have hclose : Wellformed (.within .object false) ([] ++ ['}']) := .close blanks_nil
    have hitem : Wellformed (.within .object first) _ :=
      .item blanks_nil blanks_nil (key m.1) blanks_nil head hclose
    simpa [Value.renderChars.renderMembers] using hitem
  | cons w members ih =>
    obtain ⟨next, later⟩ := List.forall_mem_cons.mp tail
    have hitem : Wellformed (.within .object first) _ :=
      .item blanks_nil blanks_nil (key m.1) blanks_nil head (ih false w tail next later)
    simpa [Value.renderChars.renderMembers, comma] using hitem

/-- **What is rendered is well formed.** -/
theorem wellformed_renderChars (v : Value) : Wellformed .value v.renderChars := by
  match v with
  | .null => exact .word (by decide)
  | .boolean true => exact .word (by decide)
  | .boolean false => exact .word (by decide)
  | .number n => exact wellformed_numberChars n
  | .text s => exact .string (quotes_quotedChars s).stringText
  | .list [] =>
    have hclose : Wellformed (.within .list true) ([] ++ [']']) := .close blanks_nil
    exact .bracket hclose
  | .list (v :: items) =>
    exact .bracket (wellformed_renderItems true v items fun w _ => wellformed_renderChars w)
  | .object [] =>
    have hclose : Wellformed (.within .object true) ([] ++ ['}']) := .close blanks_nil
    exact .bracket hclose
  | .object (m :: members) =>
    exact .bracket (wellformed_renderMembers true m members fun w _ => wellformed_renderChars w.2)
termination_by v
decreasing_by
  · rename_i mem
    have := List.sizeOf_lt_of_mem mem
    simp only [Value.list.sizeOf_spec]
    omega
  · rename_i mem
    have := List.sizeOf_lt_of_mem mem
    simp only [Value.object.sizeOf_spec]
    obtain ⟨name, w⟩ := w
    simp only [Prod.mk.sizeOf_spec] at this ⊢
    omega

/-! ## Members -/

variable {α : Type} {read : Cursor → Except Error (α × Cursor)} {name : String} {v : Value} {a : α}
  {members : List (String × Value)}

/-- **The record of a single member.** -/
def Shape.only (name : String) (read : Cursor → Except Error (α × Cursor)) :
    Shape (Option α) α where
  name := name
  fields := [.of name id (fun _ a => a) read]
  start := none
  finish := required name

/-- **A text shows something under a name**: it is an object in which it is read under that name,
and whatever else is in it is passed over. -/
def Shows (body name : String) (read : Cursor → Except Error (α × Cursor)) (a : α) : Prop :=
  (Shape.only name read).readBytes (Utf8.ofString body) = .ok a

/-- **A member of an object** with its text, as it stands there. -/
def Member (body name : String) (text : List Char) : Prop :=
  ∃ members, ObjectText members body.toList ∧ (members.map Prod.fst).Nodup ∧ (name, text) ∈ members

theorem names_memberTexts (members : List (String × Value)) :
    (memberTexts members).map Prod.fst = members.map Prod.fst := by
  rw [memberTexts, List.map_map]
  rfl

/-- **A member of a rendered object** stands there by its text. -/
theorem member_render (distinct : (members.map Prod.fst).Nodup) (mem : (name, v) ∈ members) :
    Member (Value.object members).render name v.renderChars := by
  refine ⟨memberTexts members, ?_, ?_, List.mem_map.mpr ⟨_, mem, rfl⟩⟩
  · rw [Value.render, String.toList_ofList]
    exact objectText_renderChars members
  · rwa [names_memberTexts]

/-- A list without duplicates has each of its members once. -/
theorem filter_mem_singleton {names : List String} (distinct : names.Nodup) (mem : name ∈ names) :
    (names.filter (· ∈ [name])).Perm [name] := by
  have hperm := List.perm_ext_iff_of_nodup (distinct.filter (· ∈ [name])) (List.nodup_singleton name)
  refine hperm.mpr fun a => ?_
  rw [List.mem_filter, decide_eq_true_eq, and_iff_right_iff_imp, List.mem_singleton]
  rintro rfl
  exact mem

/-- **A member of a rendered object is read** by whatever takes its text. -/
theorem shows_render (distinct : (members.map Prod.fst).Nodup) (mem : (name, v) ∈ members)
    (takes : Takes read v.renderChars a) : Shows (Value.object members).render name read a := by
  have tracks : (Shape.only name read).Tracks (fun seen => if name ∈ seen then some a else none)
      fun name text => (name, text) ∈ memberTexts members := by
    refine ⟨rfl, List.forall_mem_singleton.mpr ?_⟩
    exact .compact distinct mem (fun _ h => if_neg h) (fun seen => by simp) takes
  have hnames : (Shape.only name read).names = [name] := rfl
  rw [Shows, Value.render, Utf8.ofString, String.toList_ofList]
  refine tracks.readBytes (List.nodup_singleton name) (fun seen h => ?_)
    (.of_object (objectText_renderChars members) ?_ (fun m hm _ => hm) fun m hm _ => ?_)
  · have hseen : name ∈ seen := h name (List.mem_singleton_self name)
    simp [Shape.only, hseen, required]
  · rw [hnames, names_memberTexts]
    exact filter_mem_singleton distinct (List.mem_map_of_mem mem)
  · obtain ⟨⟨_, w⟩, -, rfl⟩ := List.mem_map.mp hm
    exact wellformed_renderChars w

end OrderDesk.Json
