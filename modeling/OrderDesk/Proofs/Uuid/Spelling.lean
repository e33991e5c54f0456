import Mathlib.Data.List.Forall2
import OrderDesk.Proofs.Text.Hex
import OrderDesk.Uuid

/-!
# The spellings of an identifier

An identifier may be spelled in four ways, its digits in either case. Each of them is read as that
identifier, and the printed form is one of them.

## Main definitions

* `Uuid.Spells`: the four spellings

## Main results

* `ofChars?_of_spells`: each spelling is read
* `parse?_toText`, `toText_inj`: the printed form tells the identifier
-/

namespace OrderDesk.Uuid

open Text

/-- **The four spellings** of an identifier: the digits, the digits in groups, the groups in braces
and the groups behind `urn:uuid:`. -/
inductive Spells (id : Uuid) : List Char → Prop
  | simple {cs : List Char} (digits : List.Forall₂ Hex.Writes cs id.digits) : Spells id cs
  | hyphenated {cs : List Char} (digits : List.Forall₂ Hex.Writes cs id.digits) :
    Spells id (grouped cs)
  | braced {cs : List Char} (digits : List.Forall₂ Hex.Writes cs id.digits) :
    Spells id ('{' :: (grouped cs ++ ['}']))
  | urn {cs : List Char} (digits : List.Forall₂ Hex.Writes cs id.digits) :
    Spells id ("urn:uuid:".toList ++ grouped cs)

variable {id : Uuid} {cs : List Char} {ds : List (Fin 16)}

/-! ## Digits -/

theorem mapM_value?_of_writes (h : List.Forall₂ Hex.Writes cs ds) :
    cs.mapM Hex.value? = some ds := by
  induction h with
  | nil => rfl
  | cons head tail ih => simp [List.mapM_cons, Hex.value?_of_writes head, ih]

theorem mapM_value?_of_mem {c : Char} (mem : c ∈ cs) (noDigit : Hex.value? c = none) :
    cs.mapM Hex.value? = none := by
  induction cs with
  | nil => cases mem
  | cons c' cs ih =>
    rw [List.mapM_cons]
    rcases List.mem_cons.mp mem with rfl | mem
    · rw [noDigit]
      rfl
    · rw [ih mem]
      cases Hex.value? c' <;> rfl

theorem ne_hyphen_of_writes (h : List.Forall₂ Hex.Writes cs ds) : ∀ c ∈ cs, c ≠ '-' := by
  induction h with
  | nil => simp
  | cons head tail ih =>
    refine List.forall_mem_cons.mpr ⟨?_, ih⟩
    rintro rfl
    cases Hex.value?_of_writes head

theorem ofSimple?_of_writes (h : List.Forall₂ Hex.Writes cs id.digits) :
    ofSimple? cs = some id := by
  rw [ofSimple?, mapM_value?_of_writes h, Option.bind_some, ofDigits?, dif_pos id.length_digits]

theorem ofSimple?_of_mem {c : Char} (mem : c ∈ cs) (noDigit : Hex.value? c = none) :
    ofSimple? cs = none := by
  rw [ofSimple?, mapM_value?_of_mem mem noDigit, Option.bind_none]

/-! ## Groups -/

/-- Without its hyphens a grouping is what was grouped. -/
theorem filter_grouped (h : ∀ c ∈ cs, c ≠ '-') : (grouped cs).filter (· != '-') = cs := by
  have hkeep {part : List Char} (hpart : ∀ c ∈ part, c ∈ cs) :
      part.filter (· != '-') = part :=
    List.filter_eq_self.mpr fun c hc => by simpa using h c (hpart c hc)
  have htake {n m : Nat} : ∀ c ∈ (cs.drop n).take m, c ∈ cs :=
    fun c hc => List.mem_of_mem_drop (List.mem_of_mem_take hc)
  have hparts : cs.take 8 ++ ((cs.drop 8).take 4 ++ ((cs.drop 12).take 4 ++
      ((cs.drop 16).take 4 ++ cs.drop 20))) = cs := by
    have hsplit (n m : Nat) : (cs.drop n).take m ++ cs.drop (n + m) = cs.drop n := by
      rw [← List.drop_drop]
      exact List.take_append_drop m _
    rw [hsplit 16 4, hsplit 12 4, hsplit 8 4, List.take_append_drop]
  have hhyphen (xs : List Char) : ('-' :: xs).filter (· != '-') = xs.filter (· != '-') := rfl
  rw [grouped]
  simp only [List.filter_append, hhyphen]
  rw [hkeep fun c hc => List.mem_of_mem_take hc, hkeep htake, hkeep htake, hkeep htake,
    hkeep fun c hc => List.mem_of_mem_drop hc, hparts]

theorem hyphen_mem_grouped (cs : List Char) : '-' ∈ grouped cs := by
  simp [grouped]

theorem ofGrouped?_of_writes (h : List.Forall₂ Hex.Writes cs id.digits) :
    ofGrouped? (grouped cs) = some id := by
  simp only [ofGrouped?, ungroup?, filter_grouped (ne_hyphen_of_writes h), if_true,
    Option.bind_some]
  exact ofSimple?_of_writes h

/-- A mark that is neither a digit nor a hyphen stands in no groups. -/
theorem ofGrouped?_of_mem {c : Char} (mem : c ∈ cs) (noDigit : Hex.value? c = none)
    (noHyphen : c ≠ '-') : ofGrouped? cs = none := by
  rw [ofGrouped?, ungroup?]
  split
  · have hbare : c ∈ cs.filter (· != '-') := List.mem_filter.mpr ⟨mem, by simpa using noHyphen⟩
    rw [Option.bind_some, ofSimple?_of_mem hbare noDigit]
  · rfl

/-- **Each spelling is read** as the identifier that it spells. -/
theorem ofChars?_of_spells (h : id.Spells cs) : ofChars? cs = some id := by
  cases h with
  | simple digits =>
    rw [ofChars?, ofSimple?_of_writes digits]
    rfl
  | hyphenated digits =>
    rw [ofChars?, ofSimple?_of_mem (hyphen_mem_grouped _) rfl, ofGrouped?_of_writes digits]
    rfl
  | @braced cs digits =>
    have hbrace : '{' ∈ '{' :: (grouped cs ++ ['}']) := List.mem_cons_self ..
    have hinner : unbrace? ('{' :: (grouped cs ++ ['}'])) = some (grouped cs) := by
      simp [unbrace?]
    rw [ofChars?, ofSimple?_of_mem hbrace rfl, ofGrouped?_of_mem hbrace rfl (by decide), hinner,
      Option.bind_some, ofGrouped?_of_writes digits]
    rfl
  | @urn cs digits =>
    have hlead : 'u' ∈ "urn:uuid:".toList ++ grouped cs := List.mem_cons_self ..
    have hbrace : unbrace? ("urn:uuid:".toList ++ grouped cs) = none := rfl
    have hinner : unurn? ("urn:uuid:".toList ++ grouped cs) = some (grouped cs) := rfl
    rw [ofChars?, ofSimple?_of_mem hlead rfl, ofGrouped?_of_mem hlead rfl (by decide), hbrace,
      hinner, Option.bind_some, ofGrouped?_of_writes digits]
    rfl

theorem parse_of_spells (h : id.Spells cs) : parse (String.ofList cs) = .ok id := by
  rw [parse, parse?, String.toList_ofList, ofChars?_of_spells h]

/-! ## The printed form -/

theorem writes_simpleChars (id : Uuid) :
    List.Forall₂ Hex.Writes id.simpleChars id.digits := by
  rw [simpleChars, List.forall₂_map_left_iff, List.forall₂_same]
  exact fun d _ => .inl rfl

/-- The printed form is one of the spellings. -/
theorem spells_toChars (id : Uuid) : id.Spells id.toChars :=
  .hyphenated id.writes_simpleChars

/-- **The printed form is read back.** -/
theorem parse?_toText (id : Uuid) : parse? id.toText = some id := by
  rw [parse?, toText, String.toList_ofList, ofChars?_of_spells id.spells_toChars]

/-- **The printed form tells the identifier.** -/
theorem toText_inj {id id' : Uuid} : id.toText = id'.toText ↔ id = id' := by
  refine ⟨fun h => ?_, fun h => h ▸ rfl⟩
  have hread := congrArg parse? h
  rw [parse?_toText, parse?_toText] at hread
  exact Option.some.inj hread

end OrderDesk.Uuid
