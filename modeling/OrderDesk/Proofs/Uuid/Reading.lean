import OrderDesk.Proofs.Uuid.Spelling

/-!
# What is read as an identifier

The reader accepts the four spellings of an identifier and nothing else. Only the lead of the last
one may be written in either case as well.

## Main definitions

* `Uuid.Reading`: the texts that are read as an identifier

## Main results

* `reading_of_ofChars?`, `reading_of_parse`: nothing else is read
* `parse?_eq_some_iff`: a text is read exactly as the identifier that it is a reading of
-/

namespace OrderDesk

open Text

/-- **A digit that is read** is written. -/
theorem Text.Hex.writes_of_value? {c : Char} {d : Fin 16} (h : Hex.value? c = some d) :
    Hex.Writes c d := by
  have hchar (c' : Char) (hc : c.toNat = c'.toNat) : c = c' := Char.toNat_inj.mp hc
  have hlow : ∀ d : Fin 16, d.val < 10 → (Hex.digit d).toNat = 48 + d.val := by decide
  have hhigh : ∀ d : Fin 16, 10 ≤ d.val → (Hex.digit d).toNat = 87 + d.val ∧
      (Hex.upperDigit d).toNat = 55 + d.val := by decide
  unfold Hex.value? at h
  simp only at h
  split at h
  · rename_i hrange
    cases h
    have hval : (Fin.ofNat 16 (c.toNat - 48)).val = c.toNat - 48 := Nat.mod_eq_of_lt (by omega)
    exact .inl (hchar _ (by rw [hlow _ (by omega), hval]; omega))
  split at h
  · rename_i hrange
    cases h
    have hval : (Fin.ofNat 16 (c.toNat - 87)).val = c.toNat - 87 := Nat.mod_eq_of_lt (by omega)
    exact .inl (hchar _ (by rw [(hhigh _ (by omega)).1, hval]; omega))
  split at h
  · rename_i hrange
    cases h
    have hval : (Fin.ofNat 16 (c.toNat - 55)).val = c.toNat - 55 := Nat.mod_eq_of_lt (by omega)
    exact .inr (hchar _ (by rw [(hhigh _ (by omega)).2, hval]; omega))
  · cases h

namespace Uuid

/-- **The texts that are read** as an identifier: its spellings, and the last of them with its lead
in any case. -/
inductive Reading (id : Uuid) : List Char → Prop
  | spelling {cs : List Char} (spells : id.Spells cs) : Reading id cs
  | urn {lead cs : List Char} (leads : lead.map Char.toLower = urnLead)
    (digits : List.Forall₂ Hex.Writes cs id.digits) : Reading id (lead ++ grouped cs)

variable {id : Uuid} {cs : List Char} {ds : List (Fin 16)}

theorem writes_of_mapM_value? (h : cs.mapM Hex.value? = some ds) :
    List.Forall₂ Hex.Writes cs ds := by
  induction cs generalizing ds with
  | nil =>
    cases h
    exact .nil
  | cons c cs ih =>
    rw [List.mapM_cons] at h
    cases hc : Hex.value? c with
    | none =>
      rw [hc] at h
      cases h
    | some d =>
      cases hcs : cs.mapM Hex.value? with
      | none =>
        rw [hc, hcs] at h
        cases h
      | some ds' =>
        rw [hc, hcs] at h
        cases h
        exact .cons (Hex.writes_of_value? hc) (ih hcs)

theorem writes_of_ofSimple? (h : ofSimple? cs = some id) :
    List.Forall₂ Hex.Writes cs id.digits := by
  obtain ⟨ds, hds, hid⟩ := Option.bind_eq_some_iff.mp h
  unfold ofDigits? at hid
  split at hid
  · cases hid
    exact writes_of_mapM_value? hds
  · cases hid

/-- **Groups that are read** are those of some digits. -/
theorem grouped_of_ofGrouped? (h : ofGrouped? cs = some id) :
    ∃ bare, cs = grouped bare ∧ List.Forall₂ Hex.Writes bare id.digits := by
  obtain ⟨bare, hbare, hid⟩ := Option.bind_eq_some_iff.mp h
  simp only [ungroup?, Option.ite_none_right_eq_some, Option.some.injEq] at hbare
  obtain ⟨hgrouped, hfilter⟩ := hbare
  rw [hfilter] at hgrouped
  exact ⟨bare, hgrouped, writes_of_ofSimple? hid⟩

theorem braced_of_unbrace? {inner : List Char} (h : unbrace? cs = some inner) :
    cs = '{' :: (inner ++ ['}']) := by
  unfold unbrace? at h
  split at h
  · rename_i rest
    split at h
    · rename_i hlast
      cases h
      rw [List.dropLast_append_getLast? _ hlast]
    · cases h
  · cases h

theorem lead_of_unurn? {inner : List Char} (h : unurn? cs = some inner) :
    ∃ lead, cs = lead ++ inner ∧ lead.map Char.toLower = urnLead := by
  unfold unurn? at h
  split at h
  · rename_i hlead
    cases h
    exact ⟨cs.take 9, (List.take_append_drop 9 cs).symm, hlead⟩
  · cases h

/-- **Nothing but the texts of an identifier** is read as it. -/
theorem reading_of_ofChars? (h : ofChars? cs = some id) : id.Reading cs := by
  simp only [ofChars?, Option.orElse_eq_orElse, Option.orElse_eq_or, Option.or_eq_some_iff] at h
  rcases h with hsimple | ⟨-, hgrouped | ⟨-, hbraced | ⟨-, hurn⟩⟩⟩
  · exact .spelling (.simple (writes_of_ofSimple? hsimple))
  · obtain ⟨bare, rfl, hdigits⟩ := grouped_of_ofGrouped? hgrouped
    exact .spelling (.hyphenated hdigits)
  · obtain ⟨inner, hinner, hgrouped⟩ := Option.bind_eq_some_iff.mp hbraced
    obtain ⟨bare, rfl, hdigits⟩ := grouped_of_ofGrouped? hgrouped
    exact braced_of_unbrace? hinner ▸ .spelling (.braced hdigits)
  · obtain ⟨inner, hinner, hgrouped⟩ := Option.bind_eq_some_iff.mp hurn
    obtain ⟨lead, rfl, hlead⟩ := lead_of_unurn? hinner
    obtain ⟨bare, rfl, hdigits⟩ := grouped_of_ofGrouped? hgrouped
    exact .urn hlead hdigits

theorem reading_of_parse {text : String} (h : parse text = .ok id) : id.Reading text.toList := by
  unfold parse at h
  split at h
  · rename_i id' hparse
    cases h
    exact reading_of_ofChars? hparse
  · cases h

/-! ## Both ways -/

/-- The lead of the last spelling is none of digits, in either case. -/
theorem value?_of_toLower {c : Char} (h : c.toLower = 'u') : Hex.value? c = none := by
  have hdigits : ∀ d, (Hex.digit d).toLower ≠ 'u' ∧ (Hex.upperDigit d).toLower ≠ 'u' := by decide
  cases hc : Hex.value? c with
  | none => rfl
  | some d =>
    rcases Hex.writes_of_value? hc with rfl | rfl
    · exact absurd h (hdigits d).1
    · exact absurd h (hdigits d).2

/-- **Each text of an identifier is read** as it, the lead of the last spelling in any case. -/
theorem ofChars?_of_reading (h : id.Reading cs) : ofChars? cs = some id := by
  cases h with
  | spelling spells => exact ofChars?_of_spells spells
  | @urn lead cs leads digits =>
    have hlength : lead.length = 9 := by simpa [urnLead] using congrArg List.length leads
    obtain ⟨c, rest, rfl⟩ := List.exists_cons_of_length_pos (l := lead) (by omega)
    have hlower : c.toLower = 'u' := (List.cons.inj leads).1
    have hmem : c ∈ c :: rest ++ grouped cs := List.mem_cons_self ..
    have hhyphen : c ≠ '-' := by
      rintro rfl
      exact absurd hlower (by decide)
    have hbrace : unbrace? (c :: rest ++ grouped cs) = none := by
      rw [List.cons_append, unbrace?.eq_2]
      intro inner heq
      rw [(List.cons.inj heq).1] at hlower
      exact absurd hlower (by decide)
    have hinner : unurn? (c :: rest ++ grouped cs) = some (grouped cs) := by
      rw [unurn?, List.take_left' hlength, if_pos leads, List.drop_left' hlength]
    rw [ofChars?, ofSimple?_of_mem hmem (value?_of_toLower hlower),
      ofGrouped?_of_mem hmem (value?_of_toLower hlower) hhyphen, hbrace, hinner, Option.bind_some,
      ofGrouped?_of_writes digits]
    rfl

/-- **A text is read as an identifier** exactly if it is one of its texts. -/
theorem parse?_eq_some_iff {text : String} : parse? text = some id ↔ id.Reading text.toList :=
  ⟨reading_of_ofChars?, ofChars?_of_reading⟩

end Uuid

end OrderDesk
