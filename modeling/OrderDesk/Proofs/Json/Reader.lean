import OrderDesk.Proofs.Json.Record
import OrderDesk.Proofs.Uuid.Spelling

/-!
# Single values that are read

The readers of strings, identifiers and names take every spelling of the string that stands for the
value.

## Main results

* `takes_string`, `takes_uuid`, `takes_name`: every spelling is read
-/

namespace OrderDesk.Json

open Text Text.Utf8 Cursor

variable {cs : List Char}

/-- **In front of a string** the readers find its quote and then its characters. -/
theorem quote_of {c : Cursor} {ws : List Char} {tail : List UInt8} {s : String}
    (quotes : Quotes s cs) (blanks : Blanks ws) (h : c.rest = encode ws ++ (encode cs ++ tail)) :
    c.skipBlanks.peek? = some Ascii.quote ∧
      ∃ c', readText c.skipBlanks.advance = .ok (s, c') ∧ c'.rest = tail := by
  obtain ⟨bytes, hbytes⟩ := quotes.stringText.start
  have hrest : c.skipBlanks.rest = encode cs ++ tail := by
    rw [hbytes] at h ⊢
    exact rest_skipBlanks_of blanks h rfl
  exact readText_of quotes hrest

theorem takes_stringAs (expected : String) {s : String} (quotes : Quotes s cs) :
    Takes (readStringAs expected) cs s := by
  intro c ws tail blanks h _
  obtain ⟨hpeek, c', hread, hrest⟩ := quote_of quotes blanks h
  exact ⟨c', by simp [readStringAs, hpeek, hread], hrest⟩

/-- **A string.** -/
theorem takes_string {s : String} (quotes : Quotes s cs) : Takes readString cs s :=
  takes_stringAs _ quotes

/-- **The texts of an identifier**: its spellings, in any spelling of a string. -/
def UuidText (id : Uuid) (cs : List Char) : Prop :=
  ∃ spelling, id.Spells spelling ∧ Quotes (String.ofList spelling) cs

/-- **An identifier.** -/
theorem takes_uuid {id : Uuid} (text : UuidText id cs) : Takes readUuid cs id := by
  intro c ws tail blanks h stops
  obtain ⟨spelling, spells, quotes⟩ := text
  obtain ⟨c', hread, hrest⟩ := takes_stringAs "a formatted UUID string" quotes blanks h stops
  refine ⟨c', ?_, hrest⟩
  simp only [readUuid, bind, Except.bind, hread, Uuid.parse_of_spells spells]

/-- **A value of a finite kind**, by its name. -/
theorem takes_name {α : Type} {known : List (String × α)} {name : String} {a : α}
    (lookup : known.lookup name = some a) (quotes : Quotes name cs) :
    Takes (readVariant known) cs a := by
  intro c ws tail blanks h _
  obtain ⟨hpeek, c', hread, hrest⟩ := quote_of quotes blanks h
  refine ⟨c', ?_, hrest⟩
  simp [readVariant, hpeek, readName, bind, Except.bind, hread, lookup]

end OrderDesk.Json
