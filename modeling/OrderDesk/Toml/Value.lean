/-!
# TOML values

What a configuration file says: scalars, lists, and tables whose members have different names. Dates
and times are kept as they are written.
-/

namespace OrderDesk.Toml

/-- **A value.** -/
inductive Value where
  | text (value : String)
  | integer (value : Int)
  | float (value : Float)
  | boolean (value : Bool)
  /-- A date, a time, or both, in one written form. -/
  | moment (written : String)
  | list (items : List Value)
  | table (members : List (String × Value))

instance : Inhabited Value := ⟨.boolean false⟩

end OrderDesk.Toml
