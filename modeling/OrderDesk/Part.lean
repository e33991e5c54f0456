/-!
# Parts

Catalog entries as the order desk sees them, and the filter that asks for them.
-/

namespace OrderDesk

/-- **A part** of the catalog. -/
structure Part where
  id : String
  name : String
  price : Float
  deriving DecidableEq

/-- **A question to the inventory**: the parts with these ids. -/
structure PartsFilter where
  ids : List String
  deriving DecidableEq, Repr, Inhabited

end OrderDesk
