/-!
# Requests and responses

The parts of an HTTP exchange that the order desk looks at or writes.
-/

namespace OrderDesk.Http

/-- **A request**: the target is an address or the path and the query of one. -/
structure Request where
  method : String
  target : String
  headers : List (String × String)
  body : List UInt8
  deriving DecidableEq, Repr

/-- **A response.** -/
structure Response where
  status : Nat
  headers : List (String × String)
  body : String
  deriving DecidableEq, Repr

/-- The value of a header with a name in small letters; the request may write it in any case. -/
def Request.header? (r : Request) (name : String) : Option String :=
  (r.headers.find? fun (given, _) => given.toLower == name).map Prod.snd

/-- The response with one more header. -/
def Response.withHeader (r : Response) (name value : String) : Response :=
  { r with headers := r.headers ++ [(name, value)] }

end OrderDesk.Http
