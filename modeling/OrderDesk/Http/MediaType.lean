/-!
# Media types

Whether the `content-type` of a request announces JSON: the type is `application` and the subtype
is `json` or has the suffix `+json`. A text that is no media type announces nothing.

## Main definitions

* `MediaType`, `MediaType.parse?`
* `MediaType.isJson`
-/

namespace OrderDesk.Http

/-- **A media type** without its parameters: the subtype stops before its last `+`, the suffix
follows it. -/
structure MediaType where
  type : List Char
  subtype : List Char
  suffix : Option (List Char)
  deriving DecidableEq, Repr

namespace MediaType

/-- Whether a character may stand in a name. -/
def isToken (c : Char) : Bool :=
  c.isAlphanum || "!#$%&'*+-.^_`|~".toList.contains c

/-- Whether a character may stand between the quotes of a value. -/
def isQuotable (c : Char) : Bool :=
  32 ≤ c.toNat && c.toNat < 127

/-- What the reader of parameters expects next. -/
inductive Expect where
  /-- A name; whether it has begun. -/
  | name (begun : Bool)
  /-- A value; whether it has begun. -/
  | value (begun : Bool)
  /-- More of a quoted value; whether it has begun. -/
  | quotedValue (begun : Bool)
  /-- The mark behind a quoted value. -/
  | mark
  deriving DecidableEq, Repr

/-- **Whether a text is a list of parameters**, read from behind a semicolon. -/
def parametersOk : Expect → List Char → Bool
  | .name begun, [] => !begun
  | .value _, [] => true
  | .quotedValue _, [] => false
  | .mark, [] => true
  | .name begun, c :: rest =>
    if c == ' ' && !begun then parametersOk (.name false) rest
    else if isToken c then parametersOk (.name true) rest
    else c == '=' && begun && parametersOk (.value false) rest
  | .value begun, c :: rest =>
    if c == '"' && !begun then parametersOk (.quotedValue false) rest
    else if isToken c then parametersOk (.value true) rest
    else c == ';' && begun && parametersOk (.name false) rest
  | .quotedValue begun, c :: rest =>
    if c == '"' && begun then parametersOk .mark rest
    else isQuotable c && parametersOk (.quotedValue true) rest
  | .mark, c :: rest =>
    if c == ';' then parametersOk (.name false) rest
    else c == ' ' && parametersOk .mark rest

/-- The subtype and its suffix, parted at the last `+` that is not in front. -/
def splitSuffix (name : List Char) : List Char × Option (List Char) :=
  let suffix := (name.reverse.takeWhile (· != '+')).reverse
  let subtype := name.take (name.length - suffix.length - 1)
  if subtype.isEmpty then (name, none) else (subtype, some suffix)

/-- The media type of a text. -/
def parse? (text : String) : Option MediaType :=
  let cs := text.toList.map Char.toLower
  let type := cs.takeWhile isToken
  match cs.drop type.length with
  | '/' :: rest =>
    let name := rest.takeWhile isToken
    let (subtype, suffix) := splitSuffix name
    if type.isEmpty then none
    else if text == "*/*" then some ⟨type, name, none⟩
    else match rest.drop name.length with
      | [] => some ⟨type, subtype, suffix⟩
      | ';' :: parameters =>
        if !name.isEmpty && parametersOk (.name false) parameters then
          some ⟨type, subtype, suffix⟩
        else none
      | _ => none
  | _ => none

/-- **Whether a media type is JSON.** -/
def isJson (m : MediaType) : Bool :=
  m.type == "application".toList
    && (m.subtype == "json".toList || m.suffix == some "json".toList)

end MediaType

/-- Whether a `content-type` announces JSON. -/
def announcesJson (contentType : Option String) : Bool :=
  match contentType.bind MediaType.parse? with
  | some m => m.isJson
  | none => false

end OrderDesk.Http
