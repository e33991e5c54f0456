import OrderDesk.Http.Body
import OrderDesk.Proofs.Instant.Text
import OrderDesk.Proofs.Json.Float
import OrderDesk.Proofs.Json.Items

/-!
# Orders survive their written forms

An order is written as an object of its fields, and so is what clients see of it. Each field is
read from what was written of it: identifiers, texts, lists and names always are, instants in the
years that have four digits, and the total if the reader of numbers maps its digits back to it.

## Main definitions

* `Order.Writable`: the orders whose total and instants come back

## Main results

* `Order.readBytes_toJson`: an order is read back
* `Http.OrderView.readBytes_toJson`: what clients see of an order is read back
* `Order.written_forms_lossless`: both, for one order
-/

namespace OrderDesk

open Json Text

/-! ## Values of the fields -/

theorem takes_uuid_toJson (id : Uuid) : Takes readUuid id.toJson.renderChars id :=
  takes_uuid ⟨id.toChars, id.spells_toChars, quotes_quotedChars _⟩

theorem takes_status_toJson (s : Status) : Takes Status.readJson s.toJson.renderChars s :=
  takes_name (Status.ofName?_name s) (quotes_quotedChars _)

theorem takes_method_toJson (m : Method) : Takes Method.readJson m.toJson.renderChars m :=
  takes_name (Method.ofName?_name m) (quotes_quotedChars _)

theorem takes_text_toJson (s : String) : Takes readString (Value.text s).renderChars s :=
  takes_string (quotes_quotedChars s)

/-- **An instant is read back** from its written form. -/
theorem takes_instant_toJson {t : Instant} (h : t.Ordinary) :
    Takes readInstant t.toJson.renderChars t := by
  intro c ws tail blanks hc stops
  obtain ⟨c', hread, hrest⟩ := takes_stringAs "an RFC 3339 formatted date and time string"
    (quotes_quotedChars t.toText) blanks hc stops
  refine ⟨c', ?_, hrest⟩
  simp only [readInstant, bind, Except.bind, hread, Instant.read_toText h]

theorem takes_optional_text (o : Option String) :
    Takes (readOption readString) (Value.ofOption .text o).renderChars o :=
  takes_ofOption (fun s => ⟨s, rfl⟩) takes_text_toJson o

theorem takes_optional_method (o : Option Method) :
    Takes (readOption Method.readJson) (Value.ofOption Method.toJson o).renderChars o := by
  have text (m : Method) : ∃ s, m.toJson = .text s := ⟨m.name, rfl⟩
  exact takes_ofOption text takes_method_toJson o

/-! ## Orders -/

namespace Order

/-- **An order that can be written**: the reader of numbers maps the digits of its total back to it,
and its instants are ordinary. -/
structure Writable (o : Order) : Prop where
  total : ReadsBack o.total
  createdAt : o.createdAt.Ordinary
  updatedAt : o.updatedAt.Ordinary

/-- The order as far as it has been read. -/
def draft (o : Order) (seen : List String) : Draft where
  id := if "order_id" ∈ seen then some o.id else none
  user := if "user_id" ∈ seen then some o.user else none
  parts := if "part_ids" ∈ seen then some o.parts else none
  total := if "total_price" ∈ seen then some o.total else none
  status := if "status" ∈ seen then some o.status else none
  transaction := if "transaction_id" ∈ seen then some o.transaction else none
  method := if "payment_method" ∈ seen then some o.method else none
  createdAt := if "created_at" ∈ seen then some o.createdAt else none
  updatedAt := if "updated_at" ∈ seen then some o.updatedAt else none

/-- The members of the written form. -/
def members (o : Order) : List (String × Value) :=
  [("order_id", o.id.toJson), ("user_id", .text o.user), ("part_ids", .list (o.parts.map .text)),
    ("total_price", .ofFloat o.total), ("status", o.status.toJson),
    ("transaction_id", .ofOption .text o.transaction),
    ("payment_method", .ofOption Method.toJson o.method), ("created_at", o.createdAt.toJson),
    ("updated_at", o.updatedAt.toJson)]

theorem names_members (o : Order) : o.members.map Prod.fst = shape.names := rfl

theorem nodup_names : shape.names.Nodup := by decide

/-- **Each field takes what is written of it.** -/
theorem tracks {o : Order} (h : o.Writable) :
    shape.Tracks o.draft fun name text => (name, text) ∈ memberTexts o.members where
  start := rfl
  fields := by
    have distinct : (o.members.map Prod.fst).Nodup := o.names_members ▸ nodup_names
    simp only [shape, List.forall_mem_cons]
    refine ⟨?_, ?_, ?_, ?_, ?_, ?_, ?_, ?_, ?_, by simp⟩
    · exact .compact distinct (by simp [members]) (fun _ h => if_neg h) (by simp [draft])
        (takes_uuid_toJson o.id)
    · exact .compact distinct (by simp [members]) (fun _ h => if_neg h) (by simp [draft])
        (takes_text_toJson o.user)
    · exact .compact distinct (by simp [members]) (fun _ h => if_neg h) (by simp [draft])
        (takes_strings o.parts)
    · exact .compact distinct (by simp [members]) (fun _ h => if_neg h) (by simp [draft])
        (takes_double h.total)
    · exact .compact distinct (by simp [members]) (fun _ h => if_neg h) (by simp [draft])
        (takes_status_toJson o.status)
    · exact .compact distinct (by simp [members]) (fun _ h => if_neg h) (by simp [draft])
        (takes_optional_text o.transaction)
    · exact .compact distinct (by simp [members]) (fun _ h => if_neg h) (by simp [draft])
        (takes_optional_method o.method)
    · exact .compact distinct (by simp [members]) (fun _ h => if_neg h) (by simp [draft])
        (takes_instant_toJson h.createdAt)
    · exact .compact distinct (by simp [members]) (fun _ h => if_neg h) (by simp [draft])
        (takes_instant_toJson h.updatedAt)

/-- The order is complete once all of its fields have been read. -/
theorem toOrder_draft {o : Order} {seen : List String} (h : ∀ name ∈ shape.names, name ∈ seen) :
    (o.draft seen).toOrder = .ok o := by
  simp only [Shape.names, shape, Field.of, List.map_cons, List.map_nil, List.forall_mem_cons] at h
  obtain ⟨id, user, parts, total, status, transaction, method, createdAt, updatedAt, -⟩ := h
  simp [draft, Draft.toOrder, id, user, parts, total, status, transaction, method, createdAt,
    updatedAt, required, bind, Except.bind]

/-- **An order is read back** from its written form. -/
theorem readBytes_toJson {o : Order} (h : o.Writable) :
    shape.readBytes (Utf8.encode o.toJson.renderChars) = .ok o :=
  (tracks h).readBytes_compact o.names_members nodup_names fun _ => toOrder_draft

end Order

/-! ## What clients see -/

namespace Http.OrderView

/-- The view as far as it has been read. -/
def draft (v : OrderView) (seen : List String) : Draft where
  id := if "order_uuid" ∈ seen then some v.id else none
  user := if "user_uuid" ∈ seen then some v.user else none
  parts := if "part_uuids" ∈ seen then some v.parts else none
  total := if "total_price" ∈ seen then some v.total else none
  transaction := if "transaction_uuid" ∈ seen then some v.transaction else none
  method := if "payment_method" ∈ seen then some v.method else none
  status := if "status" ∈ seen then some v.status else none
  createdAt := if "created_at" ∈ seen then some v.createdAt else none
  updatedAt := if "updated_at" ∈ seen then some v.updatedAt else none

/-- The members of the written form. -/
def members (v : OrderView) : List (String × Value) :=
  [("order_uuid", v.id.toJson), ("user_uuid", .text v.user),
    ("part_uuids", .list (v.parts.map .text)), ("total_price", .ofFloat v.total),
    ("transaction_uuid", .ofOption .text v.transaction),
    ("payment_method", .ofOption Method.toJson v.method), ("status", .text v.status),
    ("created_at", v.createdAt.toJson), ("updated_at", v.updatedAt.toJson)]

theorem names_members (v : OrderView) : v.members.map Prod.fst = shape.names := rfl

theorem nodup_names : shape.names.Nodup := by decide

/-- **Each field takes what is written of it.** -/
theorem tracks {v : OrderView} (total : ReadsBack v.total) (createdAt : v.createdAt.Ordinary)
    (updatedAt : v.updatedAt.Ordinary) :
    shape.Tracks v.draft fun name text => (name, text) ∈ memberTexts v.members where
  start := rfl
  fields := by
    have distinct : (v.members.map Prod.fst).Nodup := v.names_members ▸ nodup_names
    simp only [shape, List.forall_mem_cons]
    refine ⟨?_, ?_, ?_, ?_, ?_, ?_, ?_, ?_, ?_, by simp⟩
    · exact .compact distinct (by simp [members]) (fun _ h => if_neg h) (by simp [draft])
        (takes_uuid_toJson v.id)
    · exact .compact distinct (by simp [members]) (fun _ h => if_neg h) (by simp [draft])
        (takes_text_toJson v.user)
    · exact .compact distinct (by simp [members]) (fun _ h => if_neg h) (by simp [draft])
        (takes_strings v.parts)
    · exact .compact distinct (by simp [members]) (fun _ h => if_neg h) (by simp [draft])
        (takes_double total)
    · exact .compact distinct (by simp [members]) (fun _ h => if_neg h) (by simp [draft])
        (takes_optional_text v.transaction)
    · exact .compact distinct (by simp [members]) (fun _ h => if_neg h) (by simp [draft])
        (takes_optional_method v.method)
    · exact .compact distinct (by simp [members]) (fun _ h => if_neg h) (by simp [draft])
        (takes_text_toJson v.status)
    · exact .compact distinct (by simp [members]) (fun _ h => if_neg h) (by simp [draft])
        (takes_instant_toJson createdAt)
    · exact .compact distinct (by simp [members]) (fun _ h => if_neg h) (by simp [draft])
        (takes_instant_toJson updatedAt)

/-- The view is complete once all of its fields have been read. -/
theorem toView_draft {v : OrderView} {seen : List String} (h : ∀ name ∈ shape.names, name ∈ seen) :
    (v.draft seen).toView = .ok v := by
  simp only [Shape.names, shape, Field.of, List.map_cons, List.map_nil, List.forall_mem_cons] at h
  obtain ⟨id, user, parts, total, transaction, method, status, createdAt, updatedAt, -⟩ := h
  simp [draft, Draft.toView, id, user, parts, total, status, transaction, method, createdAt,
    updatedAt, required, bind, Except.bind]

/-- **What clients see of an order is read back** from its written form. -/
theorem readBytes_toJson {o : Order} (h : o.Writable) :
    shape.readBytes (Utf8.encode (ofOrder o).toJson.renderChars) = .ok (ofOrder o) :=
  (tracks (v := ofOrder o) h.total h.createdAt h.updatedAt).readBytes_compact
    (ofOrder o).names_members nodup_names fun _ => toView_draft

end Http.OrderView

/-! ## Both forms -/

/-- **Orders survive their written forms**, whatever their id, texts, parts, status and payment are.
An order that can be written is read back as itself. What clients see of it is read back with the
same id, user, parts, total, payment and instants, an absent transaction or method absent again,
and with the name of its status. -/
theorem Order.written_forms_lossless {o : Order} (h : o.Writable) :
    shape.readBytes (Utf8.encode o.toJson.renderChars) = .ok o ∧
      ∃ v : Http.OrderView,
        Http.OrderView.shape.readBytes
            (Utf8.encode (Http.OrderView.ofOrder o).toJson.renderChars) = .ok v ∧
          v.id = o.id ∧ v.user = o.user ∧ v.parts = o.parts ∧ v.total = o.total ∧
          v.transaction = o.transaction ∧ v.method = o.method ∧ v.createdAt = o.createdAt ∧
          v.updatedAt = o.updatedAt ∧ v.status = o.status.name :=
  ⟨readBytes_toJson h, Http.OrderView.ofOrder o, Http.OrderView.readBytes_toJson h, rfl, rfl, rfl,
    rfl, rfl, rfl, rfl, rfl, rfl⟩

/-- An order of the last leap day of a century, last changed in the first second of year 0000. Its
texts have to be escaped, and its total is rounded. -/
def leapDayOrder : Order where
  id := .nil
  user := "user \"1\"\n"
  parts := ["hull", ""]
  total := 0.1
  status := .paid
  transaction := none
  method := some .creditCard
  createdAt := ⟨951868799, 123456789, by decide⟩
  updatedAt := ⟨-62167219200, 120000000, by decide⟩

theorem writable_leapDayOrder : leapDayOrder.Writable where
  total := by
    show readDocument readDouble (Utf8.encode (Value.ofFloat 0.1).renderChars) = .ok 0.1
    decide +kernel
  createdAt := ⟨by decide, by decide⟩
  updatedAt := ⟨by decide, by decide⟩

theorem Order.written_forms_lossless_leapDay :
    leapDayOrder.Writable ∧
      shape.readBytes (Utf8.encode leapDayOrder.toJson.renderChars) = .ok leapDayOrder ∧
      ∃ v : Http.OrderView,
        Http.OrderView.shape.readBytes
            (Utf8.encode (Http.OrderView.ofOrder leapDayOrder).toJson.renderChars) = .ok v ∧
          v.id = .nil ∧ v.user = "user \"1\"\n" ∧ v.parts = ["hull", ""] ∧ v.total = 0.1 ∧
          v.transaction = none ∧ v.method = some .creditCard ∧
          v.createdAt = leapDayOrder.createdAt ∧ v.updatedAt = leapDayOrder.updatedAt ∧
          v.status = "PAID" :=
  ⟨writable_leapDayOrder, Order.written_forms_lossless writable_leapDayOrder⟩

example : leapDayOrder.createdAt.toText = "2000-02-29T23:59:59.123456789Z" := by decide +kernel

end OrderDesk
