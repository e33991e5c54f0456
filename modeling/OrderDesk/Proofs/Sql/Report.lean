import OrderDesk.Proofs.Sql.Reading

/-!
# What a look and a write report

A server may return whatever it likes, and may refuse any statement. A look at an order and a write
that compares first end in one way for each kind of answers: an order is shown only as its row and
its parts came back, an order is missing only if there was no row, and a conflict is told only with
a status that was read. For everything else a reason of the database is given.

## Main definitions

* `Report.LookEnds`, `Report.WriteEnds`: how a look and a write end

## Main results

* `Report.keeps_lookLaw`, `Report.keeps_writeLaw`: there are no other ends
* `LookEnds.ok_iff`, `LookEnds.notFound_iff`: what a shown and a missing order tell about the server
* `WriteEnds.ok_iff`, `WriteEnds.notFound_iff`, `WriteEnds.conflict_iff`: what the ends of a write
  tell
* `Report.never_misreported`: looks and writes against any server
-/

namespace OrderDesk.Sql.Report

/-- Whether a statement only reads. -/
def isRead : Statement → Bool
  | .selectOrder _ | .selectParts _ | .selectStatus _ => true
  | _ => false

/-! ## Looks -/

/-- **How a look at an order ends**, after what was sent and answered. -/
inductive LookEnds (id : Uuid) : List Spoken → Except StoreError Order → Prop
  /-- The row has known names, and its parts were read. -/
  | shown (v : Order) (more : List OrderRow) :
    LookEnds id [said (.selectOrder id) (.ok ((Record.ofOrder v).toRow :: more)),
      said (.selectParts id) (.ok (v.parts.map some))] (.ok v)
  | missing : LookEnds id [said (.selectOrder id) (.ok [])] (.error (.notFound id))
  | refused (cause reason : String) :
    LookEnds id [said (.selectOrder id) (.error cause)] (.error (.storage reason))
  /-- The row has no value in a column that must have one. -/
  | unread {row : OrderRow} (more : List OrderRow) (unreadable : ∀ r : Record, row ≠ r.toRow)
    (reason : String) :
    LookEnds id [said (.selectOrder id) (.ok (row :: more))] (.error (.storage reason))
  | partless (r : Record) (more : List OrderRow) {answer : Except String (List (Option String))}
    (unreadable : ∀ parts : List String, answer ≠ .ok (parts.map some)) (reason : String) :
    LookEnds id [said (.selectOrder id) (.ok (r.toRow :: more)), said (.selectParts id) answer]
      (.error (.storage reason))
  /-- The status or the method of the row has no known name. -/
  | unknown {r : Record} (more : List OrderRow) (parts : List String)
    (unnamed : ∀ v : Order, r ≠ Record.ofOrder v) (reason : String) :
    LookEnds id [said (.selectOrder id) (.ok (r.toRow :: more)),
      said (.selectParts id) (.ok (parts.map some))] (.error (.storage reason))

/-- The law that binds only how a look ends. -/
def lookLaw (id : Uuid) : Law Statement Statement.Answer (Except StoreError Order) where
  asks _ _ := True
  ends := LookEnds id

/-- **There is no other end** of a look, whatever it is answered. -/
theorem keeps_lookLaw (id : Uuid) : (load id).Keeps (lookLaw id) [] := by
  refine ⟨trivial, ?_⟩
  rintro (cause | - | ⟨row, more⟩)
  · exact .refused cause _
  · exact .missing
  simp only
  cases hread : row.read with
  | error fault =>
    refine .unread more ?_ _
    rintro r rfl
    rw [read_toRow] at hread
    cases hread
  | ok r =>
    obtain rfl := read_eq_ok_iff.mp hread
    refine ⟨trivial, ?_⟩
    rintro (cause | cells)
    · exact .partless r more (fun _ h => by cases h) _
    simp only
    cases hcells : onlyColumns cells with
    | error fault =>
      refine .partless r more ?_ _
      intro parts h
      obtain rfl := Except.ok.inj h
      rw [onlyColumns_map_some] at hcells
      cases hcells
    | ok parts =>
      obtain rfl := onlyColumns_eq_ok_iff.mp hcells
      simp only [proceed]
      cases horder : r.toOrder parts with
      | error reason =>
        refine .unknown more parts ?_ _
        rintro v rfl
        rw [toOrder_ofOrder] at horder
        cases horder
      | ok v =>
        obtain ⟨rfl, rfl⟩ := toOrder_eq_ok_iff.mp horder
        exact .shown v more

namespace LookEnds

variable {id : Uuid} {xs : List Spoken} {result : Except StoreError Order}

/-- **An order is shown** exactly if its row and its parts came back. -/
theorem ok_iff (h : LookEnds id xs result) {v : Order} :
    result = .ok v ↔ ∃ more,
      xs = [said (.selectOrder id) (.ok ((Record.ofOrder v).toRow :: more)),
        said (.selectParts id) (.ok (v.parts.map some))] := by
  constructor
  · rintro rfl
    cases h with
    | shown _ more => exact ⟨more, rfl⟩
  · rintro ⟨more, hxs⟩
    cases h with
    | shown v' more' =>
      obtain ⟨hrows, hparts⟩ := answers_inj hxs
      obtain ⟨hrow, -⟩ := List.cons.inj (Except.ok.inj hrows)
      rw [ofOrder_inj (toRow_inj hrow)
        ((List.map_inj_right fun _ _ => Option.some.inj).mp (Except.ok.inj hparts))]
    | missing => cases hxs
    | refused => cases hxs
    | unread => cases hxs
    | partless r more' unreadable =>
      obtain ⟨-, hparts⟩ := answers_inj hxs
      exact absurd hparts (unreadable v.parts)
    | unknown more' parts unnamed =>
      obtain ⟨hrows, -⟩ := answers_inj hxs
      obtain ⟨hrow, -⟩ := List.cons.inj (Except.ok.inj hrows)
      exact absurd (toRow_inj hrow) (unnamed v)

/-- **An order is missing** exactly if there was no row. -/
theorem notFound_iff (h : LookEnds id xs result) :
    result = .error (.notFound id) ↔ xs = [said (.selectOrder id) (.ok [])] := by
  constructor
  · rintro rfl
    cases h
    rfl
  · rintro rfl
    cases h
    rfl

/-- Nothing is written by a look. -/
theorem isRead_of_mem (h : LookEnds id xs result) {x : Spoken} (mem : x ∈ xs) :
    isRead x.question = true := by
  cases h <;> simp only [List.mem_cons, List.not_mem_nil, or_false] at mem <;>
    rcases mem with rfl | rfl <;> rfl

end LookEnds

/-! ## Writes -/

/-- **How a write ends**, after what was sent and answered. -/
inductive WriteEnds (o : Order) (expected : Status) : List Spoken → Except StoreError Unit → Prop
  | landed {changed : Nat} (any : 0 < changed) :
    WriteEnds o expected [said (updateOrder o expected) (.ok changed)] (.ok ())
  | refused (cause reason : String) :
    WriteEnds o expected [said (updateOrder o expected) (.error cause)] (.error (.storage reason))
  | missing :
    WriteEnds o expected [said (updateOrder o expected) (.ok (0 : Nat)),
      said (.selectStatus o.id) (.ok [])] (.error (.notFound o.id))
  | conflict (actual : Status) (more : List (Option String)) :
    WriteEnds o expected [said (updateOrder o expected) (.ok (0 : Nat)),
      said (.selectStatus o.id) (.ok (some actual.name :: more))]
      (.error (.conflict o.id expected actual))
  /-- The status could not be read, or has no known name. -/
  | unexplained {answer : Except String (List (Option String))} (present : answer ≠ .ok [])
    (unknown : ∀ (actual : Status) (more : List (Option String)),
      answer ≠ .ok (some actual.name :: more)) (reason : String) :
    WriteEnds o expected [said (updateOrder o expected) (.ok (0 : Nat)),
      said (.selectStatus o.id) answer] (.error (.storage reason))

/-- The law that binds only how a write ends. -/
def writeLaw (o : Order) (expected : Status) :
    Law Statement Statement.Answer (Except StoreError Unit) where
  asks _ _ := True
  ends := WriteEnds o expected

/-- **There is no other end** of a write, whatever it is answered. -/
theorem keeps_writeLaw (o : Order) (expected : Status) :
    (update o expected).Keeps (writeLaw o expected) [] := by
  refine ⟨trivial, ?_⟩
  rintro (cause | (changed : Nat))
  · exact .refused cause _
  simp only
  split
  · rename_i hsome
    exact .landed hsome
  rename_i hnone
  obtain rfl : changed = 0 := Nat.eq_zero_of_not_pos hnone
  refine ⟨trivial, ?_⟩
  rintro (cause | - | ⟨cell, more⟩)
  · exact .unexplained (fun h => by cases h) (fun _ _ h => by cases h) _
  · exact .missing
  simp only
  rcases cell with - | name
  · refine .unexplained (fun h => by cases h) ?_ _
    intro actual more h
    cases h
  simp only [required, proceed]
  cases hread : readStatus name with
  | error reason =>
    refine .unexplained (fun h => by cases h) ?_ _
    intro actual more' h
    obtain rfl : name = actual.name := Option.some.inj (List.cons.inj (Except.ok.inj h)).1
    rw [readStatus_eq_ok_iff.mpr rfl] at hread
    cases hread
  | ok actual =>
    obtain rfl := readStatus_eq_ok_iff.mp hread
    exact .conflict actual more

namespace WriteEnds

variable {o : Order} {expected : Status} {xs : List Spoken} {result : Except StoreError Unit}

/-- **A write succeeds** exactly if it changed a row. -/
theorem ok_iff (h : WriteEnds o expected xs result) :
    result = .ok () ↔ ∃ changed : Nat, 0 < changed ∧
      xs = [said (updateOrder o expected) (.ok changed)] := by
  constructor
  · rintro rfl
    cases h with
    | landed any => exact ⟨_, any, rfl⟩
  · rintro ⟨changed, any, rfl⟩
    cases h with
    | landed => rfl

/-- **The order of a write is missing** exactly if no row was changed and there is none. -/
theorem notFound_iff (h : WriteEnds o expected xs result) :
    result = .error (.notFound o.id) ↔
      xs = [said (updateOrder o expected) (.ok (0 : Nat)), said (.selectStatus o.id) (.ok [])] := by
  constructor
  · rintro rfl
    cases h
    rfl
  · rintro rfl
    cases h with
    | missing => rfl
    | unexplained present => exact absurd rfl present

/-- **A conflict is told** exactly if no row was changed and the status that was read is known. -/
theorem conflict_iff (h : WriteEnds o expected xs result) {actual : Status} :
    result = .error (.conflict o.id expected actual) ↔ ∃ more,
      xs = [said (updateOrder o expected) (.ok (0 : Nat)),
        said (.selectStatus o.id) (.ok (some actual.name :: more))] := by
  constructor
  · rintro rfl
    cases h with
    | conflict _ more => exact ⟨more, rfl⟩
  · rintro ⟨more, hxs⟩
    cases h with
    | landed => cases hxs
    | refused => cases hxs
    | missing => cases hxs
    | conflict actual' more' =>
      obtain ⟨-, hstatus⟩ := answers_inj hxs
      obtain ⟨hname, -⟩ := List.cons.inj (Except.ok.inj hstatus)
      rw [Status.name_inj.mp (Option.some.inj hname)]
    | unexplained present unknown =>
      obtain ⟨-, hstatus⟩ := answers_inj hxs
      exact absurd hstatus (unknown actual more)

/-- **Only one statement of a write** may change anything, and it is sent first. Another one is sent
exactly if it changed nothing. -/
theorem questions (h : WriteEnds o expected xs result) :
    ∃ a more, xs = said (updateOrder o expected) a :: more ∧
      (more ≠ [] ↔ a = .ok (0 : Nat)) ∧ ∀ x ∈ more, x.question = .selectStatus o.id := by
  cases h with
  | landed any =>
    refine ⟨_, [], rfl, iff_of_false (by simp) ?_, by simp⟩
    intro hnone
    obtain rfl := Except.ok.inj hnone
    exact Nat.lt_irrefl 0 any
  | refused cause => exact ⟨_, [], rfl, by simp, by simp⟩
  | missing => exact ⟨_, _, rfl, by simp, by simp⟩
  | conflict => exact ⟨_, _, rfl, by simp, by simp⟩
  | unexplained => exact ⟨_, _, rfl, by simp, by simp⟩

end WriteEnds

/-- **Looks and writes are never misreported**, whatever the server answers. A look only reads: it
shows an order exactly as its row and its parts came back, and misses one exactly if no row came
back. A write changes nothing but the row of its order, while it has the expected status; it
succeeds exactly if a row was changed, and if none was, the status that is read then tells whether
the order is missing or somebody else moved it. All else is told as a reason of the database. -/
theorem never_misreported {σ : Type} (server : (q : Statement) → σ → q.Answer × σ) (s : σ) :
    (∀ id, ∃ result xs s', (load id).run (Program.noted (Program.always server)) (s, []) =
        (some result, s', xs) ∧
      LookEnds id xs result ∧ (∀ x ∈ xs, isRead x.question = true) ∧
      (result = .error (.notFound id) ↔ xs = [said (.selectOrder id) (.ok [])]) ∧
      ∀ v : Order, result = .ok v ↔ ∃ more,
        xs = [said (.selectOrder id) (.ok (⟨v.id, v.user, v.total, v.status.name, v.transaction,
            v.method.map Method.name, v.createdAt, v.updatedAt⟩ :: more)),
          said (.selectParts id) (.ok (v.parts.map some))]) ∧
    ∀ (o : Order) (expected : Status), ∃ result xs s',
      (update o expected).run (Program.noted (Program.always server)) (s, []) =
        (some result, s', xs) ∧
      WriteEnds o expected xs result ∧
      (∃ a more, xs = said (.updateOrder o.status.name o.transaction (o.method.map Method.name) o.id
          expected.name) a :: more ∧ (more ≠ [] ↔ a = .ok (0 : Nat)) ∧
        ∀ x ∈ more, x.question = .selectStatus o.id) ∧
      (result = .ok () ↔ ∃ changed : Nat, 0 < changed ∧
        xs = [said (updateOrder o expected) (.ok changed)]) ∧
      (result = .error (.notFound o.id) ↔
        xs = [said (updateOrder o expected) (.ok (0 : Nat)), said (.selectStatus o.id) (.ok [])]) ∧
      ∀ actual : Status, result = .error (.conflict o.id expected actual) ↔ ∃ more,
        xs = [said (updateOrder o expected) (.ok (0 : Nat)),
          said (.selectStatus o.id) (.ok (some actual.name :: more))] := by
  constructor
  · intro id
    obtain ⟨result, xs, s', hrun, hends⟩ := (keeps_lookLaw id).run_always server s
    exact ⟨result, xs, s', hrun, hends, fun _ => hends.isRead_of_mem, hends.notFound_iff,
      fun _ => hends.ok_iff⟩
  · intro o expected
    obtain ⟨result, xs, s', hrun, hends⟩ := (keeps_writeLaw o expected).run_always server s
    exact ⟨result, xs, s', hrun, hends, hends.questions, hends.ok_iff, hends.notFound_iff,
      fun _ => hends.conflict_iff⟩

end OrderDesk.Sql.Report
