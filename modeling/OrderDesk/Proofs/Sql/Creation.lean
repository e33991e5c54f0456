import OrderDesk.Proofs.Sql.Reading

/-!
# A creation is stored or undone

Whatever the server answers, a creation sends its statements in one order, each after the one before
went well. After the first that did not it only rolls back, and it tells of a failure; if the commit
went well it returns the order, with the id and the instants that the row of the order came back
with.

## Main definitions

* `Creation.statements`: the statements of a creation
* `Creation.WentWell`: statements that went well
* `Creation.Ends`: how a creation ends

## Main results

* `Creation.keeps_endsLaw`: there is no other end
* `Creation.stored_or_undone`: a creation against any server
-/

namespace OrderDesk.Sql.Creation

/-- **What a creation inserts** in its transaction: the row of the order, then one row a part, under
the id that the order got. -/
def insertions (o : Order) (id : Uuid) : List Statement :=
  .beginTransaction ::
    .insertOrder o.user o.total o.status.name o.transaction (o.method.map Method.name) ::
    o.parts.mapIdx fun position part => .insertPart id (Int32.ofNat position) part

/-- **The statements of a creation**, the commit behind all of the rows. -/
def statements (o : Order) (id : Uuid) : List Statement := insertions o id ++ [.commit]

/-- **A statement went well**, and the row of an order came back with what was made up for it. -/
inductive WentWell (made : Created) : Spoken → Prop
  | begun : WentWell made (said .beginTransaction (.ok ()))
  | inserted {user : String} {total : Float} {status : String} {transaction method : Option String}
    (more : List CreatedRow) :
    WentWell made (said (.insertOrder user total status transaction method)
      (.ok (⟨some made.id, some made.createdAt, some made.updatedAt⟩ :: more)))
  | part {order : Uuid} {position : Int32} {part : String} (changed : Nat) :
    WentWell made (said (.insertPart order position part) (.ok changed))
  | committed : WentWell made (said .commit (.ok ()))

/-- **How a creation ends**, after what was sent and answered. -/
inductive Ends (o : Order) : List Spoken → Except StoreError Order → Prop
  /-- All went well. -/
  | stored {made : Created} {sent : List Spoken}
    (all : sent.map (·.question) = statements o made.id) (well : ∀ x ∈ sent, WentWell made x) :
    Ends o sent (.ok { o with
      id := made.id, createdAt := made.createdAt, updatedAt := made.updatedAt })
  /-- The last statement did not go well, and was rolled back unless it was the first. -/
  | undone (made : Created) (sent : List Spoken) {last : Spoken} {reason : String}
    (course : (sent ++ [last]).map (·.question) <+: statements o made.id)
    (well : ∀ x ∈ sent, WentWell made x) (unwell : ∀ made, ¬ WentWell made last)
    {back : List Spoken}
    (rolled : back = [] ∧ sent = [] ∨ (∃ answer, back = [said .rollback answer]) ∧ sent ≠ []) :
    Ends o (sent ++ last :: back) (.error (.storage reason))

/-- The law that binds only how a creation ends. -/
def endsLaw (o : Order) : Law Statement Statement.Answer (Except StoreError Order) where
  asks _ _ := True
  ends := Ends o

variable {o : Order} {made : Created} {sent : List Spoken}

/-- **A statement that did not go well** is rolled back. -/
theorem keeps_rollback (made : Created) {last : Spoken} {reason : String}
    (course : (sent ++ [last]).map (·.question) <+: statements o made.id)
    (well : ∀ x ∈ sent, WentWell made x) (unwell : ∀ made, ¬ WentWell made last)
    (begun : sent ≠ []) :
    (orRollback (failed reason : StoreCall Order)).Keeps (endsLaw o) (sent ++ [last]) := by
  refine ⟨trivial, fun answer => ?_⟩
  rw [List.append_assoc]
  exact .undone made sent course well unwell (.inr ⟨⟨answer, rfl⟩, begun⟩)

theorem not_wentWell_error {q : Statement} {reason : String} (made : Created) :
    ¬ WentWell made (said q (.error reason)) := by
  intro h
  cases h

/-- One statement more went well. -/
theorem well_concat {last : Spoken} (well : ∀ x ∈ sent, WentWell made x)
    (h : WentWell made last) : ∀ x ∈ sent ++ [last], WentWell made x := by
  intro x mem
  rcases List.mem_append.mp mem with mem | mem
  · exact well x mem
  · obtain rfl := List.mem_singleton.mp mem
    exact h

/-- **The rows of the remaining parts** are inserted one after the other, and then all is committed.
-/
theorem keeps_remaining (position : Nat) {rest : List String}
    (course : sent.map (·.question) ++
      ((rest.mapIdx fun i part => .insertPart made.id (Int32.ofNat (i + position)) part) ++
        [.commit]) = statements o made.id)
    (well : ∀ x ∈ sent, WentWell made x) (begun : sent ≠ []) :
    (orRollback (insertParts made.id (send .commit fun _ =>
      .done (.ok { o with
        id := made.id, createdAt := made.createdAt, updatedAt := made.updatedAt }))
      position rest)).Keeps (endsLaw o) sent := by
  -- by the parts that remain; what was sent and what is still to be sent make up the whole
  induction rest generalizing sent position with
  | nil =>
    refine ⟨trivial, ?_⟩
    rintro (reason | _)
    · refine keeps_rollback made ?_ well not_wentWell_error begun
      rw [List.map_append, ← course]
      exact List.prefix_refl _
    · refine .stored ?_ (well_concat well .committed)
      rw [List.map_append, ← course]
      rfl
  | cons part rest ih =>
    rw [List.mapIdx_cons, Nat.zero_add] at course
    refine ⟨trivial, ?_⟩
    rintro (reason | changed)
    · refine keeps_rollback made ?_ well not_wentWell_error begun
      rw [← course, List.map_append]
      exact ⟨_, List.append_assoc ..⟩
    · refine ih (position + 1) ?_ (well_concat well (.part changed)) (by simp)
      rw [← course, List.map_append, List.append_assoc]
      simp only [Nat.add_assoc, Nat.add_comm 1 position]
      rfl

/-- Nothing was made up yet. -/
def unmade : Created := ⟨.nil, .epoch, .epoch⟩

/-- **There is no other end** of a creation, whatever it is answered. -/
theorem keeps_endsLaw (o : Order) : (create o).Keeps (endsLaw o) [] := by
  refine ⟨trivial, ?_⟩
  rintro (reason | _)
  · exact .undone unmade [] ⟨_, rfl⟩ (by simp) not_wentWell_error (.inl ⟨rfl, rfl⟩)
  refine ⟨trivial, ?_⟩
  have hbegun : ∀ made, ∀ x ∈ [said .beginTransaction (.ok ())], WentWell made x := by
    intro made x mem
    obtain rfl := List.mem_singleton.mp mem
    exact .begun
  rintro (reason | rows)
  · exact keeps_rollback unmade ⟨_, rfl⟩ (hbegun _) not_wentWell_error (by simp)
  simp only
  cases hread : firstCreated rows with
  | error fault =>
    refine keeps_rollback unmade ⟨_, rfl⟩ (hbegun _) ?_ (by simp)
    intro made h
    cases h
    cases hread
  | ok made =>
    obtain ⟨more, rfl⟩ := firstCreated_eq_ok_iff.mp hread
    exact keeps_remaining 0 rfl (well_concat (hbegun made) (.inserted more)) (by simp)

/-! ## What was committed -/

theorem commit_not_mem_insertions (o : Order) (id : Uuid) : .commit ∉ insertions o id := by
  simp [insertions, List.mem_mapIdx]

/-- What goes on to another statement of a creation is no commit. -/
theorem not_commit_of_mem {last : Spoken}
    (course : (sent ++ [last]).map (·.question) <+: statements o made.id) {x : Spoken}
    (mem : x ∈ sent) : x.question ≠ .commit := by
  have hsent : sent.map (·.question) <+: insertions o made.id := by
    rw [List.map_append, List.map_singleton, statements, List.prefix_concat_iff] at course
    rcases course with hall | hpart
    · have hsame := (List.append_inj' hall rfl).1
      exact hsame ▸ List.prefix_refl _
    · exact (List.prefix_append _ _).trans hpart
  intro hcommit
  apply commit_not_mem_insertions o made.id
  rw [← hcommit]
  exact hsent.subset (List.mem_map_of_mem mem)

/-- **A creation succeeds exactly if it was committed.** -/
theorem Ends.ok_iff {result : Except StoreError Order} {xs : List Spoken} (h : Ends o xs result) :
    (∃ v, result = .ok v) ↔ said .commit (.ok ()) ∈ xs := by
  cases h with
  | @stored made sent all well =>
    refine iff_of_true ⟨_, rfl⟩ ?_
    have hmem : Statement.commit ∈ xs.map (·.question) := by
      rw [all]
      exact List.mem_append_right _ (List.mem_singleton_self _)
    obtain ⟨⟨q, answer⟩, hx, rfl⟩ := List.mem_map.mp hmem
    cases well _ hx
    exact hx
  | @undone made sent last reason course well unwell back rolled =>
    refine iff_of_false (by simp) fun mem => ?_
    rcases List.mem_append.mp mem with mem | mem
    · exact not_commit_of_mem course mem rfl
    rcases List.mem_cons.mp mem with rfl | mem
    · exact unwell made .committed
    rcases rolled with ⟨rfl, -⟩ | ⟨⟨answer, rfl⟩, -⟩
    · cases mem
    · cases List.mem_singleton.mp mem

/-- The place of a part in the order is its place among the rows. -/
theorem getElem?_statements (id : Uuid) {i : Nat} (h : i < o.parts.length) :
    (statements o id)[i + 2]? = some (.insertPart id (Int32.ofNat i) o.parts[i]) := by
  have hi : i < (o.parts.mapIdx fun position part =>
      Statement.insertPart id (Int32.ofNat position) part).length := by
    rwa [List.length_mapIdx]
  simp only [statements, insertions, List.cons_append, List.getElem?_cons_succ]
  rw [List.getElem?_append_left hi, List.getElem?_mapIdx, List.getElem?_eq_getElem h]
  rfl

/-- **A creation is stored or undone**, whatever the server answers. It comes to an end. Its
statements are sent in one order, each after the ones before went well; after the first that did
not it only rolls back, and fails for a reason of the database. It succeeds exactly if it was
committed, with the id and the instants that the row of the order came back with. The parts are
inserted by their places in the order, the numbers from zero on. -/
theorem stored_or_undone (o : Order) (few : o.parts.length ≤ mostParts) {σ : Type}
    (server : (q : Statement) → σ → q.Answer × σ) (s : σ) :
    ∃ result xs s', (create o).run (Program.noted (Program.always server)) (s, []) =
        (some result, s', xs) ∧
      Ends o xs result ∧
      ((∃ v, result = .ok v) ↔ said .commit (.ok ()) ∈ xs) ∧
      ∀ id i, (h : i < o.parts.length) → ∃ position : Int32, position.toInt = i ∧
        (statements o id)[i + 2]? = some (.insertPart id position o.parts[i]) := by
  obtain ⟨result, xs, s', hrun, hends⟩ := (keeps_endsLaw o).run_always server s
  refine ⟨result, xs, s', hrun, hends, hends.ok_iff, ?_⟩
  intro id i h
  exact ⟨Int32.ofNat i, toInt_ofNat (Nat.lt_of_lt_of_le h few), getElem?_statements id h⟩

/-- A database that answers well, until its disk is full after some more rows of parts. -/
def almostFull : (q : Statement) → Nat → q.Answer × Nat
  | .insertPart .., 0 => (.error "disk full", 0)
  | .insertPart .., room + 1 => ((.ok 1 : Except String Nat), room)
  | .updateOrder .., room => ((.ok 1 : Except String Nat), room)
  | .insertOrder .., room =>
    ((.ok [⟨some .nil, some .epoch, some .epoch⟩] : Except String (List CreatedRow)), room)
  | .selectOrder _, room => ((.ok [] : Except String (List OrderRow)), room)
  | .selectParts _, room | .selectStatus _, room =>
    ((.ok [] : Except String (List (Option String))), room)
  | .beginTransaction, room | .commit, room | .rollback, room =>
    ((.ok () : Except String Unit), room)

/-- An order of two parts. -/
def pair : Order := Order.placed .nil .epoch "user-1" ["wing", "engine"] 15

theorem stored_or_undone_almostFull :
    pair.parts.length ≤ mostParts ∧ ∃ result xs s',
      (create pair).run (Program.noted (Program.always almostFull)) (1, []) =
        (some result, s', xs) ∧
      Ends pair xs result ∧ xs.length = 5 ∧ said .commit (.ok ()) ∉ xs ∧
      ¬ ∃ v, result = .ok v := by
  refine ⟨by decide, ?_⟩
  obtain ⟨result, xs, s', hrun, hends, hcommit, -⟩ :=
    stored_or_undone pair (by decide) almostFull 1
  have hfull : (create pair).run (Program.noted (Program.always almostFull)) (1, []) =
      (some (.error (.storage (Fault.refused "disk full").message)), 0,
        [said .beginTransaction (.ok ()),
          said (insertOrder pair) (.ok [⟨some .nil, some .epoch, some .epoch⟩]),
          said (.insertPart .nil 0 "wing") (.ok (1 : Nat)),
          said (.insertPart .nil 1 "engine") (.error "disk full"),
          said .rollback (.ok ())]) := rfl
  rw [hfull] at hrun
  cases hrun
  have hfailed : ¬ ∃ v : Order,
      Except.error (StoreError.storage (Fault.refused "disk full").message) = .ok v := by simp
  exact ⟨_, _, _, hfull, hends, rfl, hcommit.not.mp hfailed, hfailed⟩

end OrderDesk.Sql.Creation
