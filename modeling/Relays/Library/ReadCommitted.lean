import Mathlib.Logic.Function.Basic
import Mathlib.Data.List.Perm.Basic
import Mathlib.Data.List.Nodup

/-! Row versions under READ COMMITTED. A row carries the version every other
transaction reads and at most one uncommitted version, whose writer holds the
row lock until it commits or rolls back. -/

namespace ReadCommitted

/-- A statement waits for another transaction, is rejected by a constraint, or returns. -/
inductive Statement (α : Type) where
  | waits
  | violates
  | returns (value : α)

structure Cell (Tx Row : Type) where
  committed : Option Row
  pending : Option (Tx × Option Row)

/-- Rows by primary key or by the columns of a unique constraint. -/
abbrev Table (Key Tx Row : Type) := Key → Cell Tx Row

variable {Key Tx Row : Type}

def Table.empty : Table Key Tx Row := fun _ => ⟨none, none⟩

def Table.Owns (table : Table Key Tx Row) (tx : Tx) (key : Key) : Prop :=
  ∃ version, (table key).pending = some (tx, version)

variable [DecidableEq Tx] [DecidableEq Key]

/-- Another transaction holds the lock of this row. -/
def Cell.blocked (cell : Cell Tx Row) (tx : Tx) : Bool :=
  match cell.pending with
  | some (owner, _) => decide (owner ≠ tx)
  | none => false

/-- The row as a statement of this transaction sees it. -/
def Cell.view (cell : Cell Tx Row) (tx : Tx) : Option Row :=
  match cell.pending with
  | some (owner, version) => if owner = tx then version else cell.committed
  | none => cell.committed

def Cell.commit (cell : Cell Tx Row) (tx : Tx) : Cell Tx Row :=
  match cell.pending with
  | some (owner, version) => if owner = tx then ⟨version, none⟩ else cell
  | none => cell

def Cell.rollback (cell : Cell Tx Row) (tx : Tx) : Cell Tx Row :=
  match cell.pending with
  | some (owner, _) => if owner = tx then ⟨cell.committed, none⟩ else cell
  | none => cell

def Table.write (table : Table Key Tx Row) (key : Key) (tx : Tx) (version : Option Row) :
    Table Key Tx Row :=
  Function.update table key ⟨(table key).committed, some (tx, version)⟩

def Table.commit (table : Table Key Tx Row) (tx : Tx) : Table Key Tx Row :=
  fun key => (table key).commit tx

def Table.rollback (table : Table Key Tx Row) (tx : Tx) : Table Key Tx Row :=
  fun key => (table key).rollback tx

/-- `UPDATE … WHERE key AND matching RETURNING *`: no row is returned when none matches. -/
def Table.update (table : Table Key Tx Row) (key : Key) (tx : Tx) (matching : Row → Bool)
    (change : Row → Option Row) : Statement (Table Key Tx Row × Option Row) :=
  if (table key).blocked tx then .waits else
  match (table key).view tx with
  | none => .returns (table, none)
  | some row =>
    if matching row then
      match change row with
      | none => .violates
      | some next => .returns (table.write key tx (some next), some next)
    else .returns (table, none)

/-- `INSERT … ON CONFLICT (key) DO NOTHING RETURNING *`: waits for an uncommitted
conflicting row and returns no row when a conflicting row is visible. -/
def Table.insertOnConflict (table : Table Key Tx Row) (key : Key) (tx : Tx) (row : Row) :
    Statement (Table Key Tx Row × Option Row) :=
  if (table key).blocked tx then .waits else
  match (table key).view tx with
  | some _ => .returns (table, none)
  | none => .returns (table.write key tx (some row), some row)

/-- What one transaction may do to a table as the others see it: their own
uncommitted versions stay, and they are given no new ones. -/
structure Table.Frame (tx : Tx) (before after : Table Key Tx Row) : Prop where
  kept : ∀ key owner version, owner ≠ tx → (before key).pending = some (owner, version) →
    after key = before key
  granted : ∀ key owner version, owner ≠ tx → (after key).pending = some (owner, version) →
    (before key).pending = some (owner, version)

variable {table before middle after : Table Key Tx Row} {key : Key} {tx other : Tx}

theorem Cell.blocked_eq_false {cell : Cell Tx Row} :
    cell.blocked tx = false ↔ ∀ owner version, cell.pending = some (owner, version) →
      owner = tx := by
  rcases cell with ⟨committed, _ | ⟨owner, version⟩⟩ <;> simp [Cell.blocked]

theorem Cell.view_of_pending {cell : Cell Tx Row} (own : cell.pending = some (tx, version)) :
    cell.view tx = version := by
  simp [Cell.view, own]

theorem Cell.view_of_unowned {cell : Cell Tx Row}
    (free : ∀ version, cell.pending ≠ some (tx, version)) :
    cell.view tx = cell.committed := by
  rcases cell with ⟨committed, _ | ⟨owner, version⟩⟩
  · rfl
  · have different : owner ≠ tx := by
      intro same
      exact free version (by simp [same])
    simp [Cell.view, different]

omit [DecidableEq Tx] in
@[simp] theorem Table.write_self (table : Table Key Tx Row) (version : Option Row) :
    table.write key tx version key = ⟨(table key).committed, some (tx, version)⟩ := by
  simp [Table.write]

omit [DecidableEq Tx] in
theorem Table.write_of_ne {other : Key} (table : Table Key Tx Row) (version : Option Row)
    (different : other ≠ key) : table.write key tx version other = table other := by
  simp [Table.write, Function.update_of_ne different]

omit [DecidableEq Tx] in
@[simp] theorem Table.write_committed (table : Table Key Tx Row) (version : Option Row)
    (other : Key) :
    (table.write key tx version other).committed = (table other).committed := by
  by_cases same : other = key
  · subst same; simp
  · rw [Table.write_of_ne table version same]

omit [DecidableEq Key] in
theorem Table.commit_of_pending (own : (table key).pending = some (tx, version)) :
    table.commit tx key = ⟨version, none⟩ := by
  simp [Table.commit, Cell.commit, own]

omit [DecidableEq Key] in
theorem Table.commit_of_unowned (free : ∀ version, (table key).pending ≠ some (tx, version)) :
    table.commit tx key = table key := by
  cases held : (table key).pending with
  | none => simp [Table.commit, Cell.commit, held]
  | some pair =>
    obtain ⟨owner, version⟩ := pair
    have different : owner ≠ tx := by
      intro same
      exact free version (by rw [held, same])
    simp [Table.commit, Cell.commit, held, different]

omit [DecidableEq Key] in
@[simp] theorem Table.rollback_committed (table : Table Key Tx Row) :
    (table.rollback tx key).committed = (table key).committed := by
  simp only [Table.rollback, Cell.rollback]
  split
  · split <;> rfl
  · rfl

omit [DecidableEq Key] in
/-- After its commit a transaction owns nothing. -/
theorem Table.commit_unowned (table : Table Key Tx Row) : ¬ (table.commit tx).Owns tx key := by
  rintro ⟨version, held⟩
  simp only [Table.commit, Cell.commit] at held
  split at held
  · split at held
    · simp at held
    · rename_i owner _ found different
      rw [found] at held
      exact different (congrArg Prod.fst (Option.some.inj held))
  · simp_all

omit [DecidableEq Key] in
theorem Table.rollback_unowned (table : Table Key Tx Row) : ¬ (table.rollback tx).Owns tx key := by
  rintro ⟨version, held⟩
  simp only [Table.rollback, Cell.rollback] at held
  split at held
  · split at held
    · simp at held
    · rename_i owner _ found different
      rw [found] at held
      exact different (congrArg Prod.fst (Option.some.inj held))
  · simp_all

omit [DecidableEq Key] in
/-- What another transaction still holds after a commit, it held before. -/
theorem Table.pending_of_commit {owner : Tx}
    (held : (table.commit tx key).pending = some (owner, version)) :
    (table key).pending = some (owner, version) ∧ table.commit tx key = table key := by
  simp only [Table.commit, Cell.commit] at held ⊢
  split at held
  · split at held
    · simp at held
    · rename_i different
      rw [if_neg different]
      exact ⟨held, rfl⟩
  · exact ⟨held, rfl⟩

omit [DecidableEq Key] in
theorem Table.pending_of_rollback {owner : Tx}
    (held : (table.rollback tx key).pending = some (owner, version)) :
    (table key).pending = some (owner, version) := by
  simp only [Table.rollback, Cell.rollback] at held
  split at held
  · split at held
    · simp at held
    · exact held
  · exact held

theorem Table.update_waits {change : Row → Option Row} {matching : Row → Bool}
    (locked : table.update key tx matching change = .waits) : (table key).blocked tx = true := by
  unfold Table.update at locked
  split at locked
  · assumption
  · split at locked
    · cases locked
    · split at locked
      · split at locked <;> cases locked
      · cases locked

theorem Table.update_returns {change : Row → Option Row} {matching : Row → Bool} {next : Row}
    (done : table.update key tx matching change = .returns (after, some next)) :
    ∃ row, (table key).blocked tx = false ∧ (table key).view tx = some row ∧ matching row = true ∧
      change row = some next ∧ after = table.write key tx (some next) := by
  unfold Table.update at done
  split at done
  · cases done
  · rename_i free
    split at done
    · simp at done
    · rename_i row seen
      split at done
      · rename_i matched
        split at done
        · cases done
        · rename_i result changed
          simp only [Statement.returns.injEq, Prod.mk.injEq, Option.some.injEq] at done
          obtain ⟨written, rfl⟩ := done
          exact ⟨row, by simpa using free, seen, matched, changed, written.symm⟩
      · simp at done

theorem Table.update_returns_none {change : Row → Option Row} {matching : Row → Bool}
    (done : table.update key tx matching change = .returns (after, none)) :
    after = table ∧ ∀ row, (table key).view tx = some row → matching row = false := by
  unfold Table.update at done
  split at done
  · cases done
  · split at done
    · rename_i absent
      simp only [Statement.returns.injEq, Prod.mk.injEq, and_true] at done
      exact ⟨done.symm, by simp [absent]⟩
    · rename_i row seen
      split at done
      · split at done <;> simp at done
      · rename_i unmatched
        simp only [Statement.returns.injEq, Prod.mk.injEq, and_true] at done
        refine ⟨done.symm, ?_⟩
        intro other found
        obtain rfl := Option.some.inj (seen.symm.trans found)
        simpa using unmatched

theorem Table.update_violates {change : Row → Option Row} {matching : Row → Bool}
    (failed : table.update key tx matching change = .violates) :
    ∃ row, (table key).blocked tx = false ∧ (table key).view tx = some row ∧ matching row = true ∧
      change row = none := by
  unfold Table.update at failed
  split at failed
  · cases failed
  · rename_i free
    split at failed
    · cases failed
    · rename_i row seen
      split at failed
      · rename_i matched
        split at failed
        · rename_i rejected
          exact ⟨row, by simpa using free, seen, matched, rejected⟩
        · cases failed
      · cases failed

/-- An update of a row that no other transaction holds. -/
theorem Table.update_of_view {change : Row → Option Row} {matching : Row → Bool} {row next : Row}
    (free : (table key).blocked tx = false) (seen : (table key).view tx = some row)
    (matched : matching row = true) (changed : change row = some next) :
    table.update key tx matching change = .returns (table.write key tx (some next), some next) := by
  simp [Table.update, free, seen, matched, changed]

theorem Table.update_rejected {change : Row → Option Row} {matching : Row → Bool} {row : Row}
    (free : (table key).blocked tx = false) (seen : (table key).view tx = some row)
    (matched : matching row = true) (rejected : change row = none) :
    table.update key tx matching change = .violates := by
  simp [Table.update, free, seen, matched, rejected]

theorem Table.insertOnConflict_returns {row next : Row}
    (done : table.insertOnConflict key tx row = .returns (after, some next)) :
    (table key).blocked tx = false ∧ (table key).view tx = none ∧ next = row ∧
      after = table.write key tx (some row) := by
  unfold Table.insertOnConflict at done
  split at done
  · cases done
  · rename_i free
    split at done
    · simp at done
    · rename_i absent
      simp only [Statement.returns.injEq, Prod.mk.injEq, Option.some.injEq] at done
      exact ⟨by simpa using free, absent, done.2.symm, done.1.symm⟩

theorem Table.insertOnConflict_returns_none {row : Row}
    (done : table.insertOnConflict key tx row = .returns (after, none)) :
    (table key).blocked tx = false ∧ (∃ found, (table key).view tx = some found) ∧
      after = table := by
  unfold Table.insertOnConflict at done
  split at done
  · cases done
  · rename_i free
    split at done
    · rename_i found seen
      simp only [Statement.returns.injEq, Prod.mk.injEq, and_true] at done
      exact ⟨by simpa using free, ⟨found, seen⟩, done.symm⟩
    · simp at done

omit [DecidableEq Tx] [DecidableEq Key] in
theorem Table.Frame.refl (tx : Tx) (table : Table Key Tx Row) : table.Frame tx table where
  kept _ _ _ _ _ := rfl
  granted _ _ _ _ held := held

omit [DecidableEq Tx] [DecidableEq Key] in
theorem Table.Frame.trans (first : Table.Frame tx before middle)
    (second : Table.Frame tx middle after) :
    Table.Frame tx before after where
  kept key owner version different held := by
    have same := first.kept key owner version different held
    exact (second.kept key owner version different (same ▸ held)).trans same
  granted key owner version different held :=
    first.granted key owner version different (second.granted key owner version different held)

theorem Table.Frame.write (free : (table key).blocked tx = false) (version : Option Row) :
    Table.Frame tx table (table.write key tx version) where
  kept other owner held different found := by
    have elsewhere : other ≠ key := by
      rintro rfl
      exact different (Cell.blocked_eq_false.mp free owner held found)
    exact Table.write_of_ne table version elsewhere
  granted other owner held different found := by
    by_cases same : other = key
    · subst same
      simp only [Table.write_self, Option.some.injEq, Prod.mk.injEq] at found
      exact absurd found.1.symm different
    · rwa [Table.write_of_ne table version same] at found

omit [DecidableEq Key] in
theorem Table.Frame.commit (table : Table Key Tx Row) : Table.Frame tx table (table.commit tx) where
  kept key owner version different held := by
    simp [Table.commit, Cell.commit, held, different]
  granted key owner version different held := by
    simp only [Table.commit, Cell.commit] at held
    split at held
    · split at held
      · simp at held
      · exact held
    · exact held

omit [DecidableEq Key] in
theorem Table.Frame.rollback (table : Table Key Tx Row) :
    Table.Frame tx table (table.rollback tx) where
  kept key owner version different held := by
    simp [Table.rollback, Cell.rollback, held, different]
  granted key owner version different held := by
    simp only [Table.rollback, Cell.rollback] at held
    split at held
    · split at held
      · simp at held
      · exact held
    · exact held

omit [DecidableEq Tx] [DecidableEq Key] in
theorem Table.Frame.owns (frame : Table.Frame tx before after) (different : other ≠ tx) :
    after.Owns other key ↔ before.Owns other key := by
  constructor
  · rintro ⟨version, held⟩
    exact ⟨version, frame.granted key other version different held⟩
  · rintro ⟨version, held⟩
    exact ⟨version, by rw [frame.kept key other version different held]; exact held⟩

/-- An append-only table: committed rows in commit order and uncommitted inserts. -/
structure Heap (Tx Row : Type) where
  committed : List Row
  pending : List (Tx × Row)

variable {heap first second third : Heap Tx Row}

/-- The uncommitted inserts of one transaction. -/
def Heap.own (heap : Heap Tx Row) (tx : Tx) : List Row :=
  (heap.pending.filter (fun insert => insert.1 = tx)).map Prod.snd

/-- `INSERT` under a unique constraint: a visible conflict is a violation, another
transaction's uncommitted conflict is waited for. -/
def Heap.insert (heap : Heap Tx Row) (tx : Tx) (row : Row) (conflicts : Row → Bool) :
    Statement (Heap Tx Row) :=
  if heap.committed.any conflicts || (heap.own tx).any conflicts then .violates
  else if heap.pending.any (fun insert => conflicts insert.2) then .waits
  else .returns { heap with pending := heap.pending ++ [(tx, row)] }

def Heap.commit (heap : Heap Tx Row) (tx : Tx) : Heap Tx Row where
  committed := heap.committed ++ heap.own tx
  pending := heap.pending.filter (fun insert => insert.1 ≠ tx)

def Heap.rollback (heap : Heap Tx Row) (tx : Tx) : Heap Tx Row where
  committed := heap.committed
  pending := heap.pending.filter (fun insert => insert.1 ≠ tx)

/-- The uncommitted inserts of the other transactions stay. -/
def Heap.Frame (tx : Tx) (before after : Heap Tx Row) : Prop :=
  ∀ other, other ≠ tx → after.own other = before.own other

theorem Heap.insert_returns {row : Row} {conflicts : Row → Bool}
    (done : first.insert tx row conflicts = .returns second) :
    (∀ stored ∈ first.committed, conflicts stored = false) ∧
      second = { first with pending := first.pending ++ [(tx, row)] } := by
  unfold Heap.insert at done
  split at done
  · cases done
  · rename_i distinct
    split at done
    · cases done
    · simp only [Bool.or_eq_true, List.any_eq_true, not_or, not_exists, not_and] at distinct
      simp only [Statement.returns.injEq] at done
      exact ⟨fun stored member => by simpa using distinct.1 stored member, done.symm⟩

theorem Heap.insert_of_free {row : Row} {conflicts : Row → Bool}
    (committed : ∀ stored ∈ first.committed, conflicts stored = false)
    (pending : ∀ insert ∈ first.pending, conflicts insert.2 = false) :
    first.insert tx row conflicts =
      .returns { first with pending := first.pending ++ [(tx, row)] } := by
  have uncommitted : ∀ stored ∈ first.own tx, conflicts stored = false := by
    intro stored member
    obtain ⟨insert, held, rfl⟩ := List.mem_map.mp member
    exact pending insert (List.mem_filter.mp held).1
  have distinct : (first.committed.any conflicts || (first.own tx).any conflicts) = false := by
    rw [Bool.or_eq_false_iff]
    exact ⟨List.any_eq_false.mpr fun stored member => by simp [committed stored member],
      List.any_eq_false.mpr fun stored member => by simp [uncommitted stored member]⟩
  have free : (first.pending.any fun insert => conflicts insert.2) = false :=
    List.any_eq_false.mpr fun insert member => by simp [pending insert member]
  simp [Heap.insert, distinct, free]

theorem Heap.own_append (row : Row) (other : Tx) :
    Heap.own { heap with pending := heap.pending ++ [(tx, row)] } other =
      heap.own other ++ if tx = other then [row] else [] := by
  by_cases same : tx = other <;> simp [Heap.own, same]

/-- A statement of `tx` that writes nothing into the table. -/
theorem Heap.own_kept {own expected : List Row} (held : heap.own tx = own) (same : expected = own)
    (other : Tx) :
    heap.own other = if other = tx then expected else heap.own other := by
  split
  · rename_i mine
    rw [mine, held, same]
  · rfl

/-- A statement of `tx` that adds a row to the table. -/
theorem Heap.own_added {own expected : List Row} {row : Row} (held : heap.own tx = own)
    (added : expected = own ++ [row])
    (other : Tx) : Heap.own { heap with pending := heap.pending ++ [(tx, row)] } other =
      if other = tx then expected else heap.own other := by
  rw [Heap.own_append]
  split
  · rename_i mine
    rw [← mine, if_pos rfl, held, added]
  · rename_i foreign
    rw [if_neg (Ne.symm foreign), List.append_nil]

theorem Heap.own_filter (other : Tx) (rows : List Row) :
    Heap.own ⟨rows, heap.pending.filter (fun insert => insert.1 ≠ tx)⟩ other =
      if other = tx then [] else heap.own other := by
  by_cases same : other = tx
  · subst same
    simp [Heap.own, List.filter_filter]
  · have agrees : ∀ insert ∈ heap.pending,
        (decide (insert.1 = other) && decide (insert.1 ≠ tx)) = decide (insert.1 = other) := by
      intro insert _
      by_cases hit : insert.1 = other <;> simp [hit, same]
    simp only [Heap.own, List.filter_filter, same, ↓reduceIte]
    rw [List.filter_congr agrees]

theorem Heap.own_commit (heap : Heap Tx Row) (other : Tx) :
    (heap.commit tx).own other = if other = tx then [] else heap.own other :=
  Heap.own_filter other _

theorem Heap.own_rollback (heap : Heap Tx Row) (other : Tx) :
    (heap.rollback tx).own other = if other = tx then [] else heap.own other :=
  Heap.own_filter other _

theorem Heap.Frame.refl (tx : Tx) (heap : Heap Tx Row) : heap.Frame tx heap := fun _ _ => rfl

theorem Heap.Frame.insert {row : Row} {conflicts : Row → Bool}
    (done : first.insert tx row conflicts = .returns second) : first.Frame tx second := by
  intro other different
  obtain ⟨_, rfl⟩ := Heap.insert_returns done
  rw [Heap.own_append, if_neg (Ne.symm different), List.append_nil]

theorem Heap.Frame.commit (heap : Heap Tx Row) : heap.Frame tx (heap.commit tx) := by
  intro other different
  rw [Heap.own_commit, if_neg different]

theorem Heap.Frame.rollback (heap : Heap Tx Row) : heap.Frame tx (heap.rollback tx) := by
  intro other different
  rw [Heap.own_rollback, if_neg different]

/-- The rows of all transactions, committed or not. -/
def Heap.rows (heap : Heap Tx Row) : List Row := heap.committed ++ heap.pending.map Prod.snd

theorem Heap.mem_own_rows {row : Row}
    (member : row ∈ heap.own tx) : row ∈ heap.pending.map Prod.snd := by
  obtain ⟨insert, held, rfl⟩ := List.mem_map.mp member
  exact List.mem_map.mpr ⟨insert, (List.mem_filter.mp held).1, rfl⟩

theorem Heap.rows_commit (heap : Heap Tx Row) (tx : Tx) : (heap.commit tx).rows.Perm heap.rows := by
  have split := List.filter_append_perm (fun insert : Tx × Row => decide (insert.1 = tx))
    heap.pending
  unfold Heap.rows Heap.commit Heap.own
  rw [List.append_assoc, ← List.map_append]
  apply List.Perm.append_left
  apply List.Perm.map
  simpa using split

theorem Heap.rows_rollback (heap : Heap Tx Row)
    (tx : Tx) : (heap.rollback tx).rows.Sublist heap.rows :=
  (List.filter_sublist.map Prod.snd).append_left heap.committed

/-- A unique row is inserted where no transaction has it. -/
theorem Heap.insert_unique [DecidableEq Row] {row : Row}
    (done : first.insert tx row (· = row) = .returns second) : row ∉ first.rows ∧
      second.rows = first.rows ++ [row] := by
  obtain ⟨absent, rfl⟩ := Heap.insert_returns done
  unfold Heap.insert at done
  split at done
  · cases done
  · split at done
    · cases done
    · rename_i free
      refine ⟨?_, by simp [Heap.rows]⟩
      intro member
      rcases List.mem_append.mp member with stored | pending
      · simpa using absent row stored
      · obtain ⟨insert, held, same⟩ := List.mem_map.mp pending
        exact free (List.any_eq_true.mpr ⟨insert, held, by simpa using same⟩)

theorem Heap.own_fresh {row : Row} (distinct : heap.rows.Nodup)
    (member : row ∈ heap.own tx) : row ∉ heap.committed :=
  fun stored => List.disjoint_of_nodup_append distinct stored (Heap.mem_own_rows member)

end ReadCommitted
