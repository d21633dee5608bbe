import Relays.Library.Relation

/-! Who keeps a statement waiting: the transaction that holds the lock of the row it names, or
that has changed a row which clashes with the one it writes. -/

namespace ReadCommitted

variable {Key Tx Row : Type} {tx holder : Tx} {key : Key}

/-- Another transaction holds the lock that this one needs. -/
def Table.Kept (table : Table Key Tx Row) (key : Key) (tx holder : Tx) : Prop :=
    holder ≠ tx ∧ table.Owns holder key

theorem Table.free_of_unkept [DecidableEq Tx] {table : Table Key Tx Row}
    (unkept : ∀ holder, ¬ table.Kept key tx holder) :
    (table key).blocked tx = false := by
  apply Cell.blocked_eq_false.mpr
  intro owner version held
  by_contra different
  exact unkept owner ⟨different, version, held⟩

theorem Table.kept_of_blocked [DecidableEq Tx] {table : Table Key Tx Row}
    (blocked : (table key).blocked tx = true) :
    ∃ holder, table.Kept key tx holder := by
  by_contra unkept
  have free := free_of_unkept (not_exists.mp unkept)
  rw [blocked] at free
  cases free

namespace Relation

variable {relation before after : Relation Key Tx Row} {conflicts : Row → Bool} {row stored : Row}
variable {clash : Row → Row → Bool} {changed : Row → Option Row → Prop}

/-- Another transaction has changed a conflicting row, or changed one into it, and has not ended. -/
structure Disputed (relation : Relation Key Tx Row) (tx : Tx) (conflicts : Row → Bool) (holder : Tx)
    (key : Key) :
    Prop where
  kept : relation.cells.Kept key tx holder
  conflict : (relation.row key).any conflicts = true ∨
    (relation.uncommitted key).any conflicts = true

section Statements

variable [DecidableEq Tx] [DecidableEq Key] {matching : Row → Bool} {change : Row → Option Row}

theorem unique_waits (locked : relation.unique tx conflicts key = .waits) :
    ∃ holder other, relation.Disputed tx conflicts holder other := by
  unfold unique at locked
  dsimp only at locked
  split at locked
  · rename_i disputed
    obtain ⟨other, _, contest⟩ := List.any_eq_true.mp disputed
    simp only [contested, Bool.and_eq_true, Bool.or_eq_true] at contest
    obtain ⟨holder, kept⟩ := Table.kept_of_blocked contest.1
    exact ⟨holder, other, kept, contest.2⟩
  · split at locked <;> cases locked

theorem insert_waits (locked : relation.insert tx key row clash = .waits) :
    ∃ holder other, relation.Disputed tx (clash row) holder other := by
  unfold insert at locked
  split at locked
  · cases locked
  · split at locked
    · rename_i waits
      exact unique_waits waits
    · cases locked
    · cases locked

theorem update_waits (locked : relation.update tx key matching change = .waits) :
    ∃ holder, relation.cells.Kept key tx holder := by
  unfold update at locked
  split at locked
  · rename_i waits
    exact Table.kept_of_blocked (Table.update_waits waits)
  · cases locked
  · cases locked

/-- An update waits for its row, or once it has the row for what its new version clashes with. -/
theorem updateUnique_waits (locked : relation.updateUnique tx key matching change clash = .waits) :
    (∃ holder, relation.cells.Kept key tx holder) ∨
      ∃ row next holder other, change row = some next ∧
        relation.Disputed tx (clash next) holder other := by
  unfold updateUnique at locked
  split at locked
  · rename_i waits
    exact .inl (update_waits waits)
  · cases locked
  · cases locked
  · rename_i done
    obtain ⟨row, _, _, _, changes, _⟩ := update_returns done
    split at locked
    · rename_i waits
      obtain ⟨holder, other, disputed⟩ := unique_waits waits
      exact .inr ⟨row, _, holder, other, changes, disputed⟩
    · cases locked
    · cases locked

theorem delete_waits (locked : relation.delete tx key matching = .waits) :
    ∃ holder, relation.cells.Kept key tx holder := by
  unfold delete at locked
  split at locked
  · rename_i blocked
    exact Table.kept_of_blocked blocked
  · split at locked
    · cases locked
    · split at locked <;> cases locked

end Statements

/-- A transaction that is replacing the row a value clashes with is not disputed over that value. -/
theorem Sound.undisputed {version : Option Row} (sound : Sound clash changed relation)
    (held : (relation.cells key).pending = some (tx, version))
    (present : relation.row key = some stored)
    (replaces : ∀ other, clash row other = clash stored other) (holder : Tx) (other : Key) :
    ¬ relation.Disputed tx (clash row) holder other := by
  rintro ⟨⟨different, foreign, locked⟩, conflict⟩
  have apart : key ≠ other := by
    rintro rfl
    exact different (congrArg Prod.fst (Option.some.inj (locked.symm.trans held)))
  rcases conflict with committed | pending
  · obtain ⟨rival, there, clashes⟩ := (Option.any_eq_true _ _).mp committed
    rw [replaces, sound.distinct key other stored rival apart present there] at clashes
    cases clashes
  · obtain ⟨rival, written, clashes⟩ := (Option.any_eq_true _ _).mp pending
    rw [uncommitted, locked, Option.bind_some] at written
    obtain rfl : foreign = some rival := written
    rw [replaces] at clashes
    obtain ⟨_, replaced⟩ := sound.replaced key other holder stored rival apart present locked
      clashes
    exact different (congrArg Prod.fst (Option.some.inj (replaced.symm.trans held)))

end Relation

end ReadCommitted
