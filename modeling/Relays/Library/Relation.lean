import Relays.Library.ReadCommitted
import Mathlib.Data.List.Basic

/-! Tables that are searched by other columns than their key: the keys ever inserted are
listed in insertion order, and a statement that names a row by a value first picks its key
from what its transaction sees and then waits for the lock of that key. -/

namespace ReadCommitted

/-- A row that passes the CHECK constraints of its table. -/
def admitted {Row : Type} (Checks : Row → Prop) [DecidablePred Checks]
    (row : Row) : Option { row // Checks row } :=
  if checks : Checks row then some ⟨row, checks⟩ else none

theorem admitted_eq_some {Row : Type} {Checks : Row → Prop} [DecidablePred Checks] {row : Row}
    {stored : { row // Checks row }} : admitted Checks row = some stored ↔ stored.val = row := by
  unfold admitted
  split
  · rename_i checks
    rw [Option.some.injEq, Subtype.ext_iff]
    exact eq_comm
  · rename_i broken
    simp only [reduceCtorEq, false_iff]
    rintro rfl
    exact broken stored.property

structure Relation (Key Tx Row : Type) where
  cells : Table Key Tx Row
  keys : List Key

variable {Key Tx Row : Type}

namespace Relation

def empty : Relation Key Tx Row := ⟨Table.empty, []⟩

/-- The committed row of a key. -/
def row (relation : Relation Key Tx Row) (key : Key) : Option Row := (relation.cells key).committed

/-- `SELECT … WHERE matching` outside a transaction: the committed rows, in the order of their
keys. -/
def select (relation : Relation Key Tx Row) (matching : Row → Bool) : List (Key × Row) :=
  relation.keys.filterMap fun key =>
    (relation.row key).bind fun row => if matching row then some (key, row) else none

variable [DecidableEq Tx] [DecidableEq Key]

/-- `SELECT … WHERE matching`: the first row that the transaction sees. -/
def find (relation : Relation Key Tx Row) (tx : Tx) (matching : Row → Bool) : Option (Key × Row) :=
  relation.keys.findSome? fun key =>
    ((relation.cells key).view tx).bind fun row => if matching row then some (key, row) else none

/-- The version of the row that its writer has not committed, if it has not deleted the row. -/
def uncommitted (relation : Relation Key Tx Row) (key : Key) : Option Row :=
  (relation.cells key).pending.bind Prod.snd

/-- Another transaction has changed a conflicting row, or changed one into it, and has not ended. -/
def contested (relation : Relation Key Tx Row) (tx : Tx) (conflicts : Row → Bool)
    (key : Key) : Bool :=
  (relation.cells key).blocked tx &&
    ((relation.row key).any conflicts || (relation.uncommitted key).any conflicts)

/-- The unique constraints of a row to be written under this key. -/
def unique (relation : Relation Key Tx Row) (tx : Tx) (conflicts : Row → Bool)
    (key : Key) : Statement Unit :=
  let others := relation.keys.filter (· ≠ key)
  if others.any (relation.contested tx conflicts) then .waits
  else if others.any (fun other => ((relation.cells other).view tx).any conflicts) then .violates
  else .returns ()

/-- `INSERT` of a row; a primary key is not used twice. -/
def insert (relation : Relation Key Tx Row) (tx : Tx) (key : Key) (row : Row)
    (clash : Row → Row → Bool) :
    Statement (Relation Key Tx Row) :=
  if key ∈ relation.keys then .violates else
  match relation.unique tx (clash row) key with
  | .waits => .waits
  | .violates => .violates
  | .returns _ => .returns ⟨relation.cells.write key tx (some row), relation.keys ++ [key]⟩

/-- `UPDATE … WHERE key AND matching RETURNING *`, of no column under a unique constraint. -/
def update (relation : Relation Key Tx Row) (tx : Tx) (key : Key) (matching : Row → Bool)
    (change : Row → Option Row) : Statement (Relation Key Tx Row × Option Row) :=
  match relation.cells.update key tx matching change with
  | .waits => .waits
  | .violates => .violates
  | .returns (cells, updated) => .returns (⟨cells, relation.keys⟩, updated)

/-- `UPDATE … WHERE key AND matching RETURNING *`, of columns under unique constraints. -/
def updateUnique (relation : Relation Key Tx Row) (tx : Tx) (key : Key) (matching : Row → Bool)
    (change : Row → Option Row)
    (clash : Row → Row → Bool) : Statement (Relation Key Tx Row × Option Row) :=
  match relation.update tx key matching change with
  | .waits => .waits
  | .violates => .violates
  | .returns (next, none) => .returns (next, none)
  | .returns (next, some row) =>
    match relation.unique tx (clash row) key with
    | .waits => .waits
    | .violates => .violates
    | .returns _ => .returns (next, some row)

/-- `DELETE … WHERE key AND matching`. -/
def delete (relation : Relation Key Tx Row) (tx : Tx) (key : Key) (matching : Row → Bool) :
    Statement (Relation Key Tx Row × Bool) :=
  if (relation.cells key).blocked tx then .waits else
  match (relation.cells key).view tx with
  | none => .returns (relation, false)
  | some row =>
    if matching row then .returns (⟨relation.cells.write key tx none, relation.keys⟩, true)
    else .returns (relation, false)

def commit (relation : Relation Key Tx Row) (tx : Tx) : Relation Key Tx Row :=
  ⟨relation.cells.commit tx, relation.keys⟩

def rollback (relation : Relation Key Tx Row) (tx : Tx) : Relation Key Tx Row :=
  ⟨relation.cells.rollback tx, relation.keys⟩

/-- What the transaction has written and not yet committed. -/
def Owned (relation : Relation Key Tx Row) (tx : Tx) (writes : List (Key × Option Row)) : Prop :=
  ∀ key version, (relation.cells key).pending = some (tx, version) ↔ (key, version) ∈ writes

/-- One statement of a transaction or its end, with what it has written before and after. A row is
rewritten by a transaction that has written nothing else. -/
inductive Moves (clash : Row → Row → Bool) (changed : Row → Option Row → Prop) (tx : Tx) :
    List (Key × Option Row) → Relation Key Tx Row → List (Key × Option Row) → Relation Key Tx Row →
      Prop where
  | stay : Moves clash changed tx writes relation writes relation
  | insert {row : Row} (fresh : key ∉ relation.keys)
      (distinct : relation.unique tx (clash row) key = .returns ()) :
      Moves clash changed tx writes relation (writes ++ [(key, some row)])
        ⟨relation.cells.write key tx (some row), relation.keys ++ [key]⟩
  | rewrite {row : Row} (member : key ∈ relation.keys)
      (free : (relation.cells key).blocked tx = false)
      (seen : (relation.cells key).view tx = some row) (permitted : changed row version)
      (distinct : ∀ next, version = some next →
        relation.unique tx (clash next) key = .returns () ∨
          ∀ other, clash next other = clash row other) :
      Moves clash changed tx [] relation [(key, version)]
        ⟨relation.cells.write key tx version, relation.keys⟩
  | commit : Moves clash changed tx writes relation [] (relation.commit tx)
  | rollback : Moves clash changed tx writes relation [] (relation.rollback tx)

variable {relation before after : Relation Key Tx Row} {tx : Tx} {key : Key} {found : Row}
variable {matching : Row → Bool}

omit [DecidableEq Key] in
theorem find_some (hit : relation.find tx matching = some (key, found)) :
    key ∈ relation.keys ∧ (relation.cells key).view tx = some found ∧ matching found = true := by
  obtain ⟨listed, member, read⟩ := List.exists_of_findSome?_eq_some hit
  obtain ⟨row, seen, chosen⟩ := Option.bind_eq_some_iff.mp read
  split at chosen
  · rename_i matched
    obtain ⟨rfl, rfl⟩ := Prod.mk.inj (Option.some.inj chosen)
    exact ⟨member, seen, matched⟩
  · cases chosen

omit [DecidableEq Key] in
theorem find_none (missed : relation.find tx matching = none) (member : key ∈ relation.keys)
    (seen : (relation.cells key).view tx = some found) : matching found = false := by
  have read := List.findSome?_eq_none_iff.mp missed key member
  rw [seen, Option.bind_some] at read
  split at read
  · cases read
  · rename_i unmatched
    simpa using unmatched

omit [DecidableEq Tx] [DecidableEq Key] in
theorem mem_select : (key, found) ∈ relation.select matching ↔
    key ∈ relation.keys ∧ relation.row key = some found ∧ matching found = true := by
  unfold select
  rw [List.mem_filterMap]
  constructor
  · rintro ⟨listed, member, read⟩
    obtain ⟨row, present, chosen⟩ := Option.bind_eq_some_iff.mp read
    split at chosen
    · rename_i matched
      obtain ⟨rfl, rfl⟩ := Prod.mk.inj (Option.some.inj chosen)
      exact ⟨member, present, matched⟩
    · cases chosen
  · rintro ⟨member, present, matched⟩
    exact ⟨key, member, by simp [present, matched]⟩

/-- What holds between transactions: a row under a lock changes only as permitted, and rows
clash only while one transaction replaces the other row. -/
structure Sound (clash : Row → Row → Bool) (changed : Row → Option Row → Prop)
    (relation : Relation Key Tx Row) : Prop where
  known : ∀ key, key ∉ relation.keys → relation.cells key = ⟨none, none⟩
  changes : ∀ key owner version stored, (relation.cells key).pending = some (owner, version) →
    relation.row key = some stored → changed stored version
  distinct : ∀ one two first second, one ≠ two → relation.row one = some first →
    relation.row two = some second → clash first second = false
  apart : ∀ one two owner other first second, one ≠ two →
    (relation.cells one).pending = some (owner, some first) →
    (relation.cells two).pending = some (other, some second) → clash first second = false
  replaced : ∀ one two owner first second, one ≠ two → relation.row one = some first →
    (relation.cells two).pending = some (owner, some second) → clash first second = true →
    ∃ version, (relation.cells one).pending = some (owner, version)

variable {clash : Row → Row → Bool} {changed : Row → Option Row → Prop} {other : Tx}
variable {writes written others : List (Key × Option Row)}

omit [DecidableEq Tx] [DecidableEq Key] in
theorem empty_sound : Sound clash changed (empty : Relation Key Tx Row) := by
  constructor <;> simp [empty, Table.empty, row]

omit [DecidableEq Tx] [DecidableEq Key] in
theorem empty_owned (tx : Tx) : (empty : Relation Key Tx Row).Owned tx [] := by
  simp [Owned, empty, Table.empty]

omit [DecidableEq Tx] [DecidableEq Key] in
theorem Sound.member (sound : Sound clash changed relation)
    (present : relation.cells key ≠ ⟨none, none⟩) : key ∈ relation.keys := by
  by_contra absent
  exact present (sound.known key absent)

omit [DecidableEq Key] in
theorem Sound.member_of_view (sound : Sound clash changed relation)
    (seen : (relation.cells key).view tx = some found) : key ∈ relation.keys := by
  apply sound.member
  intro nothing
  simp [nothing, Cell.view] at seen

omit [DecidableEq Key] in
/-- A transaction that has written nothing sees the committed row. -/
theorem view_of_unwritten (owned : relation.Owned tx []) : (relation.cells key).view tx =
    relation.row key :=
  Cell.view_of_unowned fun version held => by simpa using (owned key version).mp held

omit [DecidableEq Key] in
theorem unlocked_of_unwritten (owned : relation.Owned tx [])
    (free : (relation.cells key).blocked tx = false) :
    (relation.cells key).pending = none := by
  cases held : (relation.cells key).pending with
  | none => rfl
  | some pair =>
    obtain ⟨owner, version⟩ := pair
    have same := Cell.blocked_eq_false.mp free owner version held
    subst same
    simpa using (owned key version).mp held

/-- A row that passes the unique constraints clashes with nothing but what its transaction
replaces. -/
theorem unique_returns {conflicts : Row → Bool}
    (passed : relation.unique tx conflicts key = .returns ())
    {one : Key} (different : one ≠ key) (member : one ∈ relation.keys) :
    (∀ seen, (relation.cells one).view tx = some seen → conflicts seen = false) ∧
      ((relation.cells one).blocked tx = true →
        (∀ stored, relation.row one = some stored → conflicts stored = false) ∧
        ∀ owner version, (relation.cells one).pending = some (owner, some version) →
          conflicts version = false) := by
  have listed : one ∈ relation.keys.filter (· ≠ key) :=
    List.mem_filter.mpr ⟨member, by simpa using different⟩
  unfold unique at passed
  dsimp only at passed
  split at passed
  · cases passed
  · rename_i free
    split at passed
    · cases passed
    · rename_i clear
      constructor
      · intro seen found
        have quiet := fun conflict =>
          clear (List.any_eq_true.mpr ⟨one, listed, by rw [found]; exact conflict⟩)
        simpa using quiet
      · intro blocked
        have quiet : relation.contested tx conflicts one = false := by
          by_contra contested
          exact free (List.any_eq_true.mpr ⟨one, listed, by simpa using contested⟩)
        simp only [contested, blocked, Bool.true_and, Bool.or_eq_false_iff, Option.any_eq_false]
          at quiet
        refine ⟨fun stored found => by simpa using quiet.1 stored found, ?_⟩
        intro owner version held
        simpa using quiet.2 version (by simp [uncommitted, held])

/-- No other row clashes with this version, unless the same transaction is replacing it. -/
structure Clear (clash : Row → Row → Bool) (relation : Relation Key Tx Row) (tx : Tx) (key : Key)
    (next : Row) : Prop where
  pending : ∀ one owner version, one ≠ key →
    (relation.cells one).pending = some (owner, some version) →
    clash next version = false
  rows : ∀ one stored, one ≠ key → relation.row one = some stored → clash next stored = true →
    ∃ version, (relation.cells one).pending = some (tx, version)

theorem Sound.clear_of_unique (sound : Sound clash changed relation)
    (passed : relation.unique tx (clash found) key = .returns ()) :
      Clear clash relation tx key found where
  pending one owner version different held := by
    have member := sound.member (show relation.cells one ≠ _ by intro nothing; simp [nothing]
      at held)
    obtain ⟨own, foreign⟩ := unique_returns passed different member
    by_cases same : owner = tx
    · subst same
      exact own version (Cell.view_of_pending held)
    · have blocked : (relation.cells one).blocked tx = true := by simp [Cell.blocked, held, same]
      exact (foreign blocked).2 owner version held
  rows one stored different present clashes := by
    have member := sound.member (show relation.cells one ≠ _ by intro nothing; simp [row, nothing]
      at present)
    obtain ⟨own, foreign⟩ := unique_returns passed different member
    cases held : (relation.cells one).pending with
    | none =>
      have quiet := own stored (by rw [Cell.view_of_unowned (by simp [held])]; exact present)
      simp [quiet] at clashes
    | some pair =>
      obtain ⟨owner, version⟩ := pair
      by_cases same : owner = tx
      · exact ⟨version, by rw [same]⟩
      · have blocked : (relation.cells one).blocked tx = true := by simp [Cell.blocked, held, same]
        have quiet := (foreign blocked).1 stored present
        simp [quiet] at clashes

omit [DecidableEq Tx] [DecidableEq Key] in
/-- A version that clashes with what the committed row clashes with. -/
theorem Sound.clear_of_same (sound : Sound clash changed relation)
    (present : relation.row key = some found)
    (unlocked : (relation.cells key).pending = none)
    (same : ∀ other, clash next other = clash found other) :
    Clear clash relation tx key next where
  pending one owner version different held := by
    by_contra clashes
    rw [Bool.not_eq_false, same] at clashes
    obtain ⟨_, locked⟩ := sound.replaced key one owner found version
      (Ne.symm different) present held clashes
    rw [unlocked] at locked
    cases locked
  rows one stored different there clashes := by
    have quiet := sound.distinct key one found stored (Ne.symm different) present there
    rw [same, quiet] at clashes
    cases clashes

omit [DecidableEq Tx] in
private theorem written_of_ne {one : Key} (relation : Relation Key Tx Row) (version : Option Row)
    (keys : List Key)
    (different : one ≠ key) :
    (⟨relation.cells.write key tx version, keys⟩ : Relation Key Tx Row).cells one =
      relation.cells one :=
  Table.write_of_ne _ _ different

/-- A write under the lock of its row. -/
theorem Sound.write {version : Option Row} {keys : List Key} (sound : Sound clash changed relation)
    (symmetric : ∀ first second, clash first second = clash second first)
    (free : (relation.cells key).blocked tx = false)
    (listed : ∀ one, one ∈ relation.keys ∨ one = key → one ∈ keys)
    (permitted : ∀ stored, relation.row key = some stored → changed stored version)
    (clear : ∀ next, version = some next → Clear clash relation tx key next) :
    Sound clash changed ⟨relation.cells.write key tx version, keys⟩ where
  known one absent := by
    have different : one ≠ key := fun same => absent (listed one (.inr same))
    rw [written_of_ne _ _ _ different]
    exact sound.known one fun member => absent (listed one (.inl member))
  changes one owner next stored held present := by
    simp only [row, Table.write_committed] at present
    by_cases same : one = key
    · subst same
      simp only [Table.write_self, Option.some.injEq, Prod.mk.injEq] at held
      obtain ⟨rfl, rfl⟩ := held
      exact permitted stored present
    · rw [written_of_ne _ _ _ same] at held
      exact sound.changes one owner next stored held present
  distinct one two first second different left right := by
    simp only [row, Table.write_committed] at left right
    exact sound.distinct one two first second different left right
  apart one two owner other first second different left right := by
    by_cases atOne : one = key
    · subst atOne
      rw [written_of_ne _ _ _ (Ne.symm different)] at right
      simp only [Table.write_self, Option.some.injEq, Prod.mk.injEq] at left
      exact (clear first left.2).pending two other second (Ne.symm different) right
    · rw [written_of_ne _ _ _ atOne] at left
      by_cases atTwo : two = key
      · subst atTwo
        simp only [Table.write_self, Option.some.injEq, Prod.mk.injEq] at right
        rw [symmetric]
        exact (clear second right.2).pending one owner first different left
      · rw [written_of_ne _ _ _ atTwo] at right
        exact sound.apart one two owner other first second different left right
  replaced one two owner first second different left right clashes := by
    simp only [row, Table.write_committed] at left
    by_cases atTwo : two = key
    · subst atTwo
      simp only [Table.write_self, Option.some.injEq, Prod.mk.injEq] at right
      obtain ⟨rfl, rfl⟩ := right
      rw [written_of_ne _ _ _ different]
      exact (clear second rfl).rows one first different left (by rw [symmetric]; exact clashes)
    · rw [written_of_ne _ _ _ atTwo] at right
      obtain ⟨held, locked⟩ := sound.replaced one two owner first second different
        left right clashes
      by_cases atOne : one = key
      · subst atOne
        obtain rfl := Cell.blocked_eq_false.mp free owner held locked
        exact ⟨version, by simp⟩
      · exact ⟨held, by rw [written_of_ne _ _ _ atOne]; exact locked⟩

omit [DecidableEq Key] in
/-- The committed row after a commit. -/
theorem commit_row (relation : Relation Key Tx Row) (tx : Tx) (key : Key) :
    (∃ version, (relation.cells key).pending = some (tx, version) ∧
      (relation.commit tx).row key = version) ∨
      ((∀ version, (relation.cells key).pending ≠ some (tx, version)) ∧
        (relation.commit tx).cells key = relation.cells key) := by
  by_cases owned : ∃ version, (relation.cells key).pending = some (tx, version)
  · obtain ⟨version, held⟩ := owned
    exact .inl ⟨version, held, congrArg Cell.committed (Table.commit_of_pending held)⟩
  · have free := not_exists.mp owned
    exact .inr ⟨free, Table.commit_of_unowned free⟩

/-- The commit of a transaction that has written one row. -/
theorem Owned.commit_row {version : Option Row} (owned : relation.Owned tx [(key, version)]) :
    (relation.commit tx).row = Function.update relation.row key version := by
  funext other
  rcases Relation.commit_row relation tx other with ⟨written, held, same⟩ | ⟨free, same⟩
  · obtain ⟨rfl, rfl⟩ := Prod.mk.inj (List.mem_singleton.mp ((owned other written).mp held))
    rw [same, Function.update_self]
  · have apart : other ≠ key := by
      rintro rfl
      exact free version ((owned other version).mpr (List.mem_singleton.mpr rfl))
    rw [Function.update_of_ne apart]
    exact congrArg Cell.committed same

omit [DecidableEq Key] in
theorem Sound.commit (sound : Sound clash changed relation)
    (symmetric : ∀ first second, clash first second = clash second first) (tx : Tx) :
    Sound clash changed (relation.commit tx) where
  known one absent := by
    have nothing := sound.known one absent
    simp [Relation.commit, Table.commit, Cell.commit, nothing]
  changes one owner version stored held present := by
    obtain ⟨earlier, same⟩ := Table.pending_of_commit held
    have kept : relation.row one = some stored := by
      rw [← present]
      exact (congrArg Cell.committed same).symm
    exact sound.changes one owner version stored earlier kept
  distinct one two first second different left right := by
    rcases commit_row relation tx one with ⟨newer, heldOne, rowOne⟩ | ⟨freeOne, sameOne⟩
    · rw [left] at rowOne
      subst rowOne
      rcases commit_row relation tx two with ⟨other, heldTwo, rowTwo⟩ | ⟨freeTwo, sameTwo⟩
      · rw [right] at rowTwo
        subst rowTwo
        exact sound.apart one two tx tx first second different heldOne heldTwo
      · by_contra clashes
        rw [Bool.not_eq_false, symmetric] at clashes
        obtain ⟨version, locked⟩ := sound.replaced two one tx second first (Ne.symm different)
          ((congrArg Cell.committed sameTwo).symm.trans right) heldOne clashes
        exact freeTwo version locked
    · have before : relation.row one = some first :=
        (congrArg Cell.committed sameOne).symm.trans left
      rcases commit_row relation tx two with ⟨other, heldTwo, rowTwo⟩ | ⟨_, sameTwo⟩
      · rw [right] at rowTwo
        subst rowTwo
        by_contra clashes
        rw [Bool.not_eq_false] at clashes
        obtain ⟨version, locked⟩ :=
          sound.replaced one two tx first second different before heldTwo clashes
        exact freeOne version locked
      · exact sound.distinct one two first second different before
          ((congrArg Cell.committed sameTwo).symm.trans right)
  apart one two owner other first second different left right :=
    sound.apart one two owner other first second different (Table.pending_of_commit left).1
      (Table.pending_of_commit right).1
  replaced one two owner first second different left right clashes := by
    obtain ⟨heldTwo, _⟩ := Table.pending_of_commit right
    rcases commit_row relation tx one with ⟨newer, heldOne, rowOne⟩ | ⟨_, sameOne⟩
    · rw [left] at rowOne
      subst rowOne
      have quiet := sound.apart one two tx owner first second different heldOne heldTwo
      simp [quiet] at clashes
    · rw [sameOne]
      exact sound.replaced one two owner first second different
        ((congrArg Cell.committed sameOne).symm.trans left) heldTwo clashes

omit [DecidableEq Key] in
theorem Sound.rollback (sound : Sound clash changed relation) (tx : Tx) :
    Sound clash changed (relation.rollback tx) where
  known one absent := by
    have nothing := sound.known one absent
    simp [Relation.rollback, Table.rollback, Cell.rollback, nothing]
  changes one owner version stored held present :=
    sound.changes one owner version stored (Table.pending_of_rollback held)
      (by simpa [row, Relation.rollback] using present)
  distinct one two first second different left right :=
    sound.distinct one two first second different (by simpa [row, Relation.rollback] using left)
      (by simpa [row, Relation.rollback] using right)
  apart one two owner other first second different left right :=
    sound.apart one two owner other first second different (Table.pending_of_rollback left)
      (Table.pending_of_rollback right)
  replaced one two owner first second different left right clashes := by
    have foreign : owner ≠ tx := by
      rintro rfl
      exact Table.rollback_unowned relation.cells ⟨_, right⟩
    obtain ⟨version, locked⟩ := sound.replaced one two owner first second different
      (by simpa [row, Relation.rollback] using left) (Table.pending_of_rollback right) clashes
    refine ⟨version, ?_⟩
    have kept : relation.cells.rollback tx one = relation.cells one :=
      (Table.Frame.rollback relation.cells).kept one owner version foreign locked
    exact (congrArg Cell.pending kept).trans locked

theorem Moves.sound (moves : Moves clash changed tx writes before written after)
    (sound : Sound clash changed before)
    (symmetric : ∀ first second, clash first second = clash second first)
    (owned : before.Owned tx writes) :
    Sound clash changed after := by
  cases moves with
  | stay => exact sound
  | @insert key _ _ row fresh distinct =>
    have nothing := sound.known key fresh
    apply sound.write symmetric
    · simp [Cell.blocked, nothing]
    · simp
    · intro stored present
      simp [Relation.row, nothing] at present
    · intro next same
      obtain rfl := Option.some.inj same
      exact sound.clear_of_unique distinct
  | @rewrite key version _ row member free seen permitted distinct =>
    rw [view_of_unwritten owned] at seen
    apply sound.write symmetric free
    · rintro one (there | rfl)
      · exact there
      · exact member
    · intro stored present
      obtain rfl := Option.some.inj (seen.symm.trans present)
      exact permitted
    · intro next same
      rcases distinct next same with passed | kept
      · exact sound.clear_of_unique passed
      · exact sound.clear_of_same seen (unlocked_of_unwritten owned free) kept
  | commit => exact sound.commit symmetric tx
  | rollback => exact sound.rollback tx

theorem Moves.owned (moves : Moves clash changed tx writes before written after)
    (sound : Sound clash changed before)
    (owned : before.Owned tx writes) : after.Owned tx written := by
  cases moves with
  | stay => exact owned
  | @insert key _ _ row fresh distinct =>
    intro one version
    by_cases same : one = key
    · subst same
      have unwritten : (one, version) ∉ writes := by
        intro member
        have held := (owned one version).mpr member
        simp [sound.known one fresh] at held
      simp [unwritten, eq_comm]
    · rw [written_of_ne _ _ _ same, owned one version]
      simp [same]
  | @rewrite key version _ row member free seen permitted distinct =>
    intro one other
    by_cases same : one = key
    · subst same
      simp [eq_comm]
    · rw [written_of_ne _ _ _ same, owned one other]
      simp [same]
  | commit =>
    intro one version
    simp only [List.not_mem_nil, iff_false]
    exact fun held => Table.commit_unowned before.cells ⟨version, held⟩
  | rollback =>
    intro one version
    simp only [List.not_mem_nil, iff_false]
    exact fun held => Table.rollback_unowned before.cells ⟨version, held⟩

/-- What one transaction does, as the others see it. -/
theorem Moves.frame (moves : Moves clash changed tx writes before written after)
    (sound : Sound clash changed before) :
    Table.Frame tx before.cells after.cells := by
  cases moves with
  | stay => exact .refl tx _
  | insert fresh distinct => exact .write (by simp [Cell.blocked, sound.known _ fresh]) _
  | rewrite member free seen permitted distinct => exact .write free _
  | commit => exact .commit _
  | rollback => exact .rollback _

theorem Moves.owned_other (moves : Moves clash changed tx writes before written after)
    (sound : Sound clash changed before) (different : other ≠ tx)
    (owned : before.Owned other others) :
    after.Owned other others := by
  have frame := moves.frame sound
  intro one version
  rw [← owned one version]
  constructor
  · exact frame.granted one other version different
  · intro held
    rw [frame.kept one other version different held]
    exact held

/-- A committed row changes by the commit of a transaction that has written it. -/
theorem Moves.row_cases (moves : Moves clash changed tx writes before written after)
    (owned : before.Owned tx writes)
    (key : Key) : after.row key = before.row key ∨
      ∃ version, (key, version) ∈ writes ∧ after.row key = version ∧ written = [] ∧
        after = before.commit tx := by
  cases moves with
  | stay => exact .inl rfl
  | insert fresh distinct => exact .inl (Table.write_committed _ _ _)
  | rewrite member free seen permitted distinct => exact .inl (Table.write_committed _ _ _)
  | commit =>
    rcases commit_row before tx key with ⟨version, held, same⟩ | ⟨_, same⟩
    · exact .inr ⟨version, (owned key version).mp held, same, rfl, rfl⟩
    · exact .inl (congrArg Cell.committed same)
  | rollback => exact .inl (Table.rollback_committed _)

/-- A transaction that has uncommitted versions has not just ended. -/
theorem Moves.row_of_written (moves : Moves clash changed tx writes before written after)
    (owned : before.Owned tx writes) (running : written ≠ [])
    (key : Key) : after.row key = before.row key := by
  rcases moves.row_cases owned key with same | ⟨_, _, _, nothing, _⟩
  · exact same
  · exact absurd nothing running

theorem Moves.keys (moves : Moves clash changed tx writes before written after) :
    before.keys ⊆ after.keys := by
  cases moves with
  | stay | rewrite | commit | rollback => exact List.Subset.refl _
  | insert fresh distinct => exact List.subset_append_left _ _

/-- No key is used twice. -/
theorem Moves.keys_nodup (moves : Moves clash changed tx writes before written after)
    (distinct : before.keys.Nodup) :
    after.keys.Nodup := by
  cases moves with
  | stay | rewrite | commit | rollback => exact distinct
  | insert fresh =>
    rw [← List.concat_eq_append]
    exact distinct.concat fresh

/-- The row of a key and its uncommitted version, if there are any, have this property. -/
structure Settled (relation : Relation Key Tx Row) (key : Key) (settled : Row → Prop) : Prop where
  member : key ∈ relation.keys
  committed : ∀ stored, relation.row key = some stored → settled stored
  pending : ∀ owner version, (relation.cells key).pending = some (owner, some version) →
    settled version

/-- A property that no permitted change takes away is kept, as no key is used twice. -/
theorem Moves.settled {settled : Row → Prop}
    (moves : Moves clash changed tx writes before written after)
    (owned : before.Owned tx writes)
    (closed : ∀ stored version, settled stored → changed stored (some version) → settled version)
    (holds : before.Settled key settled) : after.Settled key settled where
  member := moves.keys holds.member
  committed stored present := by
    rcases moves.row_cases owned key with same | ⟨version, member, same, _⟩
    · exact holds.committed stored (same.symm.trans present)
    · obtain rfl := same.symm.trans present
      exact holds.pending tx stored ((owned key _).mpr member)
  pending owner version held := by
    cases moves with
    | stay => exact holds.pending owner version held
    | @insert other _ _ row fresh distinct =>
      have apart : key ≠ other := fun same => fresh (same ▸ holds.member)
      rw [written_of_ne _ _ _ apart] at held
      exact holds.pending owner version held
    | @rewrite other next _ row member free seen permitted distinct =>
      by_cases same : key = other
      · subst same
        simp only [Table.write_self, Option.some.injEq, Prod.mk.injEq] at held
        obtain ⟨rfl, rfl⟩ := held
        rw [view_of_unwritten owned] at seen
        exact closed row version (holds.committed row seen) permitted
      · rw [written_of_ne _ _ _ same] at held
        exact holds.pending owner version held
    | commit => exact holds.pending owner version (Table.pending_of_commit held).1
    | rollback => exact holds.pending owner version (Table.pending_of_rollback held)

/-- What a transaction has just written is gone with it. -/
theorem rollback_write (free : (relation.cells key).blocked tx = false) (version : Option Row) :
    Relation.rollback ⟨relation.cells.write key tx version, relation.keys⟩ tx =
      relation.rollback tx := by
  unfold Relation.rollback
  congr 1
  funext one
  by_cases same : one = key
  · subst same
    simp only [Table.rollback, Cell.rollback, Table.write_self, ↓reduceIte]
    split
    · rename_i owner held present
      rw [if_pos (Cell.blocked_eq_false.mp free owner held present)]
    · rename_i absent
      rw [← absent]
  · simp only [Table.rollback, Table.write_of_ne _ _ same]

section Statements

variable {next : Row} {change : Row → Option Row}

theorem insert_returns (done : before.insert tx key next clash = .returns after) :
    key ∉ before.keys ∧ before.unique tx (clash next) key = .returns () ∧
      after = ⟨before.cells.write key tx (some next), before.keys ++ [key]⟩ := by
  unfold insert at done
  split at done
  · cases done
  · rename_i fresh
    split at done
    · cases done
    · cases done
    · rename_i passed
      exact ⟨fresh, passed, (Statement.returns.inj done).symm⟩

theorem update_returns (done : before.update tx key matching change = .returns (after, some next)) :
    ∃ stored, (before.cells key).blocked tx = false ∧ (before.cells key).view tx = some stored ∧
      matching stored = true ∧ change stored = some next ∧
      after = ⟨before.cells.write key tx (some next), before.keys⟩ := by
  unfold update at done
  split at done
  · cases done
  · cases done
  · rename_i cells updated returned
    simp only [Statement.returns.injEq, Prod.mk.injEq] at done
    obtain ⟨rfl, rfl⟩ := done
    obtain ⟨stored, free, seen, matched, changed, rfl⟩ := Table.update_returns returned
    exact ⟨stored, free, seen, matched, changed, rfl⟩

theorem update_returns_none (done : before.update tx key matching change = .returns (after, none)) :
    after = before := by
  unfold update at done
  split at done
  · cases done
  · cases done
  · rename_i cells updated returned
    simp only [Statement.returns.injEq, Prod.mk.injEq] at done
    obtain ⟨rfl, rfl⟩ := done
    obtain ⟨rfl, _⟩ := Table.update_returns_none returned
    rfl

theorem updateUnique_returns (done : before.updateUnique tx key matching change clash =
    .returns (after, some next)) :
    before.update tx key matching change = .returns (after, some next) ∧
      before.unique tx (clash next) key = .returns () := by
  unfold updateUnique at done
  split at done
  · cases done
  · cases done
  · cases done
  · rename_i updated
    split at done
    · cases done
    · cases done
    · rename_i passed
      simp only [Statement.returns.injEq, Prod.mk.injEq, Option.some.injEq] at done
      obtain ⟨rfl, rfl⟩ := done
      exact ⟨updated, passed⟩

theorem delete_returns (done : before.delete tx key matching = .returns (after, true)) :
    ∃ stored, (before.cells key).blocked tx = false ∧ (before.cells key).view tx = some stored ∧
      matching stored = true ∧ after = ⟨before.cells.write key tx none, before.keys⟩ := by
  unfold delete at done
  split at done
  · cases done
  · rename_i free
    split at done
    · cases done
    · rename_i stored seen
      split at done
      · rename_i matched
        simp only [Statement.returns.injEq, Prod.mk.injEq, and_true] at done
        exact ⟨stored, by simpa using free, seen, matched, done.symm⟩
      · cases done

theorem delete_returns_false (done : before.delete tx key matching = .returns (after, false)) :
    after = before := by
  unfold delete at done
  split at done
  · cases done
  · split at done
    · simp only [Statement.returns.injEq, Prod.mk.injEq, and_true] at done
      exact done.symm
    · split at done
      · cases done
      · simp only [Statement.returns.injEq, Prod.mk.injEq, and_true] at done
        exact done.symm

end Statements

section Alone

variable {conflicts : Row → Bool} {next : Row} {version : Option Row}

/-- No other transaction holds a row. -/
def Free (relation : Relation Key Tx Row) (tx : Tx) : Prop :=
    ∀ key, (relation.cells key).blocked tx = false

theorem Free.unique (free : before.Free tx)
    (clear : ∀ other found, (before.cells other).view tx = some found → conflicts found = false) :
    before.unique tx conflicts key = .returns () := by
  unfold Relation.unique
  dsimp only
  rw [if_neg, if_neg]
  · intro some'
    obtain ⟨other, _, conflict⟩ := List.any_eq_true.mp some'
    obtain ⟨found, seen, conflict⟩ := (Option.any_eq_true _ _).mp conflict
    simp [clear other found seen] at conflict
  · intro some'
    obtain ⟨other, _, disputed⟩ := List.any_eq_true.mp some'
    simp [contested, free other] at disputed

theorem Free.insert (free : before.Free tx) (fresh : key ∉ before.keys)
    (clear : ∀ other found, (before.cells other).view tx = some found → clash next found = false) :
    before.insert tx key next clash =
      .returns ⟨before.cells.write key tx (some next), before.keys ++ [key]⟩ := by
  unfold Relation.insert
  rw [if_neg fresh, free.unique clear]

theorem Free.insert_violates {other : Key} (free : before.Free tx) (member : other ∈ before.keys)
    (seen : (before.cells other).view tx = some found) (clashes : clash next found = true) :
    before.insert tx key next clash = .violates := by
  unfold Relation.insert
  split
  · rfl
  · rename_i fresh
    have apart : other ≠ key := fun same => fresh (same ▸ member)
    have violated : before.unique tx (clash next) key = .violates := by
      unfold Relation.unique
      dsimp only
      rw [if_neg, if_pos]
      · exact List.any_eq_true.mpr ⟨other, List.mem_filter.mpr ⟨member, by simpa using apart⟩,
          by simp [seen, clashes]⟩
      · intro some'
        obtain ⟨one, _, disputed⟩ := List.any_eq_true.mp some'
        simp [contested, free one] at disputed
    rw [violated]

theorem Free.delete (free : before.Free tx) (seen : (before.cells key).view tx = some found)
    (matched : matching found = true) :
    before.delete tx key matching = .returns (⟨before.cells.write key tx none, before.keys⟩,
      true) := by
  unfold Relation.delete
  rw [if_neg (by simp [free key]), seen]
  exact if_pos matched

omit [DecidableEq Key] in
/-- A commit makes what the transaction sees the committed rows. -/
theorem Free.commit (free : before.Free tx) (key : Key) :
    (before.commit tx).row key = (before.cells key).view tx ∧
      ((before.commit tx).cells key).view tx = (before.cells key).view tx := by
  cases held : (before.cells key).pending with
  | none =>
    have same : before.cells.commit tx key = before.cells key :=
      Table.commit_of_unowned (by simp [held])
    exact ⟨by simp [row, Relation.commit, same, Cell.view, held], by simp [Relation.commit, same]⟩
  | some pair =>
    obtain ⟨owner, version⟩ := pair
    obtain rfl := Cell.blocked_eq_false.mp (free key) owner version held
    have same := Table.commit_of_pending held
    exact ⟨by simp [row, Relation.commit, same, Cell.view, held],
      by simp [Relation.commit, same, Cell.view, held]⟩

/-- What the transaction sees after it has written a row. -/
theorem view_write (relation : Relation Key Tx Row) (version : Option Row) (key other : Key) :
    ((relation.cells.write key tx version) other).view tx =
      if other = key then version else (relation.cells other).view tx := by
  split
  · rename_i same
    subst same
    simp [Cell.view]
  · rename_i different
    rw [Table.write_of_ne _ _ different]

end Alone

end Relation

end ReadCommitted
