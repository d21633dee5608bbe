import Relays.Core.Time
import Mathlib.Algebra.Order.Field.Rat
import Mathlib.Logic.Function.Basic

/-! The Redis commands of the rate limiter: sorted sets under keys that expire. -/

namespace Relays.Redis

/-- Seconds, as `time()` and the clock of the server read them. -/
abbrev Seconds := ℚ

structure SortedSet where
  members : List (Uuid × Seconds)
  expiresAt : Option Seconds

abbrev Database := String → Option SortedSet

/-- The set under a key; a key is gone when the clock has passed its expiry. -/
def live (database : Database) (clock : Seconds) (key : String) : Option SortedSet :=
  (database key).filter fun set => !set.expiresAt.any (· < clock)

/-- A key whose set has no members is deleted. -/
def put (database : Database) (key : String) (set : SortedSet) : Database :=
  Function.update database key (if set.members.isEmpty then none else some set)

/-- `ZREMRANGEBYSCORE key -inf max`. -/
def zremrangebyscore (database : Database) (clock : Seconds) (key : String)
    (max : Seconds) : Database :=
  match live database clock key with
  | none => Function.update database key none
  | some set => put database key { set with members := set.members.filter (max < ·.2) }

/-- `ZCOUNT key min +inf`. -/
def zcount (database : Database) (clock : Seconds) (key : String) (min : Seconds) : Nat :=
  match live database clock key with
  | none => 0
  | some set => set.members.countP (min ≤ ·.2)

/-- `ZADD key score member`: a key that exists keeps its expiry. -/
def zadd (database : Database) (clock : Seconds) (key : String) (member : Uuid)
    (score : Seconds) : Database :=
  match live database clock key with
  | none => Function.update database key (some ⟨[(member, score)], none⟩)
  | some set => put database key
    { set with members := set.members.filter (·.1 ≠ member) ++ [(member, score)] }

/-- `EXPIRE key seconds`: a key that expires at once is deleted. -/
def expire (database : Database) (clock : Seconds) (key : String) (seconds : Nat) : Database :=
  match live database clock key with
  | none => Function.update database key none
  | some set =>
    if seconds = 0 then Function.update database key none
    else put database key { set with expiresAt := some (clock + seconds) }

end Relays.Redis
