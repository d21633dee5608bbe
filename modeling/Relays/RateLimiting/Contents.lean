import Relays.RateLimiting.Redis
import Mathlib.Tactic.Linarith

/-! What a key holds after each command of the limiter, each at its own time. -/

namespace Relays.RateLimiting

open Redis

/-- What a key holds at a time. -/
def content (redis : Database) (now : Seconds) (key : String) : List (Uuid × Seconds) :=
  (live redis now key).elim [] SortedSet.members

/-- The time to live of what is stored under a key has run out. -/
def expired (redis : Database) (now : Seconds) (key : String) : Bool :=
  (redis key).any fun set => set.expiresAt.any (· < now)

variable {redis redis' : Database} {now later start score : Seconds} {key other : String}
variable {member : Uuid} {set : SortedSet} {seconds : Nat}

/-- The key is there and has not expired. -/
theorem live_eq_some : live redis now key = some set ↔
    redis key = some set ∧ ∀ expiresAt ∈ set.expiresAt, now ≤ expiresAt := by
  rw [live, Option.filter_eq_some_iff]
  cases set.expiresAt <;> simp

theorem expired_of_stored (stored : redis key = some set) :
    expired redis now key = set.expiresAt.any (· < now) := by
  simp [expired, stored]

theorem live_eq_none : live redis now key = none ↔
    redis key = none ∨ expired redis now key = true := by
  cases stored : redis key with
  | none => simp [live, stored]
  | some set => simp [live, stored, expired]

/-- A key that has expired stays expired. -/
theorem live_none_of_le (passed : now ≤ later) (gone : live redis now key = none) :
    live redis later key = none := by
  cases found : live redis later key with
  | none => rfl
  | some set =>
    obtain ⟨stored, alive⟩ := live_eq_some.mp found
    have earlier : live redis now key = some set :=
      live_eq_some.mpr ⟨stored, fun expiresAt known => passed.trans (alive expiresAt known)⟩
    cases gone.symm.trans earlier

theorem content_of_live (found : live redis now key = some set) :
    content redis now key = set.members := by
  rw [content, found, Option.elim_some]

theorem content_of_none (gone : live redis now key = none) : content redis now key = [] := by
  rw [content, gone, Option.elim_none]

/-- What a key holds depends on what is stored under it. -/
theorem content_congr (same : redis' key = redis key) :
    content redis' now key = content redis now key := by
  simp only [content, live, same]

theorem content_removed : content (Function.update redis key none) now key = [] :=
  content_of_none (by simp [live])

/-- As time passes a key keeps what it holds until it expires. -/
theorem content_later (passed : now ≤ later) : content redis later key =
    if expired redis later key then [] else content redis now key := by
  split
  · rename_i gone
    exact content_of_none (live_eq_none.mpr (.inr gone))
  · rename_i alive
    cases stored : redis key with
    | none =>
      have nothing : live redis later key = none := live_eq_none.mpr (.inl stored)
      rw [content_of_none nothing, content_of_none (live_eq_none.mpr (.inl stored))]
    | some set =>
      rw [expired_of_stored stored, Bool.not_eq_true] at alive
      have there : live redis later key = some set := by simp [live, stored, alive]
      have before : live redis now key = some set := by
        obtain ⟨_, bound⟩ := live_eq_some.mp there
        exact live_eq_some.mpr ⟨stored, fun deadline known => passed.trans (bound deadline known)⟩
      rw [content_of_live there, content_of_live before]

/-- A set that has been put under a key is found there until it expires. -/
theorem content_put : content (put redis key set) now key =
    if set.expiresAt.any (· < now) then [] else set.members := by
  cases members : set.members with
  | nil => simp [put, members, content, live]
  | cons first rest =>
    have stored : live (put redis key set) now key =
        (some set).filter fun set => !set.expiresAt.any (· < now) := by
      simp [live, put, members]
    cases expired : set.expiresAt.any (· < now) with
    | true =>
      rw [content_of_none (stored.trans (by rw [Option.filter_some, expired]; rfl))]
      rfl
    | false =>
      rw [content_of_live (stored.trans (by rw [Option.filter_some, expired]; rfl)), members]
      rfl

/-- Pruning leaves what is inside the window, and the key expires as before. -/
theorem content_prune (passed : now ≤ later) :
    content (zremrangebyscore redis now key start) later key =
      (content redis later key).filter (start < ·.2) := by
  unfold zremrangebyscore
  split
  · rename_i gone
    rw [content_removed, content_of_none (live_none_of_le passed gone)]
    rfl
  · rename_i set found
    rw [content_put]
    split
    · rename_i expired
      have gone : live redis later key = none := by
        simp [live, (live_eq_some.mp found).1, expired]
      rw [content_of_none gone]
      rfl
    · rename_i alive
      have there : live redis later key = some set := by
        simp [live, (live_eq_some.mp found).1, alive]
      rw [content_of_live there]

theorem zcount_eq : zcount redis now key start =
    (content redis now key).countP (start ≤ ·.2) := by
  unfold zcount content
  split
  · rename_i gone
    rw [gone]
    rfl
  · rename_i set found
    rw [found]
    rfl

/-- What is stored by a `ZADD` of a new member: the key expires as before. -/
theorem zadd_live (score : Seconds) (fresh : ∀ mark ∈ content redis now key, mark.1 ≠ member) :
    live (zadd redis now key member score) now key =
      some ⟨content redis now key ++ [(member, score)],
        (live redis now key).bind SortedSet.expiresAt⟩ := by
  unfold zadd
  split
  · rename_i gone
    rw [gone, content_of_none gone]
    simp [live]
  · rename_i set found
    obtain ⟨_, alive⟩ := live_eq_some.mp found
    have kept : set.members.filter (·.1 ≠ member) = set.members := by
      rw [content_of_live found] at fresh
      exact List.filter_eq_self.mpr fun mark known => decide_eq_true (fresh mark known)
    refine live_eq_some.mpr ⟨?_, ?_⟩
    · rw [content_of_live found, put, kept, found]
      simp
    · rw [found]
      exact alive

theorem content_zadd (fresh : ∀ mark ∈ content redis now key, mark.1 ≠ member) :
    content (zadd redis now key member score) now key =
      content redis now key ++ [(member, score)] :=
  content_of_live (zadd_live score fresh)

/-- `EXPIRE` changes nothing at once, unless it deletes the key. -/
theorem content_expire : content (expire redis now key seconds) later key =
    if later ≤ now + seconds ∧ seconds ≠ 0 then content redis now key else [] := by
  unfold expire
  split
  · rename_i gone
    rw [content_removed, content_of_none gone, ite_self]
  · rename_i set found
    split
    · rename_i nothing
      rw [content_removed, if_neg (by simp [nothing])]
    · rename_i some'
      rw [content_put, content_of_live found]
      by_cases alive : later ≤ now + seconds
      · simp [alive, some', Rat.not_lt.mpr alive]
      · simp [alive, Rat.not_le.mp alive]

/-- Every command keeps to its own key. -/
theorem put_other (apart : other ≠ key) : put redis key set other = redis other :=
  Function.update_of_ne apart _ _

theorem prune_other (apart : other ≠ key) :
    zremrangebyscore redis now key start other = redis other := by
  unfold zremrangebyscore
  cases live redis now key with
  | none => exact Function.update_of_ne apart _ _
  | some set => exact put_other apart

theorem zadd_other (apart : other ≠ key) :
    zadd redis now key member score other = redis other := by
  unfold zadd
  cases live redis now key with
  | none => exact Function.update_of_ne apart _ _
  | some set => exact put_other apart

theorem expire_other (apart : other ≠ key) :
    expire redis now key seconds other = redis other := by
  unfold expire
  cases live redis now key with
  | none => exact Function.update_of_ne apart _ _
  | some set =>
    dsimp only
    split
    · exact Function.update_of_ne apart _ _
    · exact put_other apart

/-- What a command does to its key depends on what is stored under it. -/
theorem live_congr (same : redis' key = redis key) : live redis' now key = live redis now key := by
  rw [live, live, same]

theorem prune_congr (same : redis' key = redis key) :
    zremrangebyscore redis' now key start key = zremrangebyscore redis now key start key := by
  rw [zremrangebyscore, zremrangebyscore, live_congr same]
  cases live redis now key <;> simp [put]

theorem zcount_congr (now start : Seconds) (same : redis' key = redis key) :
    zcount redis' now key start = zcount redis now key start := by
  rw [zcount, zcount, live_congr same]

theorem zadd_congr (same : redis' key = redis key) :
    zadd redis' now key member score key = zadd redis now key member score key := by
  rw [zadd, zadd, live_congr same]
  cases live redis now key <;> simp [put]

theorem expire_congr (same : redis' key = redis key) :
    expire redis' now key seconds key = expire redis now key seconds key := by
  rw [expire, expire, live_congr same]
  cases live redis now key with
  | none => simp
  | some set =>
    dsimp only
    split <;> simp [put]

/-- A set is put under a key as it is, or not at all. -/
theorem expires_put {earlier : SortedSet} (stored : put redis key earlier key = some set) :
    set.expiresAt = earlier.expiresAt := by
  rw [put, Function.update_self] at stored
  split at stored
  · cases stored
  · cases stored
    rfl

/-- Pruning leaves the deadline of the key. -/
theorem expires_prune (stored : zremrangebyscore redis now key start key = some set) :
    ∃ earlier, redis key = some earlier ∧ set.expiresAt = earlier.expiresAt := by
  unfold zremrangebyscore at stored
  cases found : live redis now key with
  | none => simp [found] at stored
  | some earlier =>
    simp only [found] at stored
    have same := expires_put stored
    exact ⟨earlier, (live_eq_some.mp found).1, same⟩

/-- `ZADD` leaves the deadline of a key that is there. -/
theorem expires_zadd_live {earlier : SortedSet} (found : live redis now key = some earlier)
    (stored : zadd redis now key member score key = some set) :
    set.expiresAt = earlier.expiresAt := by
  simp only [zadd, found] at stored
  have same := expires_put stored
  exact same

/-- A key that it creates has no deadline. -/
theorem zadd_none (gone : live redis now key = none) :
    zadd redis now key member score key = some ⟨[(member, score)], none⟩ := by
  simp only [zadd, gone, Function.update_self]

theorem expires_zadd (stored : zadd redis now key member score key = some set) :
    set.expiresAt = none ∨ ∃ earlier, redis key = some earlier ∧
        set.expiresAt = earlier.expiresAt := by
  cases found : live redis now key with
  | none =>
    rw [zadd_none found] at stored
    cases stored
    exact .inl rfl
  | some earlier =>
    exact .inr ⟨earlier, (live_eq_some.mp found).1, expires_zadd_live found stored⟩

theorem expires_expire (stored : expire redis now key seconds key = some set) :
    set.expiresAt = some (now + seconds) := by
  unfold expire at stored
  cases found : live redis now key with
  | none => simp [found] at stored
  | some earlier =>
    simp only [found] at stored
    split at stored
    · simp at stored
    · exact expires_put stored

/-- Pruning brings no key back. -/
theorem live_of_prune
    (there : (live (zremrangebyscore redis now key start) now key).isSome = true) :
    (live redis now key).isSome = true := by
  cases found : live redis now key with
  | some set => rfl
  | none =>
    have gone : zremrangebyscore redis now key start key = none := by
      simp only [zremrangebyscore, found, Function.update_self]
    rw [live, gone] at there
    cases there

/-- Nor does `EXPIRE`. -/
theorem live_of_expire (there : (live (expire redis now key seconds) now key).isSome = true) :
    (live redis now key).isSome = true := by
  cases found : live redis now key with
  | some set => rfl
  | none =>
    have gone : expire redis now key seconds key = none := by
      simp only [expire, found, Function.update_self]
    rw [live, gone] at there
    cases there

/-- Pruning deletes a key that has nothing left. -/
theorem prune_nonempty (stored : zremrangebyscore redis now key start key = some set) :
    set.members ≠ [] := by
  unfold zremrangebyscore at stored
  cases found : live redis now key with
  | none => simp [found] at stored
  | some earlier =>
    simp only [found, put, Function.update_self] at stored
    split at stored
    · cases stored
    · rename_i nonempty
      cases stored
      simpa using nonempty

/-- `EXPIRE` sets the deadline of a key that is there. -/
theorem expire_live (found : live redis now key = some set) (positive : seconds ≠ 0)
    (nonempty : set.members ≠ []) :
    expire redis now key seconds key = some { set with expiresAt := some (now + seconds) } := by
  simp [expire, found, positive, put, nonempty]

end Relays.RateLimiting
