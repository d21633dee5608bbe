import Relays.RateLimiting.Contents
import Relays.RateLimiting.Limiter

/-! Calls of the limiter that do not overlap, each command at its own time: what is stored under a
key is what its calls have recorded, as far as it is inside the window and the key has lived on. -/

namespace Relays.RateLimiting

open Redis Transition

/-- When a call reads the clock and its commands reach Redis, and the member that it draws. -/
structure Reading where
  now : Seconds
  prunes : Seconds
  counts : Seconds
  adds : Seconds
  expires : Seconds
  member : Uuid

namespace Reading

/-- The times of one call. -/
structure Ordered (reading : Reading) : Prop where
  prunes : reading.now ≤ reading.prunes
  counts : reading.prunes ≤ reading.counts
  adds : reading.counts ≤ reading.adds
  expires : reading.adds ≤ reading.expires

instance (reading : Reading) : Decidable reading.Ordered :=
  decidable_of_iff (reading.now ≤ reading.prunes ∧ reading.prunes ≤ reading.counts ∧
      reading.counts ≤ reading.adds ∧ reading.adds ≤ reading.expires)
    ⟨fun ⟨prunes, counts, adds, expires⟩ => ⟨prunes, counts, adds, expires⟩,
      fun ⟨prunes, counts, adds, expires⟩ => ⟨prunes, counts, adds, expires⟩⟩

theorem Ordered.counted {reading : Reading} (ordered : reading.Ordered) :
    reading.now ≤ reading.counts :=
  ordered.prunes.trans ordered.counts

theorem Ordered.added {reading : Reading} (ordered : reading.Ordered) :
    reading.now ≤ reading.adds :=
  ordered.counted.trans ordered.adds

theorem Ordered.ended {reading : Reading} (ordered : reading.Ordered) :
    reading.now ≤ reading.expires :=
  ordered.added.trans ordered.expires

/-- What the call adds to the set. -/
def mark (reading : Reading) : Uuid × Seconds := (reading.member, reading.now)

def windowStart (reading : Reading) (arguments : Arguments) : Seconds :=
  reading.now - arguments.windowSeconds

/-- When the call has its answer. -/
def ends (reading : Reading) (allowed : Bool) : Seconds :=
  if allowed then reading.expires else reading.counts

end Reading

/-- `sliding_window_limiter`, with each command at its own time. -/
def slidingWindowLimiter (redis : Database) (reading : Reading) (arguments : Arguments) :
    Database × Bool :=
  let key := arguments.key
  let redis := zremrangebyscore redis reading.prunes key (reading.windowStart arguments)
  let requestCount := zcount redis reading.counts key (reading.windowStart arguments)
  if arguments.limit ≤ requestCount then (redis, false)
  else (expire (zadd redis reading.adds key reading.member reading.now) reading.expires key
    arguments.windowSeconds, true)

/-- What is stored under a key, whether or not the key has expired. -/
def storedUnder (redis : Database) (key : String) : List (Uuid × Seconds) :=
  (redis key).elim [] SortedSet.members

/-- The marks of calls, from a time on. -/
def since (start : Seconds) (marks : List (Uuid × Seconds)) : List (Uuid × Seconds) :=
  marks.filter (start < ·.2)

/-- From a window before this time on, a key stores the marks of these calls, and lives a window
longer than the last of them. -/
structure Holds (redis : Database) (arguments : Arguments) (now : Seconds)
    (marks : List Reading) : Prop where
  past : ∀ mark ∈ marks, mark.expires ≤ now
  inside : ∀ start, now - arguments.windowSeconds ≤ start →
    since start (storedUnder redis arguments.key) = since start (marks.map Reading.mark)
  deadline : ∀ set, redis arguments.key = some set → ∃ last ∈ marks,
    set.expiresAt = some (last.expires + arguments.windowSeconds) ∧
      ∀ mark ∈ marks, mark.expires ≤ last.expires

/-- Some of these calls are inside the window of this one. -/
def Busy (arguments : Arguments) (marks : List Reading) (reading : Reading) : Prop :=
  ∃ mark ∈ marks, reading.windowStart arguments < mark.now

/-- One of these calls has set the time to live that is running at a time. -/
def Renewed (arguments : Arguments) (marks : List Reading) (clock : Seconds) : Prop :=
  ∃ mark ∈ marks, clock ≤ mark.expires + arguments.windowSeconds

/-- Fewer than the limit of these calls are inside the window of this one. -/
def room (arguments : Arguments) (marks : List Reading) (reading : Reading) : Bool :=
  decide (marks.countP (reading.windowStart arguments < ·.now) < arguments.limit)

/-- As long as a recorded call is inside the window, the last command of this call comes before
the key expires. -/
def InTime (arguments : Arguments) (marks : List Reading) (reading : Reading) : Prop :=
  Busy arguments marks reading →
    Renewed arguments marks (reading.ends (room arguments marks reading))

instance (arguments : Arguments) (marks : List Reading) (reading : Reading) :
    Decidable (Busy arguments marks reading) :=
  inferInstanceAs (Decidable (∃ mark ∈ marks, reading.windowStart arguments < mark.now))

instance (arguments : Arguments) (marks : List Reading) (clock : Seconds) :
    Decidable (Renewed arguments marks clock) :=
  inferInstanceAs (Decidable (∃ mark ∈ marks, clock ≤ mark.expires + arguments.windowSeconds))

instance (arguments : Arguments) (marks : List Reading) (reading : Reading) :
    Decidable (InTime arguments marks reading) :=
  inferInstanceAs (Decidable (_ → _))

/-- The calls that are found under the key at a time are those inside the window. -/
def Found (redis : Database) (clock : Seconds) (arguments : Arguments) (reading : Reading)
    (marks : List Reading) : Prop :=
  since (reading.windowStart arguments) (content redis clock arguments.key) =
    since (reading.windowStart arguments) (marks.map Reading.mark)

section Limiter

variable {redis redis' : Database} {clock now later start : Seconds} {key other : String}
variable {arguments : Arguments} {reading : Reading} {marks : List Reading} {set : SortedSet}
variable {entries : List (Uuid × Seconds)}

theorem storedUnder_eq (present : redis key = some set) : storedUnder redis key = set.members := by
  rw [storedUnder, present, Option.elim_some]

theorem storedUnder_none (nothing : redis key = none) : storedUnder redis key = [] := by
  rw [storedUnder, nothing, Option.elim_none]

/-- A later window reaches less far back. -/
theorem since_since (after : start ≤ now) : since now (since start entries) =
    since now entries := by
  rw [since, since, List.filter_filter, since]
  apply List.filter_congr
  intro mark _
  by_cases inside : now < mark.2
  · simp [inside, after.trans_lt inside]
  · simp [inside]

theorem since_append {more : List (Uuid × Seconds)} :
    since start (entries ++ more) = since start entries ++ since start more :=
  List.filter_append _ _

/-- Nothing is inside a window that no call is in. -/
theorem since_idle (idle : ¬ Busy arguments marks reading)
    (after : reading.windowStart arguments ≤ start) : since start (marks.map Reading.mark) =
    [] := by
  apply List.filter_eq_nil_iff.mpr
  intro mark known inside
  obtain ⟨one, recorded, rfl⟩ := List.mem_map.mp known
  exact idle ⟨one, recorded, after.trans_lt (of_decide_eq_true inside)⟩

theorem length_since : (since (reading.windowStart arguments) (marks.map Reading.mark)).length =
    marks.countP (reading.windowStart arguments < ·.now) := by
  rw [since, ← List.countP_eq_length_filter, List.countP_map]
  rfl

/-- The calls that are inside the window when they are counted decide. -/
theorem limiter_allowed (ordered : reading.Ordered) :
    (slidingWindowLimiter redis reading arguments).2 =
      decide ((since (reading.windowStart arguments)
        (content redis reading.counts arguments.key)).length < arguments.limit) := by
  have counted : zcount (zremrangebyscore redis reading.prunes arguments.key
      (reading.windowStart arguments)) reading.counts arguments.key
        (reading.windowStart arguments) =
      (since (reading.windowStart arguments)
        (content redis reading.counts arguments.key)).length := by
    rw [zcount_eq, content_prune ordered.counts, since, List.countP_eq_length]
    intro mark known
    have inside := List.of_mem_filter known
    exact decide_eq_true (le_of_lt (by simpa using inside))
  unfold slidingWindowLimiter
  dsimp only
  rw [counted]
  split
  · rename_i full
    exact (decide_eq_false (Nat.not_lt.mpr full)).symm
  · rename_i space
    exact (decide_eq_true (Nat.not_le.mp space)).symm

/-- A call that is rejected only prunes. -/
theorem limiter_rejects (rejected : (slidingWindowLimiter redis reading arguments).2 = false) :
    (slidingWindowLimiter redis reading arguments).1 =
      zremrangebyscore redis reading.prunes arguments.key (reading.windowStart arguments) := by
  unfold slidingWindowLimiter at rejected ⊢
  dsimp only at rejected ⊢
  split at rejected
  · rename_i full
    rw [if_pos full]
  · cases rejected

theorem limiter_records (allowed : (slidingWindowLimiter redis reading arguments).2 = true) :
    (slidingWindowLimiter redis reading arguments).1 =
      expire (zadd (zremrangebyscore redis reading.prunes arguments.key
        (reading.windowStart arguments)) reading.adds arguments.key reading.member reading.now)
        reading.expires arguments.key arguments.windowSeconds := by
  unfold slidingWindowLimiter at allowed ⊢
  dsimp only at allowed ⊢
  split at allowed
  · cases allowed
  · rename_i space
    rw [if_neg space]

/-- What a call does to its key depends on what is stored under that key. -/
theorem limiter_congr (reading : Reading) (same : redis' arguments.key = redis arguments.key) :
    (slidingWindowLimiter redis' reading arguments).2 =
        (slidingWindowLimiter redis reading arguments).2 ∧
      (slidingWindowLimiter redis' reading arguments).1 arguments.key =
        (slidingWindowLimiter redis reading arguments).1 arguments.key := by
  have pruned : zremrangebyscore redis' reading.prunes arguments.key
      (reading.windowStart arguments) arguments.key = zremrangebyscore redis reading.prunes
        arguments.key (reading.windowStart arguments) arguments.key := prune_congr same
  have counted := zcount_congr reading.counts (reading.windowStart arguments) pruned
  unfold slidingWindowLimiter
  dsimp only
  rw [counted]
  split
  · exact ⟨rfl, pruned⟩
  · exact ⟨rfl, expire_congr (zadd_congr pruned)⟩

/-- A call leaves the other keys alone. -/
theorem limiter_other (apart : other ≠ arguments.key) :
    (slidingWindowLimiter redis reading arguments).1 other = redis other := by
  cases answer : (slidingWindowLimiter redis reading arguments).2 with
  | false => rw [limiter_rejects answer, prune_other apart]
  | true => rw [limiter_records answer, expire_other apart, zadd_other apart, prune_other apart]

/-- What holds at every place of a list holds at every place of its front and at its end. -/
theorem forall_split_concat {α : Type} {all : List α} {last : α} {holds : List α → α → Prop} :
    (∀ front one back, all ++ [last] = front ++ one :: back → holds front one) ↔
      (∀ front one back, all = front ++ one :: back → holds front one) ∧ holds all last := by
  constructor
  · intro every
    refine ⟨?_, every all last [] rfl⟩
    intro front one back split
    exact every front one (back ++ [last]) (by simp [split])
  · rintro ⟨every, final⟩ front one back split
    rcases List.eq_nil_or_concat back with rfl | ⟨rest, end', rfl⟩
    · obtain ⟨rfl, same⟩ := List.append_inj' split rfl
      obtain rfl := List.singleton_inj.mp same
      exact final
    · rw [List.concat_eq_append, ← List.cons_append, ← List.append_assoc] at split
      exact every front one rest (List.append_inj' split rfl).1

namespace Holds

theorem empty : Holds (fun _ => none) arguments now [] := by
  refine ⟨?_, ?_, ?_⟩
  · intro mark known
    cases known
  · intro start _
    rfl
  · intro set present
    cases present

theorem mono (holds : Holds redis arguments now marks) (passed : now ≤ later) :
    Holds redis arguments later marks := by
  refine ⟨fun mark known => (holds.past mark known).trans passed, ?_, holds.deadline⟩
  intro start after
  exact holds.inside start (le_trans (by linarith) after)

theorem congr (holds : Holds redis arguments now marks)
    (same : redis' arguments.key = redis arguments.key) : Holds redis' arguments now marks := by
  refine ⟨holds.past, ?_, ?_⟩
  · intro start after
    rw [storedUnder, same]
    exact holds.inside start after
  · intro set present
    exact holds.deadline set (same.symm.trans present)

/-- As long as the time to live is running, the key holds what is stored under it. -/
theorem content_eq (holds : Holds redis arguments reading.now marks)
    (renewed : Busy arguments marks reading → Renewed arguments marks clock)
    (after : reading.windowStart arguments ≤ start) :
    since start (content redis clock arguments.key) = since start (marks.map Reading.mark) := by
  rw [← holds.inside start after]
  cases present : redis arguments.key with
  | none =>
    have gone : live redis clock arguments.key = none := live_eq_none.mpr (.inl present)
    rw [content_of_none gone, storedUnder_none present]
  | some set =>
    obtain ⟨last, _, deadline, latest⟩ := holds.deadline set present
    by_cases alive : clock ≤ last.expires + arguments.windowSeconds
    · have there : live redis clock arguments.key = some set := by
        refine live_eq_some.mpr ⟨present, ?_⟩
        intro expiresAt due
        rw [deadline, Option.mem_some] at due
        exact due ▸ alive
      rw [content_of_live there, storedUnder_eq present]
    · -- the key has expired, so nothing inside the window was stored under it
      have idle : ¬ Busy arguments marks reading := by
        intro busy
        obtain ⟨mark, known, running⟩ := renewed busy
        have bound := latest mark known
        exact alive (running.trans (by linarith))
      have gone : live redis clock arguments.key = none := by
        refine live_eq_none.mpr (.inr ?_)
        rw [expired_of_stored present, deadline]
        simpa using alive
      rw [content_of_none gone, holds.inside start after, since_idle idle after]
      rfl

theorem found (holds : Holds redis arguments reading.now marks)
    (renewed : Busy arguments marks reading → Renewed arguments marks clock) :
    Found redis clock arguments reading marks :=
  holds.content_eq renewed le_rfl

/-- What is found under a key that has calls inside the window shows that its time to live is
running. -/
theorem renewed_of_found (holds : Holds redis arguments reading.now marks)
    (found : Found redis clock arguments reading marks) (busy : Busy arguments marks reading) :
    Renewed arguments marks clock := by
  obtain ⟨mark, known, inside⟩ := busy
  have there : mark.mark ∈ since (reading.windowStart arguments)
      (content redis clock arguments.key) := by
    rw [found]
    exact List.mem_filter.mpr ⟨List.mem_map_of_mem known, decide_eq_true inside⟩
  cases alive : live redis clock arguments.key with
  | none =>
    rw [content_of_none alive] at there
    cases there
  | some set =>
    obtain ⟨present, running⟩ := live_eq_some.mp alive
    obtain ⟨last, recorded, deadline, _⟩ := holds.deadline set present
    exact ⟨last, recorded, running _ deadline⟩

end Holds

theorem Renewed.mono (renewed : Renewed arguments marks later) (earlier : clock ≤ later) :
    Renewed arguments marks clock := by
  obtain ⟨mark, known, running⟩ := renewed
  exact ⟨mark, known, earlier.trans running⟩

namespace InTime

/-- The count comes in time. -/
theorem counts (inTime : InTime arguments marks reading) (ordered : reading.Ordered)
    (busy : Busy arguments marks reading) : Renewed arguments marks reading.counts := by
  have renewed := inTime busy
  rw [Reading.ends] at renewed
  split at renewed
  · exact renewed.mono (ordered.adds.trans ordered.expires)
  · exact renewed

/-- The last command of a call that finds room comes in time. -/
theorem expires (inTime : InTime arguments marks reading)
    (space : room arguments marks reading = true) (busy : Busy arguments marks reading) :
    Renewed arguments marks reading.expires := by
  have renewed := inTime busy
  rwa [Reading.ends, if_pos space] at renewed

/-- Commands that take no time come in time. -/
theorem of_swift (ordered : reading.Ordered) (swift : reading.expires = reading.now)
    (past : ∀ mark ∈ marks, mark.now ≤ mark.expires) : InTime arguments marks reading := by
  rintro ⟨mark, known, inside⟩
  have recorded := past mark known
  have ends : reading.ends (room arguments marks reading) = reading.now := by
    rw [Reading.ends]
    split
    · exact swift
    · exact le_antisymm (swift ▸ ordered.adds.trans ordered.expires) ordered.counted
  refine ⟨mark, known, ?_⟩
  rw [ends]
  unfold Reading.windowStart at inside
  linarith

end InTime

/-- What is left of a set that has been pruned is stored. -/
theorem storedUnder_prune : storedUnder (zremrangebyscore redis now key start) key =
    since start (content redis now key) := by
  have pruned : content (zremrangebyscore redis now key start) now key =
      since start (content redis now key) := content_prune le_rfl
  rw [← pruned]
  cases stored : zremrangebyscore redis now key start key with
  | none =>
    rw [storedUnder_none stored]
    exact (content_of_none (live_eq_none.mpr (.inl stored))).symm
  | some set =>
    rw [storedUnder_eq stored]
    cases alive : live (zremrangebyscore redis now key start) now key with
    | some there =>
      obtain ⟨same, _⟩ := live_eq_some.mp alive
      obtain rfl := Option.some.inj (stored.symm.trans same)
      exact (content_of_live alive).symm
    | none =>
      -- a key that has expired is deleted when it is pruned
      unfold zremrangebyscore at stored
      cases found : live redis now key with
      | none => simp [found] at stored
      | some earlier =>
        obtain ⟨_, running⟩ := live_eq_some.mp found
        simp only [found] at stored
        have same := expires_put stored
        have there : live (zremrangebyscore redis now key start) now key = some set := by
          refine live_eq_some.mpr ⟨?_, fun deadline due => running deadline (same ▸ due)⟩
          simpa only [zremrangebyscore, found] using stored
        cases alive.symm.trans there

/-- The limiter answers whether the calls that it should find leave room. -/
theorem Found.allowed (found : Found redis reading.counts arguments reading marks)
    (ordered : reading.Ordered) :
    (slidingWindowLimiter redis reading arguments).2 = room arguments marks reading := by
  rw [limiter_allowed ordered, found, length_since]
  rfl

namespace Holds

/-- The calls inside the window are found when they are counted. -/
theorem counted (holds : Holds redis arguments reading.now marks) (ordered : reading.Ordered)
    (inTime : InTime arguments marks reading) :
    Found redis reading.counts arguments reading marks :=
  holds.found fun busy => inTime.counts ordered busy

theorem rejects (holds : Holds redis arguments reading.now marks) (ordered : reading.Ordered)
    (inTime : InTime arguments marks reading)
    (rejected : (slidingWindowLimiter redis reading arguments).2 = false) :
    Holds (slidingWindowLimiter redis reading arguments).1 arguments reading.now marks := by
  rw [limiter_rejects rejected]
  refine ⟨holds.past, ?_, ?_⟩
  · intro start after
    have inside : reading.windowStart arguments ≤ start := after
    rw [storedUnder_prune, since_since inside]
    exact holds.content_eq (fun busy => (inTime.counts ordered busy).mono ordered.counts) after
  · intro set present
    obtain ⟨earlier, before, same⟩ := expires_prune present
    rw [same]
    exact holds.deadline earlier before

/-- When the call adds its mark, the key that it has pruned lives until its last command. -/
theorem added (holds : Holds redis arguments reading.now marks) (ordered : reading.Ordered)
    (inTime : InTime arguments marks reading) (space : room arguments marks reading = true)
    (fresh : ∀ mark ∈ marks, mark.member ≠ reading.member) :
    live (zadd (zremrangebyscore redis reading.prunes arguments.key (reading.windowStart arguments))
        reading.adds arguments.key reading.member reading.now) reading.expires arguments.key =
      some ⟨since (reading.windowStart arguments) (marks.map Reading.mark) ++ [reading.mark],
        (live (zremrangebyscore redis reading.prunes arguments.key
          (reading.windowStart arguments)) reading.adds arguments.key).bind
          SortedSet.expiresAt⟩ := by
  have renewed := inTime.expires space
  have pruned : content (zremrangebyscore redis reading.prunes arguments.key
      (reading.windowStart arguments)) reading.adds arguments.key =
      since (reading.windowStart arguments) (marks.map Reading.mark) := by
    rw [content_prune (ordered.counts.trans ordered.adds)]
    exact holds.found fun busy => (renewed busy).mono ordered.expires
  have unused : ∀ mark ∈ content (zremrangebyscore redis reading.prunes arguments.key
      (reading.windowStart arguments)) reading.adds arguments.key, mark.1 ≠ reading.member := by
    rw [pruned]
    intro mark known
    obtain ⟨one, recorded, rfl⟩ := List.mem_map.mp (List.mem_of_mem_filter known)
    exact fresh one recorded
  have there := zadd_live reading.now unused
  rw [pruned] at there
  refine live_eq_some.mpr ⟨(live_eq_some.mp there).1, ?_⟩
  intro deadline due
  obtain ⟨set, alive, due⟩ := Option.bind_eq_some_iff.mp due
  obtain ⟨present, _⟩ := live_eq_some.mp alive
  obtain ⟨earlier, before, same⟩ := expires_prune present
  obtain ⟨last, _, running, latest⟩ := holds.deadline earlier before
  -- pruning has left something, so a call is inside the window
  have busy : Busy arguments marks reading := by
    by_contra idle
    rw [since_idle idle le_rfl, content_of_live alive] at pruned
    exact prune_nonempty present pruned
  obtain ⟨mark, known, bound⟩ := renewed busy
  have longest := latest mark known
  rw [same, running] at due
  obtain rfl := Option.some.inj due
  linarith

theorem records (holds : Holds redis arguments reading.now marks) (ordered : reading.Ordered)
    (positive : arguments.windowSeconds ≠ 0) (inTime : InTime arguments marks reading)
    (space : room arguments marks reading = true)
    (fresh : ∀ mark ∈ marks, mark.member ≠ reading.member)
    (allowed : (slidingWindowLimiter redis reading arguments).2 = true) :
    Holds (slidingWindowLimiter redis reading arguments).1 arguments reading.expires
      (marks ++ [reading]) := by
  have added := holds.added ordered inTime space fresh
  have stored := expire_live added positive (by simp)
  rw [limiter_records allowed]
  have past : ∀ mark ∈ marks ++ [reading], mark.expires ≤ reading.expires := by
    intro mark known
    rcases List.mem_append.mp known with old | new
    · exact (holds.past mark old).trans ordered.ended
    · obtain rfl := List.mem_singleton.mp new
      exact le_rfl
  refine ⟨past, ?_, ?_⟩
  · intro start after
    have inside : reading.windowStart arguments ≤ start := by
      unfold Reading.windowStart
      linarith [ordered.ended]
    rw [storedUnder_eq stored, since_append, since_since inside, List.map_append, since_append]
    rfl
  · intro set present
    obtain rfl := Option.some.inj (stored.symm.trans present)
    exact ⟨reading, List.mem_concat_self, rfl, past⟩

/-- What is found when a call has ended, if it has been let through. -/
theorem found_records (holds : Holds redis arguments reading.now marks) (ordered : reading.Ordered)
    (positive : arguments.windowSeconds ≠ 0) (inTime : InTime arguments marks reading)
    (space : room arguments marks reading = true)
    (fresh : ∀ mark ∈ marks, mark.member ≠ reading.member)
    (allowed : (slidingWindowLimiter redis reading arguments).2 = true) :
    Found (slidingWindowLimiter redis reading arguments).1 reading.expires arguments reading
      (marks ++ [reading]) := by
  have added := holds.added ordered inTime space fresh
  have alive : reading.expires ≤ reading.expires + arguments.windowSeconds :=
    le_add_of_nonneg_right (Nat.cast_nonneg _)
  rw [Found, limiter_records allowed, content_expire, if_pos ⟨alive, positive⟩,
    content_of_live added, since_append, since_since le_rfl, List.map_append, since_append]
  rfl

/-- A call that finds what it should when it counts and when it ends has come in time. -/
theorem inTime (holds : Holds redis arguments reading.now marks) (ordered : reading.Ordered)
    (positive : arguments.windowSeconds ≠ 0)
    (counted : Found redis reading.counts arguments reading marks)
    (ended : room arguments marks reading = true →
      Found (slidingWindowLimiter redis reading arguments).1 reading.expires arguments reading
        (marks ++ [reading])) : InTime arguments marks reading := by
  intro busy
  cases space : room arguments marks reading with
  | false => simpa [Reading.ends] using holds.renewed_of_found counted busy
  | true =>
    rw [Reading.ends, if_pos rfl]
    have found := ended space
    have alive : reading.expires ≤ reading.expires + arguments.windowSeconds :=
      le_add_of_nonneg_right (Nat.cast_nonneg _)
    rw [Found, limiter_records ((counted.allowed ordered).trans space), content_expire,
      if_pos ⟨alive, positive⟩] at found
    have two : 2 ≤ (since (reading.windowStart arguments)
        ((marks ++ [reading]).map Reading.mark)).length := by
      obtain ⟨mark, known, inside⟩ := busy
      have one : 0 < marks.countP (reading.windowStart arguments < ·.now) :=
        List.countP_pos_iff.mpr ⟨mark, known, decide_eq_true inside⟩
      have own : reading.windowStart arguments < reading.now :=
        sub_lt_self _ (Nat.cast_pos.mpr (Nat.pos_of_ne_zero positive))
      rw [length_since, List.countP_append, List.countP_singleton, if_pos (decide_eq_true own)]
      omega
    rw [← found] at two
    cases pruned : live (zremrangebyscore redis reading.prunes arguments.key
        (reading.windowStart arguments)) reading.adds arguments.key with
    | none =>
      -- the key has gone before the call added its mark, which is alone then
      have alone : content (zadd (zremrangebyscore redis reading.prunes arguments.key
          (reading.windowStart arguments)) reading.adds arguments.key reading.member reading.now)
          reading.expires arguments.key = [reading.mark] := by
        rw [content, live, zadd_none pruned]
        rfl
      rw [alone] at two
      have most := List.length_filter_le (reading.windowStart arguments < ·.2) [reading.mark]
      exact absurd (two.trans most) (by simp)
    | some set =>
      obtain ⟨present, _⟩ := live_eq_some.mp pruned
      obtain ⟨earlier, before, same⟩ := expires_prune present
      obtain ⟨last, known, deadline, _⟩ := holds.deadline earlier before
      refine ⟨last, known, ?_⟩
      cases there : live (zadd (zremrangebyscore redis reading.prunes arguments.key
          (reading.windowStart arguments)) reading.adds arguments.key reading.member reading.now)
          reading.expires arguments.key with
      | none =>
        rw [content_of_none there] at two
        simp [since] at two
      | some after =>
        obtain ⟨stored, running⟩ := live_eq_some.mp there
        apply running
        rw [expires_zadd_live pruned stored, same, deadline]
        rfl

end Holds

end Limiter

end Relays.RateLimiting
