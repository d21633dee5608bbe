import Relays.RateLimiting.Contents
import Relays.RateLimiting.Limiter

/-! The limit under concurrency. It holds as long as the calls of a key count and record one after
another, and no request that a count has to find has outlived its key: every count then finds all
requests that have passed before it. -/

namespace Relays.RateLimiting

open Redis Transition

/-- A call with these arguments that read the clock in the window that begins after `start`. -/
def Call.within (arguments : Arguments) (start : Seconds) (call : Call) : Bool :=
  call.arguments = arguments &&
    (start < call.now && call.now ≤ start + arguments.windowSeconds)

/-- No window of any key has more calls that returned `True` than the limit. -/
def Limited (state : State) : Prop :=
  ∀ arguments start, state.calls.countP (fun call =>
    call.allowed && call.within arguments start) ≤ arguments.limit

/-- The other call read the clock less than a window before or after this one. -/
def Call.near (call other : Call) : Bool :=
  other.arguments = call.arguments &&
    (call.windowStart < other.now && other.now < call.now + call.arguments.windowSeconds)

/-- The call has passed its count, and has commands left. -/
def Call.recording (call : Call) : Bool :=
  match call.phase with
  | .adding | .expiring => true
  | .pruning | .counting | .returned _ => false

/-- This reading of the clock is less than a window ago, by the window of every call of the key. -/
def State.retains (state : State) (key : String) (reading : Seconds) : Bool :=
  state.calls.all fun call => call.arguments.key ≠ key ||
    state.clock - call.arguments.windowSeconds < reading

/-- A call that has passed and has no commands left has returned `True`. -/
theorem Call.allowed_of_passed {call : Call} (passed : call.passed = true)
    (idle : call.recording = false) : call.allowed = true := by
  unfold Call.passed at passed
  unfold Call.recording at idle
  unfold Call.allowed
  split at passed <;> simp_all

/-- The next command comes in time. -/
def Call.Orderly (state : State) (member : Uuid) (call : Call) : Prop :=
  match call.phase with
  | .counting =>
    -- nobody is between the count and the end, and no permitted call nearby is out of date
    ∀ other ∈ state.calls, other.arguments.key = call.arguments.key → other.recording = false ∧
      (other.allowed = true → call.near other = true →
        state.retains call.arguments.key other.now = true)
  | .adding =>
    -- `uuid4` draws a new member
    ∀ mark ∈ content state.redis state.clock call.arguments.key, mark.1 ≠ member
  | .expiring =>
    -- the key has not expired since the request was added
    state.retains call.arguments.key call.now = true →
      (live state.redis state.clock call.arguments.key).isSome = true
  | .pruning | .returned _ => True

instance (state : State) (member : Uuid) (call : Call) : Decidable (call.Orderly state member) := by
  unfold Call.Orderly
  split <;> infer_instance

def Orderly (before : State) : State.Event → Prop
  | .command index member => ∀ call ∈ before.calls[index]?, call.Orderly before member
  | .tick _ | .call _ => True

instance (before : State) (event : State.Event) : Decidable (Orderly before event) := by
  unfold Orderly
  split <;> infer_instance

/-- The request of the call should be found under its key. -/
def Call.stands (alive : Bool) (call : Call) : Bool :=
  match call.phase with
  | .returned true => true
  | .expiring => alive
  | .pruning | .counting | .adding | .returned false => false

namespace State

/-- The calls of a key whose requests should be found, of those with such a reading. -/
def standing (calls : List Call) (alive : Bool) (key : String) (window : Seconds → Bool) : Nat :=
  calls.countP fun call => call.stands alive && (call.arguments.key = key && window call.now)

/-- Readings that are less than a window ago are found under the key. -/
def Stored (state : State) (key : String) : Prop :=
  ∀ window : Seconds → Bool, (∀ reading, window reading = true → state.retains key reading = true) →
    standing state.calls (live state.redis state.clock key).isSome key window ≤
      (content state.redis state.clock key).countP fun mark => window mark.2

/-- A key lives a window longer than every reading that has been recorded under it. -/
def Outlives (state : State) (key : String) : Prop :=
  ∀ set, state.redis key = some set → ∀ deadline ∈ set.expiresAt, ∀ call ∈ state.calls,
    call.arguments.key = key → call.allowed = true →
    ∃ other ∈ state.calls, other.arguments.key = key ∧
      call.now + other.arguments.windowSeconds ≤ deadline

structure Sound (state : State) : Prop where
  past : ∀ call ∈ state.calls, call.now ≤ state.clock
  single : ∀ (index other : Nat) one two, state.calls[index]? = some one →
    state.calls[other]? = some two → one.arguments.key = two.arguments.key →
    one.recording = true → two.recording = true → index = other
  stored : ∀ key, state.Stored key
  outlives : ∀ key, state.Outlives key

variable {state after : State} {event : Event} {index : Nat} {call other : Call} {phase : Phase}
variable {redis : Database} {member : Uuid} {calls : List Call} {key : String} {reading : Seconds}
variable {window : Seconds → Bool} {alive : Bool}

/-- What a reading that is retained says about a call of the key. -/
theorem retains_call (retained : state.retains key reading = true) (known : call ∈ state.calls)
    (own : call.arguments.key = key) : state.clock - call.arguments.windowSeconds < reading := by
  have tested := List.all_eq_true.mp retained call known
  simpa [own] using tested

/-- A reading that is retained now was retained before. -/
theorem retains_mono (retained : after.retains key reading = true)
    (calls : ∀ call ∈ state.calls, call ∈ after.calls) (passed : state.clock ≤ after.clock) :
    state.retains key reading = true := by
  apply List.all_eq_true.mpr
  intro call known
  by_cases own : call.arguments.key = key
  · have later := retains_call retained (calls call known) own
    have now : state.clock - call.arguments.windowSeconds < reading := by linarith
    simp [now]
  · simp [own]

theorem retains_set (found : state.calls[index]? = some call) :
    retains { state with redis, calls := state.calls.set index { call with phase } } key reading =
      state.retains key reading :=
  Processes.all_set found rfl

theorem standing_mono (more : alive = true → (live state.redis state.clock key).isSome = true) :
    standing calls alive key window ≤
      standing calls (live state.redis state.clock key).isSome key window := by
  apply List.countP_mono_left
  intro call _ counted
  cases alive with
  | true =>
    rw [more rfl]
    exact counted
  | false =>
    obtain ⟨stands, rest⟩ := Bool.and_eq_true_iff.mp counted
    rw [rest, Bool.and_true]
    unfold Call.stands at stands ⊢
    split <;> simp_all

/-- Only a call that waits to set the deadline needs the key. -/
theorem stands_congr (waiting : call.phase ≠ .expiring) {one two : Bool} :
    call.stands one = call.stands two := by
  unfold Call.stands
  split <;> first | rfl | contradiction

/-- Nothing stands among calls none of which has such a reading. -/
theorem standing_none (none : ∀ call ∈ calls, call.arguments.key = key → window call.now = false) :
    standing calls alive key window = 0 := by
  apply List.countP_eq_zero.mpr
  intro call known counted
  simp only [Bool.and_eq_true, decide_eq_true_eq] at counted
  obtain ⟨_, own, inside⟩ := counted
  cases inside.symm.trans (none call known own)

/-- Only the call that takes the step begins to stand. -/
theorem standing_set (alive : Bool) (key : String) (window : Seconds → Bool) (phase : Phase)
    (found : calls[index]? = some call) :
    standing (calls.set index { call with phase }) alive key window +
        (if call.stands alive && (call.arguments.key = key && window call.now) then 1 else 0) =
      standing calls alive key window +
        (if Call.stands alive { call with phase } &&
          (call.arguments.key = key && window call.now) then 1 else 0) :=
  Processes.countP_set (fun call : Call => call.stands alive &&
    (call.arguments.key = key && window call.now)) { call with phase } found

/-- A call that stands neither before nor after its step. -/
theorem standing_set_silent (found : calls[index]? = some call)
    (before : call.stands alive = false) (after : Call.stands alive { call with phase } = false) :
    standing (calls.set index { call with phase }) alive key window =
      standing calls alive key window := by
  have counts := standing_set alive key window phase found
  simpa [before, after] using counts

/-- A key is found stored when what its calls have recorded is. -/
theorem stored_of (same : content redis state.clock key = content state.redis state.clock key)
    (stored : state.Stored key)
    (fewer : ∀ window, (∀ reading, window reading = true → state.retains key reading = true) →
      standing calls (live redis state.clock key).isSome key window ≤
        standing state.calls (live state.redis state.clock key).isSome key window)
    (retained : ∀ reading, retains { state with redis, calls } key reading = true →
      state.retains key reading = true) : Stored { state with redis, calls } key := by
  intro window inside
  have before := fun reading counted => retained reading (inside reading counted)
  show standing calls (live redis state.clock key).isSome key window ≤
    (content redis state.clock key).countP fun mark => window mark.2
  rw [same]
  exact (fewer window before).trans (stored window before)

namespace Sound

theorem init : Sound State.init := by
  refine ⟨fun call known => ?_, ?_, ?_, ?_⟩
  · simp [State.init] at known
  · intro index other one two found
    simp [State.init] at found
  · intro key window _
    exact Nat.zero_le _
  · intro key set stored
    cases stored

/-- As time passes a key goes only when nothing in it is retained. -/
theorem tick (sound : state.Sound) {elapsed : Seconds} (forward : 0 ≤ elapsed) :
    Sound { state with clock := state.clock + elapsed } := by
  have passed : state.clock ≤ state.clock + elapsed := by linarith
  refine ⟨fun call known => (sound.past call known).trans passed, sound.single, ?_, sound.outlives⟩
  intro key window inside
  have earlier : ∀ reading, retains { state with clock := state.clock + elapsed } key reading =
    true →
      state.retains key reading = true :=
    fun reading retained => retains_mono retained (fun _ known => known) passed
  have before : ∀ reading, window reading = true → state.retains key reading = true :=
    fun reading counted => earlier reading (inside reading counted)
  have stored := sound.stored key window before
  show standing state.calls (live state.redis (state.clock + elapsed) key).isSome key window ≤
    (content state.redis (state.clock + elapsed) key).countP fun mark => window mark.2
  have fewer : standing state.calls (live state.redis (state.clock + elapsed) key).isSome key window
      ≤ standing state.calls (live state.redis state.clock key).isSome key window := by
    apply standing_mono
    intro later
    by_contra gone
    have nothing := live_none_of_le passed (Option.not_isSome_iff_eq_none.mp gone)
    rw [nothing] at later
    cases later
  rw [content_later passed]
  split
  · rename_i gone
    have nothing := live_eq_none.mpr (.inr gone)
    rw [nothing, List.countP_nil, Nat.le_zero]
    apply List.countP_eq_zero.mpr
    intro call known counted
    simp only [Call.stands, Bool.and_eq_true, decide_eq_true_eq] at counted
    obtain ⟨stands, own, reading⟩ := counted
    have allowed : call.allowed = true := by
      unfold Call.allowed
      split at stands <;> simp_all
    obtain ⟨set, present, deadline, due, beyond⟩ :
        ∃ set, state.redis key = some set ∧ ∃ deadline ∈ set.expiresAt,
          deadline < state.clock + elapsed := by
      cases present : state.redis key with
      | none => simp [expired, present] at gone
      | some set =>
        rw [expired_of_stored present, Option.any_eq_true] at gone
        obtain ⟨deadline, due, beyond⟩ := gone
        exact ⟨set, rfl, deadline, due, of_decide_eq_true beyond⟩
    obtain ⟨other, there, same, until'⟩ :=
      sound.outlives key set present deadline due call known own allowed
    have retained := retains_call (inside call.now reading) there same
    dsimp only at retained
    linarith
  · exact fewer.trans stored

theorem began (sound : state.Sound) (arguments : Arguments) :
    Sound { state with calls := state.calls ++ [⟨arguments, state.clock, .pruning⟩] } := by
  refine ⟨?_, ?_, ?_, ?_⟩
  · intro call known
    rcases List.mem_append.mp known with earlier | new
    · exact sound.past call earlier
    · obtain rfl := List.mem_singleton.mp new
      exact le_rfl
  · intro index other one two first second same recording also
    rcases Processes.append_cases first with ⟨_, rfl⟩ | first
    · cases recording
    · rcases Processes.append_cases second with ⟨_, rfl⟩ | second
      · cases also
      · exact sound.single index other one two first second same recording also
  · intro key
    apply stored_of rfl (sound.stored key)
    · intro window _
      rw [standing, List.countP_append]
      simp [Call.stands, standing]
    · intro reading retained
      exact retains_mono retained (fun _ known => List.mem_append_left _ known) le_rfl
  · intro key set present deadline due call known own allowed
    rcases List.mem_append.mp known with earlier | new
    · obtain ⟨other, there, same, until'⟩ :=
        sound.outlives key set present deadline due call earlier own allowed
      exact ⟨other, List.mem_append_left _ there, same, until'⟩
    · obtain rfl := List.mem_singleton.mp new
      cases allowed

/-- The calls after a step are those before, one in another phase. -/
theorem mem_set (known : other ∈ state.calls.set index { call with phase })
    (found : state.calls[index]? = some call) :
    (other ∈ state.calls ∨ other = { call with phase }) ∧
      ∃ earlier ∈ state.calls, earlier.arguments = other.arguments ∧ earlier.now = other.now := by
  obtain ⟨place, present⟩ := List.mem_iff_getElem?.mp known
  rcases Processes.set_cases present with ⟨_, rfl⟩ | ⟨_, present⟩
  · exact ⟨.inr rfl, call, List.mem_of_getElem? found, rfl, rfl⟩
  · have earlier := List.mem_of_getElem? present
    exact ⟨.inl earlier, other, earlier, rfl, rfl⟩

/-- A call that was there is there after a step, perhaps in another phase. -/
theorem mem_set_of_mem (phase : Phase) (known : other ∈ state.calls)
    (found : state.calls[index]? = some call) :
    ∃ later ∈ state.calls.set index { call with phase },
      later.arguments = other.arguments ∧ later.now = other.now := by
  obtain ⟨place, present⟩ := List.mem_iff_getElem?.mp known
  by_cases own : place = index
  · subst own
    obtain rfl : call = other := Option.some.inj (found.symm.trans present)
    exact ⟨_, List.mem_of_getElem? (Processes.set_self found), rfl, rfl⟩
  · exact ⟨other, List.mem_of_getElem? ((Processes.set_other own).trans present), rfl, rfl⟩

/-- A command keeps what the other keys hold. -/
theorem set (sound : state.Sound) (found : state.calls[index]? = some call)
    (elsewhere : ∀ key, key ≠ call.arguments.key → redis key = state.redis key)
    (alone : Call.recording { call with phase } = true → call.recording = true ∨
      ∀ other ∈ state.calls, other.arguments.key = call.arguments.key → other.recording = false)
    (stored : Stored { state with redis, calls := state.calls.set index { call with phase } }
      call.arguments.key)
    (outlives : Outlives { state with redis, calls := state.calls.set index { call with phase } }
      call.arguments.key) :
    Sound { state with redis, calls := state.calls.set index { call with phase } } := by
  refine ⟨?_, ?_, ?_, ?_⟩
  · intro other known
    obtain ⟨_, earlier, there, _, same⟩ := mem_set known found
    exact same ▸ sound.past earlier there
  · intro place another one two first second same recording also
    rcases Processes.set_cases first with ⟨rfl, rfl⟩ | ⟨_, one'⟩
    · rcases Processes.set_cases second with ⟨rfl, _⟩ | ⟨_, two'⟩
      · rfl
      · rcases alone recording with before | nobody
        · exact sound.single place another call two found two' same before also
        · cases also.symm.trans (nobody two (List.mem_of_getElem? two') same.symm)
    · rcases Processes.set_cases second with ⟨rfl, rfl⟩ | ⟨_, two'⟩
      · rcases alone also with before | nobody
        · exact sound.single place another one call one' found same recording before
        · cases recording.symm.trans (nobody one (List.mem_of_getElem? one') same)
      · exact sound.single place another one two one' two' same recording also
  · intro key
    by_cases own : key = call.arguments.key
    · exact own ▸ stored
    · apply stored_of (content_congr (elsewhere key own)) (sound.stored key)
      · intro window _
        have counts := standing_set (live redis state.clock key).isSome key window phase found
        have same : live redis state.clock key = live state.redis state.clock key := by
          rw [live, live, elsewhere key own]
        rw [same] at counts ⊢
        simp only [decide_eq_false (Ne.symm own), Bool.false_and, Bool.and_false] at counts
        exact Nat.le_of_eq counts
      · intro reading retained
        exact (retains_set found).symm.trans retained
  · intro key
    by_cases own : key = call.arguments.key
    · exact own ▸ outlives
    · intro set present deadline due other known belongs allowed
      rcases (mem_set known found).1 with earlier | rfl
      · obtain ⟨last, there, same, until'⟩ := sound.outlives key set
          ((elsewhere key own).symm.trans present) deadline due other earlier belongs allowed
        obtain ⟨later, kept, arguments, _⟩ := mem_set_of_mem phase there found
        exact ⟨later, kept, arguments ▸ same, arguments ▸ until'⟩
      · exact absurd belongs.symm own

/-- The deadline of a key is as before, or there is none, and nobody has ended in this step. -/
theorem outlives_set (sound : state.Sound) (found : state.calls[index]? = some call)
    (open' : Call.allowed { call with phase } = false)
    (deadlines : ∀ set, redis call.arguments.key = some set → set.expiresAt = none ∨
      ∃ earlier, state.redis call.arguments.key = some earlier ∧
        set.expiresAt = earlier.expiresAt) :
    Outlives { state with redis, calls := state.calls.set index { call with phase } }
      call.arguments.key := by
  intro set present deadline due other known belongs allowed
  rcases (mem_set known found).1 with before | rfl
  · rcases deadlines set present with none | ⟨earlier, stored, same⟩
    · rw [none] at due
      cases due
    · obtain ⟨last, there, own, until'⟩ := sound.outlives call.arguments.key earlier stored
        deadline (same ▸ due) other before belongs allowed
      obtain ⟨later, kept, arguments, _⟩ := mem_set_of_mem phase there found
      exact ⟨later, kept, arguments ▸ own, arguments ▸ until'⟩
  · cases open'.symm.trans allowed

theorem prune (sound : state.Sound) (found : state.calls[index]? = some call)
    (current : call.phase = .pruning) :
    Sound { state with
      redis := zremrangebyscore state.redis state.clock call.arguments.key call.windowStart,
      calls := state.calls.set index { call with phase := .counting } } := by
  have now : call.now ≤ state.clock := sound.past call (List.mem_of_getElem? found)
  apply sound.set found
  · intro key apart
    exact prune_other apart
  · intro recording
    cases recording
  · intro window inside
    have before : ∀ reading, window reading = true →
        state.retains call.arguments.key reading = true :=
      fun reading counted => (retains_set found).symm.trans (inside reading counted)
    have stored := sound.stored call.arguments.key window before
    show standing (state.calls.set index { call with phase := .counting })
        (live (zremrangebyscore state.redis state.clock call.arguments.key call.windowStart)
          state.clock call.arguments.key).isSome call.arguments.key window ≤
      (content (zremrangebyscore state.redis state.clock call.arguments.key call.windowStart)
        state.clock call.arguments.key).countP fun mark => window mark.2
    have kept : ((content state.redis state.clock call.arguments.key).filter
        (call.windowStart < ·.2)).countP (fun mark => window mark.2) =
        (content state.redis state.clock call.arguments.key).countP fun mark => window mark.2 := by
      rw [List.countP_filter]
      apply List.countP_congr
      intro mark _
      simp only [Bool.and_eq_true, decide_eq_true_eq, and_iff_left_iff_imp]
      intro counted
      have retained := retains_call (before mark.2 counted) (List.mem_of_getElem? found) rfl
      unfold Call.windowStart
      linarith
    rw [content_prune le_rfl, kept,
      standing_set_silent found (by simp [Call.stands, current]) (by simp [Call.stands])]
    exact (standing_mono live_of_prune).trans stored
  · apply sound.outlives_set found rfl
    intro set present
    exact .inr (expires_prune present)

theorem count (sound : state.Sound) (found : state.calls[index]? = some call)
    (current : call.phase = .counting) (orderly : call.Orderly state member)
    (silent : phase = .adding ∨ phase = .returned false) :
    Sound { state with calls := state.calls.set index { call with phase } } := by
  rw [Call.Orderly, current] at orderly
  apply sound.set found
  · intro key _
    rfl
  · intro _
    exact .inr fun other known same => (orderly other known same).1
  · apply stored_of rfl (sound.stored _)
    · intro window _
      have quiet : Call.stands (live state.redis state.clock call.arguments.key).isSome
          { call with phase } = false := by
        rcases silent with rfl | rfl <;> rfl
      rw [standing_set_silent found (by simp [Call.stands, current]) quiet]
    · intro reading retained
      exact (retains_set found).symm.trans retained
  · apply sound.outlives_set found
    · rcases silent with rfl | rfl <;> rfl
    · intro set present
      exact .inr ⟨set, present, rfl⟩

theorem add (sound : state.Sound) (found : state.calls[index]? = some call)
    (current : call.phase = .adding) (orderly : call.Orderly state member) :
    Sound { state with
      redis := zadd state.redis state.clock call.arguments.key member call.now,
      calls := state.calls.set index { call with phase := .expiring } } := by
  rw [Call.Orderly, current] at orderly
  apply sound.set found
  · intro key apart
    exact zadd_other apart
  · intro _
    exact .inl (by simp [Call.recording, current])
  · intro window inside
    have before : ∀ reading, window reading = true →
        state.retains call.arguments.key reading = true :=
      fun reading counted => (retains_set found).symm.trans (inside reading counted)
    have stored := sound.stored call.arguments.key window before
    have added := zadd_live call.now orderly
    show standing (state.calls.set index { call with phase := .expiring })
        (live (zadd state.redis state.clock call.arguments.key member call.now) state.clock
          call.arguments.key).isSome call.arguments.key window ≤
      (content (zadd state.redis state.clock call.arguments.key member call.now) state.clock
        call.arguments.key).countP fun mark => window mark.2
    -- no other call is waiting to set the deadline, so the key that is there now changes nothing
    have others : standing state.calls true call.arguments.key window = standing state.calls
        (live state.redis state.clock call.arguments.key).isSome call.arguments.key window := by
      apply List.countP_congr
      intro other known
      by_cases own : other.arguments.key = call.arguments.key
      · have waiting : other.phase ≠ .expiring := by
          intro phase
          obtain ⟨place, present⟩ := List.mem_iff_getElem?.mp known
          have one : place = index := sound.single place index other call present found own
            (by simp [Call.recording, phase]) (by simp [Call.recording, current])
          subst one
          obtain rfl : other = call := Option.some.inj (present.symm.trans found)
          cases phase.symm.trans current
        rw [stands_congr waiting]
      · simp [own]
    have counts := standing_set true call.arguments.key window .expiring found
    rw [added, Option.isSome_some, content_zadd orderly, List.countP_append, List.countP_singleton]
    simp only [Call.stands, current, Bool.false_and, Bool.false_eq_true, ↓reduceIte,
      Nat.add_zero, decide_true, Bool.true_and] at counts
    rw [counts, others]
    exact Nat.add_le_add_right stored _
  · apply sound.outlives_set found rfl
    intro set present
    exact expires_zadd present

/-- Nothing is retained in a window without length. -/
theorem window_pos (sound : state.Sound) (known : call ∈ state.calls)
    (there : other ∈ state.calls)
    (retained : state.retains call.arguments.key other.now = true) :
    call.arguments.windowSeconds ≠ 0 := by
  intro nothing
  have inside := retains_call retained known rfl
  have past := sound.past other there
  rw [nothing, Nat.cast_zero] at inside
  linarith

theorem finish (sound : state.Sound) (found : state.calls[index]? = some call)
    (current : call.phase = .expiring) (orderly : call.Orderly state member) :
    Sound { state with
      redis := expire state.redis state.clock call.arguments.key call.arguments.windowSeconds,
      calls := state.calls.set index { call with phase := .returned true } } := by
  rw [Call.Orderly, current] at orderly
  have known : call ∈ state.calls := List.mem_of_getElem? found
  apply sound.set found
  · intro key apart
    exact expire_other apart
  · intro recording
    cases recording
  · intro window inside
    have before : ∀ reading, window reading = true →
        state.retains call.arguments.key reading = true :=
      fun reading counted => (retains_set found).symm.trans (inside reading counted)
    have stored := sound.stored call.arguments.key window before
    show standing (state.calls.set index { call with phase := .returned true })
        (live (expire state.redis state.clock call.arguments.key call.arguments.windowSeconds)
          state.clock call.arguments.key).isSome call.arguments.key window ≤
      (content (expire state.redis state.clock call.arguments.key call.arguments.windowSeconds)
        state.clock call.arguments.key).countP fun mark => window mark.2
    by_cases nothing : call.arguments.windowSeconds = 0
    · have none : ∀ other ∈ state.calls.set index { call with phase := .returned true },
          other.arguments.key = call.arguments.key → window other.now = false := by
        intro other there _
        obtain ⟨_, earlier, present, _, now⟩ := mem_set there found
        apply Bool.eq_false_of_not_eq_true
        intro counted
        exact sound.window_pos known present (now ▸ before other.now counted) nothing
      rw [standing_none none]
      exact Nat.zero_le _
    · have counts := standing_set (live state.redis state.clock call.arguments.key).isSome
        call.arguments.key window (.returned true) found
      have still : standing (state.calls.set index { call with phase := .returned true })
          (live state.redis state.clock call.arguments.key).isSome call.arguments.key window =
          standing state.calls (live state.redis state.clock call.arguments.key).isSome
            call.arguments.key window := by
        simp only [Call.stands, current, decide_true, Bool.true_and] at counts
        cases counted : window call.now with
        | false => simpa [counted] using counts
        | true =>
          rw [orderly (before call.now counted)] at counts ⊢
          simpa [counted] using counts
      have alive : state.clock ≤ state.clock + call.arguments.windowSeconds :=
        le_add_of_nonneg_right (Nat.cast_nonneg _)
      rw [content_expire, if_pos ⟨alive, nothing⟩]
      exact (standing_mono live_of_expire).trans ((Nat.le_of_eq still).trans stored)
  · intro set present deadline due other there own _
    rw [expires_expire present, Option.mem_some] at due
    obtain ⟨_, earlier, before, _, now⟩ := mem_set there found
    obtain ⟨later, kept, arguments, _⟩ := mem_set_of_mem (.returned true) known found
    refine ⟨later, kept, arguments ▸ rfl, ?_⟩
    rw [arguments, ← due, ← now]
    linarith [sound.past earlier before]

theorem command (sound : state.Sound) (found : state.calls[index]? = some call)
    (orderly : call.Orderly state member)
    (moved : call.step state.clock state.redis member = some (redis, phase)) :
    Sound { state with redis, calls := state.calls.set index { call with phase } } := by
  cases current : call.phase with
  | pruning =>
    rw [Call.step, current] at moved
    cases moved
    exact sound.prune found current
  | counting =>
    simp only [Call.step, current] at moved
    split at moved
    · cases moved
      exact sound.count found current orderly (.inr rfl)
    · cases moved
      exact sound.count found current orderly (.inl rfl)
  | adding =>
    rw [Call.step, current] at moved
    cases moved
    exact sound.add found current orderly
  | expiring =>
    rw [Call.step, current] at moved
    cases moved
    exact sound.finish found current orderly
  | returned allowed =>
    rw [Call.step, current] at moved
    cases moved

theorem step (sound : state.Sound) (orderly : Orderly state event)
    (taken : State.step state event = some after) : after.Sound := by
  cases event with
  | tick elapsed =>
    simp only [State.step] at taken
    split at taken
    · cases taken
    · rename_i forward
      cases taken
      exact sound.tick (not_lt.mp forward)
  | call arguments =>
    cases taken
    exact sound.began arguments
  | command index member =>
    simp only [State.step] at taken
    split at taken
    · cases taken
    · rename_i call found
      split at taken
      · cases taken
      · rename_i redis phase moved
        cases taken
        exact sound.command found (orderly call found) moved

end Sound

/-- No window of any key has more calls that passed than the limit. -/
def Bounded (state : State) : Prop :=
  ∀ arguments start, state.calls.countP (fun call =>
    call.passed && call.within arguments start) ≤ arguments.limit

theorem Bounded.limited (bounded : state.Bounded) : Limited state := by
  intro arguments start
  apply Nat.le_trans _ (bounded arguments start)
  apply List.countP_mono_left
  intro call _ counted
  obtain ⟨allowed, inside⟩ := Bool.and_eq_true_iff.mp counted
  rw [Call.passed_of_allowed allowed, inside]
  rfl

/-- In a window that the call is in, `ZCOUNT` counts every call that has passed. -/
theorem Sound.passed_le_zcount (sound : state.Sound) {start : Seconds}
    (counting : call.phase = .counting)
    (orderly : call.Orderly state member) (inside : call.within call.arguments start = true) :
    state.calls.countP (fun other => other.passed && other.within call.arguments start) ≤
      zcount state.redis state.clock call.arguments.key call.windowStart := by
  rw [Call.Orderly, counting] at orderly
  simp only [Call.within, Bool.and_eq_true, decide_eq_true_eq] at inside
  -- the readings near this one that are less than a window old
  let window : Seconds → Bool := fun reading => call.windowStart < reading &&
    state.retains call.arguments.key reading
  have stored := sound.stored call.arguments.key window
    fun reading counted => (Bool.and_eq_true_iff.mp counted).2
  rw [zcount_eq]
  refine Nat.le_trans ?_ (stored.trans ?_)
  · apply List.countP_mono_left
    intro other known counted
    simp only [Call.within, Bool.and_eq_true, decide_eq_true_eq] at counted
    obtain ⟨passed, same, after, before⟩ := counted
    obtain ⟨idle, fresh⟩ := orderly other known (congrArg Arguments.key same)
    have allowed : other.allowed = true := Call.allowed_of_passed passed idle
    have later : call.windowStart < other.now := by
      unfold Call.windowStart
      linarith [inside.2.2]
    have near : call.near other = true := by
      have earlier : other.now < call.now + call.arguments.windowSeconds := by
        linarith [inside.2.1]
      simp [Call.near, same, later, earlier]
    have returned : other.phase = .returned true := of_decide_eq_true allowed
    simp [Call.stands, returned, same, window, later, fresh allowed near]
  · apply List.countP_mono_left
    intro mark _ counted
    have later := (Bool.and_eq_true_iff.mp counted).1
    exact decide_eq_true (le_of_lt (of_decide_eq_true later))

/-- A command that does not let a call pass leaves the calls that have passed as they are. -/
theorem Bounded.set (bounded : state.Bounded) (found : state.calls[index]? = some call)
    (room : ∀ start, call.within call.arguments start = true →
      Call.passed { call with phase } = true → call.passed = true ∨
      state.calls.countP (fun other => other.passed && other.within call.arguments start) <
        call.arguments.limit) :
    Bounded { state with redis, calls := state.calls.set index { call with phase } } := by
  intro arguments start
  have counts := Processes.countP_set (fun call => call.passed && call.within arguments start)
    { call with phase } found
  have before := bounded arguments start
  have unmoved : Call.within arguments start { call with phase } = call.within arguments start :=
    rfl
  rw [unmoved] at counts
  dsimp only
  cases inside : call.within arguments start with
  | false =>
    simp only [inside, Bool.and_false, Bool.false_eq_true, ↓reduceIte, Nat.add_zero] at counts
    omega
  | true =>
    have same : call.arguments = arguments := by
      simp only [Call.within, Bool.and_eq_true, decide_eq_true_eq] at inside
      exact inside.1
    subst same
    cases passes : Call.passed { call with phase } with
    | false =>
      simp only [passes, Bool.false_and, Bool.false_eq_true, ↓reduceIte] at counts
      omega
    | true =>
      simp only [passes, inside, Bool.and_true, ↓reduceIte] at counts
      rcases room start inside passes with passed | space
      · simp only [passed, ↓reduceIte] at counts
        omega
      · omega

theorem Bounded.step (bounded : state.Bounded) (sound : state.Sound)
    (orderly : Orderly state event) (taken : State.step state event = some after) :
    after.Bounded := by
  cases event with
  | tick =>
    simp only [State.step] at taken
    split at taken
    · cases taken
    · cases taken
      exact bounded
  | call arguments =>
    cases taken
    intro others start
    rw [List.countP_append]
    simpa [Call.passed] using bounded others start
  | command index member =>
    simp only [State.step] at taken
    split at taken
    · cases taken
    · rename_i call found
      split at taken
      · cases taken
      · rename_i redis phase moved
        cases taken
        apply bounded.set found
        intro start inside passes
        unfold Call.step at moved
        dsimp only at moved
        split at moved <;> rename_i current
        · cases moved
          cases passes
        · split at moved
          · cases moved
            cases passes
          · rename_i below
            have counted := sound.passed_le_zcount current (orderly call found) inside
            exact .inr (counted.trans_lt (Nat.not_le.mp below))
        · exact .inl (by simp [Call.passed, current])
        · exact .inl (by simp [Call.passed, current])
        · cases moved

end State

theorem limit_holds {events : List State.Event} {state : State}
    (run : Run State.system Orderly events state) : Limited state := by
  have both : state.Sound ∧ state.Bounded := by
    apply run.invariant
    · refine ⟨State.Sound.init, ?_⟩
      intro arguments start
      exact Nat.zero_le _
    · rintro _ before event after _ ⟨sound, bounded⟩ orderly taken
      exact ⟨sound.step orderly taken, bounded.step sound orderly taken⟩
  exact both.2.limited

def cooldown : Arguments := ⟨"otp:login:cooldown:ann@example.com", 1, 30⟩

/-- The commands of a call that passes. -/
def passes (index : Nat) : List State.Event :=
  [.command index 0, .command index 0, .command index index, .command index 0]

/-- The second call comes when the first one has returned, and is rejected. -/
def follows : List State.Event :=
  .call cooldown :: passes 0 ++ [.tick 20, .call cooldown, .command 1 0, .command 1 0]

theorem limit_holds_follows : ∃ state, Run State.system Orderly follows state ∧ Limited state := by
  obtain ⟨state, run, _⟩ := Run.exists_of_execute State.system Orderly follows (fun _ => true)
    (by decide +kernel)
  exact ⟨state, run, limit_holds run⟩

/-- Both calls count before either has added itself. -/
def overlaps : List State.Event :=
  [.call cooldown, .call cooldown, .command 0 0, .command 1 0, .command 0 0, .command 1 0,
    .command 0 0, .command 0 0, .command 1 1, .command 1 0]

theorem limit_exceeded : ∃ state, Run State.system Any overlaps state ∧ ¬ Limited state := by
  obtain ⟨state, run, both⟩ := Run.exists_of_execute State.system Any overlaps
    (fun state => decide (2 ≤ state.calls.countP fun call =>
      call.allowed && call.within cooldown (-1)))
    (by decide +kernel)
  refine ⟨state, run, ?_⟩
  intro limited
  have most := limited cooldown (-1)
  have two : 2 ≤ state.calls.countP fun call => call.allowed && call.within cooldown (-1) := by
    simpa using both
  have one : cooldown.limit = 1 := rfl
  omega

end Relays.RateLimiting
