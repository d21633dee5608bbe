import Relays.RateLimiting.Reference

/-! The runs of the concurrent system in which calls do not overlap: they serve one call after the
other, each command at its own time. -/

namespace Relays.RateLimiting

open Redis Transition

def Call.ended (call : Call) : Bool :=
  match call.phase with
  | .returned _ => true
  | .pruning | .counting | .adding | .expiring => false

/-- A call begins when all calls have ended. -/
def Sequential (before : State) : State.Event → Prop
  | .call _ => ∀ call ∈ before.calls, call.ended = true
  | .tick _ | .command _ _ => True

instance (before : State) : (event : State.Event) → Decidable (Sequential before event)
  | .call _ => List.decidableBAll (fun call : Call => call.ended = true) before.calls
  | .tick _ | .command _ _ => instDecidableTrue

/-- The calls that have been served. -/
def Served.calls (served : Served) : List Call :=
  served.answers.map fun (request, allowed) =>
    ⟨request.arguments, request.reading.now, .returned allowed⟩

/-- What happens in a call that nothing comes between, from a time before it on. -/
def Request.events (request : Request) (clock : Seconds) (index : Nat) (allowed : Bool) :
    List State.Event :=
  let reading := request.reading
  let command : State.Event := .command index reading.member
  [.tick (reading.now - clock), .call request.arguments, .tick (reading.prunes - reading.now),
    command, .tick (reading.counts - reading.prunes), command] ++
  if allowed then [.tick (reading.adds - reading.counts), command,
    .tick (reading.expires - reading.adds), command]
  else [.tick (reading.expires - reading.counts)]

/-- What happens when these calls are served next, each at its own times. -/
def timetable (served : Served) (clock : Seconds) : List Request → List State.Event
  | [] => []
  | request :: rest =>
    request.events clock served.answers.length
        (slidingWindowLimiter served.redis request.reading request.arguments).2 ++
      timetable (served.call request) request.reading.expires rest

/-- What a call that has begun has done so far. -/
def Underway (served : Served) (clock : Seconds) (redis : Database) (arguments : Arguments)
    (now : Seconds) : Phase → Prop
  | .pruning => redis = served.redis
  | .counting => ∃ prunes, now ≤ prunes ∧ prunes ≤ clock ∧
      redis = zremrangebyscore served.redis prunes arguments.key (now - arguments.windowSeconds)
  | .adding => ∃ prunes counts, now ≤ prunes ∧ prunes ≤ counts ∧ counts ≤ clock ∧
      redis = zremrangebyscore served.redis prunes arguments.key (now - arguments.windowSeconds) ∧
      zcount redis counts arguments.key (now - arguments.windowSeconds) < arguments.limit
  | .expiring => ∃ prunes counts adds member, now ≤ prunes ∧ prunes ≤ counts ∧ counts ≤ adds ∧
      adds ≤ clock ∧ zcount (zremrangebyscore served.redis prunes arguments.key
        (now - arguments.windowSeconds)) counts arguments.key (now - arguments.windowSeconds) <
          arguments.limit ∧
      redis = zadd (zremrangebyscore served.redis prunes arguments.key
        (now - arguments.windowSeconds)) adds arguments.key member now
  | .returned _ => False

/-- A state of a sequential run: some calls have been served, and one may be underway. -/
inductive Reached (requests : List Request) : State → Prop where
  | idle {clock : Seconds} (known : ∀ request ∈ requests, request.reading.expires ≤ clock)
      (started : 0 ≤ clock) :
      Reached requests ⟨clock, (serve requests).redis, (serve requests).calls⟩
  | busy {clock now : Seconds} {redis : Database} {arguments : Arguments} {phase : Phase}
      (known : ∀ request ∈ requests, request.reading.expires ≤ now) (started : 0 ≤ now)
      (passed : now ≤ clock) (underway : Underway (serve requests) clock redis arguments now
        phase) :
      Reached requests ⟨clock, redis, (serve requests).calls ++ [⟨arguments, now, phase⟩]⟩

section Runs

variable {requests front : List Request} {request : Request} {served : Served}
    {events : List State.Event}
variable {clock now later : Seconds} {redis next : Database} {answered : List Call}
    {arguments : Arguments}
variable {phase after : Phase} {allowed : Bool} {member : Uuid} {reading : Reading}
    {state final : State} {event : State.Event}

theorem Served.calls_call : (served.call request).calls = served.calls ++
    [⟨request.arguments, request.reading.now,
      .returned (slidingWindowLimiter served.redis request.reading request.arguments).2⟩] := by
  simp [Served.call_eq, Served.calls]

theorem Served.calls_ended : ∀ call ∈ served.calls, call.ended = true := by
  intro call known
  obtain ⟨_, _, rfl⟩ := List.mem_map.mp known
  rfl

theorem Served.calls_length : served.calls.length = served.answers.length := by
  simp [Served.calls]

theorem Timed.concat (timed : Timed requests) (ordered : request.reading.Ordered)
    (known : ∀ earlier ∈ requests, earlier.reading.expires ≤ request.reading.now)
    (started : 0 ≤ request.reading.now) : Timed (requests ++ [request]) := by
  refine ⟨?_, ?_, ?_⟩
  · intro one known
    rcases List.mem_append.mp known with earlier | new
    · exact timed.times one earlier
    · exact List.mem_singleton.mp new ▸ ordered
  · refine List.pairwise_append.mpr ⟨timed.apart, List.pairwise_singleton _ _, ?_⟩
    intro one earlier two new
    exact List.mem_singleton.mp new ▸ known one earlier
  · intro one known
    rcases List.mem_append.mp known with earlier | new
    · exact timed.started one earlier
    · exact List.mem_singleton.mp new ▸ started

namespace State

/-- The next command of the call that began last. -/
theorem command_last (run : Run system Sequential events
      ⟨clock, redis, answered ++ [⟨arguments, now, phase⟩]⟩) (member : Uuid)
    (taken : Call.step clock redis member ⟨arguments, now, phase⟩ = some (next, after)) :
    Run system Sequential (events ++ [.command answered.length member])
      ⟨clock, next, answered ++ [⟨arguments, now, after⟩]⟩ := by
  have permitted : Sequential ⟨clock, redis, answered ++ [⟨arguments, now, phase⟩]⟩
    (.command answered.length member) := trivial
  exact run.step permitted (by simp [system, step, taken])

/-- Time passes up to the next command. -/
theorem wait (run : Run system Sequential events ⟨clock, redis, answered⟩) (passed : clock ≤ now) :
    Run system Sequential (events ++ [.tick (now - clock)]) ⟨now, redis, answered⟩ := by
  have forward : ¬ now - clock < 0 := not_lt.mpr (sub_nonneg.mpr passed)
  have permitted : Sequential ⟨clock, redis, answered⟩ (.tick (now - clock)) := trivial
  exact run.step permitted (by simp [system, step, forward])

/-- A call that nothing comes between is the limiter as a function. -/
theorem run_alone (run : Run system Sequential events ⟨clock, redis, answered⟩)
    (ended : ∀ call ∈ answered, call.ended = true) (passed : clock ≤ request.reading.now)
    (ordered : request.reading.Ordered) :
    Run system Sequential (events ++ request.events clock answered.length
        (slidingWindowLimiter redis request.reading request.arguments).2)
      ⟨request.reading.expires, (slidingWindowLimiter redis request.reading request.arguments).1,
        answered ++ [⟨request.arguments, request.reading.now,
          .returned (slidingWindowLimiter redis request.reading request.arguments).2⟩]⟩ := by
  have began : system.step ⟨request.reading.now, redis, answered⟩ (.call request.arguments) =
      some ⟨request.reading.now, redis, answered ++
        [⟨request.arguments, request.reading.now, .pruning⟩]⟩ := rfl
  have alone : Sequential ⟨request.reading.now, redis, answered⟩ (.call request.arguments) := ended
  have called := wait ((wait run passed).step alone began) ordered.prunes
  have pruned := wait (command_last called request.reading.member rfl) ordered.counts
  unfold slidingWindowLimiter
  dsimp only
  split
  · rename_i full
    have counted := command_last pruned request.reading.member (if_pos full)
    have done := wait counted (ordered.adds.trans ordered.expires)
    simpa [Request.events, Call.windowStart, Reading.windowStart] using done
  · rename_i space
    have counted := wait (command_last pruned request.reading.member (if_neg space)) ordered.adds
    have added := wait (command_last counted request.reading.member rfl) ordered.expires
    have done := command_last added request.reading.member rfl
    simpa [Request.events, Call.windowStart, Reading.windowStart] using done

end State

/-- Calls that are served one after the other are a run of the concurrent system. -/
theorem run_timetable (run : Run State.system Sequential events ⟨clock, served.redis, served.calls⟩)
    (times : ∀ request ∈ requests, request.reading.Ordered)
    (apart : requests.Pairwise (·.reading.expires ≤ ·.reading.now))
    (passed : ∀ request ∈ requests, clock ≤ request.reading.now) :
    ∃ later, Run State.system Sequential (events ++ timetable served clock requests)
      ⟨later, (requests.foldl Served.call served).redis,
        (requests.foldl Served.call served).calls⟩ := by
  induction requests generalizing events clock served with
  | nil =>
    refine ⟨clock, ?_⟩
    rw [timetable, List.append_nil]
    exact run
  | cons request rest ih =>
    obtain ⟨after, others⟩ := List.pairwise_cons.mp apart
    have first := State.run_alone run Served.calls_ended (passed request List.mem_cons_self)
      (times request List.mem_cons_self)
    rw [Served.calls_length, ← Served.calls_call] at first
    have called : Run State.system Sequential (events ++ request.events clock
          served.answers.length (slidingWindowLimiter served.redis request.reading
            request.arguments).2)
        ⟨request.reading.expires, (served.call request).redis, (served.call request).calls⟩ := first
    obtain ⟨later, all⟩ := ih called
      (fun one known => times one (List.mem_cons_of_mem _ known)) others after
    refine ⟨later, ?_⟩
    rw [timetable, ← List.append_assoc]
    exact all

theorem exists_run_serve (timed : Timed requests) : ∃ clock,
    Run State.system Sequential (timetable ⟨fun _ => none, []⟩ 0 requests)
      ⟨clock, (serve requests).redis, (serve requests).calls⟩ := by
  have began : Run State.system Sequential []
      ⟨0, (⟨fun _ => none, []⟩ : Served).redis, (⟨fun _ => none, []⟩ : Served).calls⟩ := .start
  exact run_timetable began timed.times timed.apart timed.started

theorem Underway.tick (underway : Underway served clock redis arguments now phase)
    (passed : clock ≤ later) : Underway served later redis arguments now phase := by
  cases phase with
  | pruning => exact underway
  | counting =>
    obtain ⟨prunes, began, before, same⟩ := underway
    exact ⟨prunes, began, before.trans passed, same⟩
  | adding =>
    obtain ⟨prunes, counts, began, pruned, before, rest⟩ := underway
    exact ⟨prunes, counts, began, pruned, before.trans passed, rest⟩
  | expiring =>
    obtain ⟨prunes, counts, adds, member, began, pruned, counted, before, rest⟩ := underway
    exact ⟨prunes, counts, adds, member, began, pruned, counted, before.trans passed, rest⟩
  | returned allowed => exact underway

/-- A call that has its answer has been served. -/
theorem Reached.answers (last : Request) (timed : Timed requests)
    (known : ∀ request ∈ requests, request.reading.expires ≤ last.reading.now)
    (started : 0 ≤ last.reading.now) (ordered : last.reading.Ordered)
    (answer : slidingWindowLimiter (serve requests).redis last.reading last.arguments =
      (redis, allowed)) :
    ∃ more, Timed more ∧ Reached more ⟨last.reading.expires, redis, (serve requests).calls ++
      [⟨last.arguments, last.reading.now, .returned allowed⟩]⟩ := by
  refine ⟨requests ++ [last], timed.concat ordered known started, ?_⟩
  have whole : serve (requests ++ [last]) =
      ⟨redis, (serve requests).answers ++ [(last, allowed)]⟩ := by
    rw [serve_concat, Served.call_eq, answer]
  have calls : (serve requests).calls ++
      [⟨last.arguments, last.reading.now, .returned allowed⟩] =
      (serve (requests ++ [last])).calls := by
    rw [serve_concat, Served.calls_call, answer]
  have redis' : redis = (serve (requests ++ [last])).redis := by rw [whole]
  rw [calls, redis']
  refine .idle ?_ (started.trans ordered.ended)
  intro one served
  rcases List.mem_append.mp served with earlier | new
  · exact (known one earlier).trans ordered.ended
  · exact List.mem_singleton.mp new ▸ le_rfl

/-- The next command of the call that is underway. -/
theorem Underway.command (underway : Underway (serve requests) clock redis arguments now phase)
    (timed : Timed requests) (known : ∀ request ∈ requests, request.reading.expires ≤ now)
    (started : 0 ≤ now) (passed : now ≤ clock)
    (taken : Call.step clock redis member ⟨arguments, now, phase⟩ = some (next, after)) :
    ∃ more, Timed more ∧
      Reached more ⟨clock, next, (serve requests).calls ++ [⟨arguments, now, after⟩]⟩ := by
  cases phase with
  | pruning =>
    cases taken
    obtain rfl : redis = (serve requests).redis := underway
    exact ⟨requests, timed, .busy known started passed ⟨clock, passed, le_rfl, rfl⟩⟩
  | counting =>
    obtain ⟨prunes, began, before, rfl⟩ := underway
    simp only [Call.step] at taken
    split at taken
    · rename_i full
      cases taken
      let reading : Reading := ⟨now, prunes, clock, clock, clock, member⟩
      have ordered : reading.Ordered := ⟨began, before, le_rfl, le_rfl⟩
      have answer : slidingWindowLimiter (serve requests).redis reading arguments =
          (zremrangebyscore (serve requests).redis prunes arguments.key
            (now - arguments.windowSeconds), false) := if_pos full
      exact Reached.answers ⟨arguments, reading⟩ timed known started ordered answer
    · rename_i space
      cases taken
      exact ⟨requests, timed, .busy known started passed
        ⟨prunes, clock, began, before, le_rfl, rfl, Nat.not_le.mp space⟩⟩
  | adding =>
    obtain ⟨prunes, counts, began, pruned, before, rfl, space⟩ := underway
    cases taken
    exact ⟨requests, timed, .busy known started passed
      ⟨prunes, counts, clock, member, began, pruned, before, le_rfl, space, rfl⟩⟩
  | expiring =>
    obtain ⟨prunes, counts, adds, drawn, began, pruned, counted, before, space, rfl⟩ := underway
    cases taken
    let reading : Reading := ⟨now, prunes, counts, adds, clock, drawn⟩
    have ordered : reading.Ordered := ⟨began, pruned, counted, before⟩
    have answer : slidingWindowLimiter (serve requests).redis reading arguments =
        (expire (zadd (zremrangebyscore (serve requests).redis prunes arguments.key
          (now - arguments.windowSeconds)) adds arguments.key drawn now) clock arguments.key
          arguments.windowSeconds, true) := if_neg (Nat.not_le.mpr space)
    exact Reached.answers ⟨arguments, reading⟩ timed known started ordered answer
  | returned allowed => exact underway.elim

theorem Call.step_ended {call : Call} (ended : call.ended = true) :
    call.step clock redis member = none := by
  unfold Call.ended at ended
  unfold Call.step
  split at ended <;> simp_all

/-- A command of a run is one of the call that is underway. -/
theorem step_command {index : Nat} {last : Call} (ended : ∀ call ∈ answered, call.ended = true)
    (taken : State.step ⟨clock, redis, answered ++ [last]⟩ (.command index member) = some state) :
    ∃ next phase, last.step clock redis member = some (next, phase) ∧
      state = ⟨clock, next, answered ++ [{ last with phase }]⟩ := by
  simp only [State.step] at taken
  split at taken
  · cases taken
  · rename_i call found
    split at taken
    · cases taken
    · rename_i next phase moved
      cases taken
      rcases Processes.append_cases found with ⟨rfl, rfl⟩ | earlier
      · exact ⟨next, phase, moved, by simp⟩
      · cases moved.symm.trans (Call.step_ended (ended call (List.mem_of_getElem? earlier)))

/-- A step of a sequential run. -/
theorem Reached.step (reached : Reached requests state) (timed : Timed requests)
    (permitted : Sequential state event) (taken : State.step state event = some final) :
    ∃ more, Timed more ∧ Reached more final := by
  cases reached with
  | @idle clock known started =>
    cases event with
    | tick elapsed =>
      simp only [State.step] at taken
      split at taken
      · cases taken
      · rename_i forward
        cases taken
        have passed : clock ≤ clock + elapsed := le_add_of_nonneg_right (not_lt.mp forward)
        exact ⟨requests, timed, .idle (fun request served => (known request served).trans passed)
          (started.trans passed)⟩
    | call arguments =>
      cases taken
      exact ⟨requests, timed, .busy known started le_rfl rfl⟩
    | command index member =>
      simp only [State.step] at taken
      split at taken
      · cases taken
      · rename_i call found
        simp [Call.step_ended (Served.calls_ended call (List.mem_of_getElem? found))] at taken
  | @busy clock now redis arguments phase known started passed underway =>
    cases event with
    | tick elapsed =>
      simp only [State.step] at taken
      split at taken
      · cases taken
      · rename_i forward
        cases taken
        have later : clock ≤ clock + elapsed := le_add_of_nonneg_right (not_lt.mp forward)
        exact ⟨requests, timed, .busy known started (passed.trans later) (underway.tick later)⟩
    | call others =>
      have ended := permitted _ List.mem_concat_self
      cases phase with
      | returned allowed => exact underway.elim
      | _ => cases ended
    | command index member =>
      obtain ⟨next, phase, moved, rfl⟩ := step_command Served.calls_ended taken
      exact underway.command timed known started passed moved

/-- A run whose calls do not overlap has served one after the other. -/
theorem exists_reached (run : Run State.system Sequential events state) :
    ∃ requests, Timed requests ∧ Reached requests state := by
  induction run with
  | start =>
    refine ⟨[], ⟨?_, .nil, ?_⟩, .idle ?_ le_rfl⟩
    all_goals
      intro request known
      cases known
  | step earlier permitted taken ih =>
    obtain ⟨requests, timed, reached⟩ := ih
    exact reached.step timed permitted taken

/-- When its calls have ended, it is what the limiter does as a function. -/
theorem exists_serve (run : Run State.system Sequential events state)
    (ended : ∀ call ∈ state.calls, call.ended = true) : ∃ requests, Timed requests ∧
      state.redis = (serve requests).redis ∧ state.calls = (serve requests).calls := by
  obtain ⟨requests, timed, reached⟩ := exists_reached run
  cases reached with
  | idle => exact ⟨requests, timed, rfl, rfl⟩
  | @busy _ _ _ _ phase _ _ _ underway =>
    have last := ended _ List.mem_concat_self
    cases phase with
    | returned allowed => exact underway.elim
    | _ => cases last

/-- The limiter, in a run of the concurrent system whose calls do not overlap. -/
theorem limiter_matches_reference_iff (sequence : Sequence requests) :
    (∃ clock, Run State.system Sequential (timetable ⟨fun _ => none, []⟩ 0 requests)
      ⟨clock, (serve requests).redis, (serve requests).calls⟩) ∧
    (MatchesReference requests ↔ Prompt requests) :=
  ⟨exists_run_serve sequence.toTimed, matches_reference sequence⟩

end Runs

/-- A login request, some seconds after the start, whose commands take some time to reach Redis. -/
def loginRequest (now late : Seconds) (member : Uuid) : Request :=
  ⟨⟨"otp:login:cooldown:ann@example.com", 1, 30⟩,
    ⟨now, now + late, now + late, now + late, now + late, member⟩⟩

/-- The second call is inside the window of the first, the third is not. -/
def inTime : List Request := [loginRequest 0 0 1, loginRequest 29 (1 / 2) 2, loginRequest 30 0 3]

theorem limiter_matches_reference_in_time :
    (∃ clock, Run State.system Sequential (timetable ⟨fun _ => none, []⟩ 0 inTime)
      ⟨clock, (serve inTime).redis, (serve inTime).calls⟩) ∧
    (MatchesReference inTime ↔ Prompt inTime) :=
  limiter_matches_reference_iff ⟨⟨by decide +kernel, by decide +kernel, by decide +kernel⟩,
    by decide +kernel, by decide +kernel, by decide +kernel⟩

/-- The second call reads the clock when the first is still inside its window, and reaches Redis
when the key has expired. -/
def tooLate : List Request := [loginRequest 0 0 1, loginRequest (299 / 10) (1 / 5) 2]

theorem late_call_permitted : Sequence tooLate ∧ ¬ MatchesReference tooLate := by
  refine ⟨⟨⟨by decide +kernel, by decide +kernel, by decide +kernel⟩,
    by decide +kernel, by decide +kernel, by decide +kernel⟩, ?_⟩
  intro agrees
  have same := congrArg (List.map Prod.snd) agrees.answers
  exact absurd same (by decide +kernel)

end Relays.RateLimiting
