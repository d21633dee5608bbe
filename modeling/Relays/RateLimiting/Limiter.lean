import Relays.Library.Processes
import Relays.Library.Transition
import Relays.RateLimiting.Redis

/-! `sliding_window_limiter`, one Redis command after another, in any number of concurrent calls. -/

namespace Relays.RateLimiting

open Redis

structure Arguments where
  key : String
  limit : Nat
  windowSeconds : Nat
  deriving DecidableEq

/-- The next command of a call, or its answer. -/
inductive Phase where
  | pruning
  | counting
  | adding
  | expiring
  | returned (allowed : Bool)
  deriving DecidableEq

/-- A call with its reading of the clock. -/
structure Call where
  arguments : Arguments
  now : Seconds
  phase : Phase

namespace Call

def windowStart (call : Call) : Seconds := call.now - call.arguments.windowSeconds

def step (clock : Seconds) (redis : Database) (member : Uuid)
    (call : Call) : Option (Database × Phase) :=
  let key := call.arguments.key
  match call.phase with
  | .pruning => some (zremrangebyscore redis clock key call.windowStart, .counting)
  | .counting =>
    let requestCount := zcount redis clock key call.windowStart
    if call.arguments.limit ≤ requestCount then some (redis, .returned false)
      else some (redis, .adding)
  | .adding => some (zadd redis clock key member call.now, .expiring)
  | .expiring => some (expire redis clock key call.arguments.windowSeconds, .returned true)
  | .returned _ => none

/-- The count has let the call pass. -/
def passed (call : Call) : Bool :=
  match call.phase with
  | .adding | .expiring | .returned true => true
  | .pruning | .counting | .returned false => false

def allowed (call : Call) : Bool := call.phase = .returned true

theorem passed_of_allowed {call : Call} (allowed : call.allowed = true) : call.passed = true := by
  have returned : call.phase = .returned true := by simpa [Call.allowed] using allowed
  simp [passed, returned]

end Call

structure State where
  clock : Seconds
  redis : Database
  calls : List Call

namespace State

inductive Event where
  | tick (elapsed : Seconds)
  | call (arguments : Arguments)
  | command (index : Nat) (member : Uuid)

def init : State := ⟨0, fun _ => none, []⟩

def step (state : State) : Event → Option State
  | .tick elapsed => if elapsed < 0 then none
    else some { state with clock := state.clock + elapsed }
  | .call arguments => some
    { state with calls := state.calls ++ [⟨arguments, state.clock, .pruning⟩] }
  | .command index member =>
    match state.calls[index]? with
    | none => none
    | some call =>
      match call.step state.clock state.redis member with
      | none => none
      | some (redis, phase) => some
        { state with redis, calls := state.calls.set index { call with phase } }

def system : Transition.System State Event := ⟨init, step⟩

end State

end Relays.RateLimiting
