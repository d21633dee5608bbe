import Relays.Auth.Footprint
import Relays.Library.Processes

/-! The account system as a whole: whatever the interleaving, the tables are sound and every
call owns exactly the versions it has written. -/

namespace Relays.Auth

open ReadCommitted Transition

theorem Request.start_writes (config : Config) (clock : Time) (request : Request) :
    (request.start config clock).writes = {} := by
  cases request with
  | requestRegistrationOtp email permitted => cases permitted <;> rfl
  | createAccount registrationToken name workspaceName =>
    simp only [start, Call.writes, CreateAccount.start]
    split
    · rfl
    · split <;> rfl
  | requestLoginOtp email permitted => cases permitted <;> rfl
  | verifyRegistrationOtp | authenticateAccount | refreshAccessToken | logout => rfl

theorem Call.fail_writes (call : Call) : call.fail.writes = {} := by cases call <;> rfl

namespace State

/-- What the call of this index has written; a call that has not arrived has written nothing. -/
def writes (state : State) (index : Nat) : Writes := (state.calls[index]?).elim {} Call.writes

/-- The steps of the system. -/
inductive Moves (config : Config) (state : State) : Event → State → Prop where
  | tick : Moves config state (.tick elapsed)
      { state with world.clock := state.world.clock + elapsed }
  | arrive : Moves config state (.arrive request)
      { state with calls := state.calls ++ [request.start config state.world.clock] }
  | call (found : state.calls[index]? = some call)
      (taken : call.step config index state.world draw = some (next, last)) :
      Moves config state (.call index draw) ⟨next, state.calls.set index last⟩
  | abort (found : state.calls[index]? = some call) (running : call.outcome = none) :
      Moves config state (.abort index) ⟨state.world.rollback index,
        state.calls.set index call.fail⟩

variable {config : Config} {state after : State} {event : Event} {index : Nat} {call : Call}

theorem step_moves (taken : step config state event = some after) :
    Moves config state event after := by
  cases event with
  | tick elapsed =>
    cases taken
    exact .tick
  | arrive request =>
    cases taken
    exact .arrive
  | call index draw =>
    simp only [step] at taken
    split at taken
    · cases taken
    · rename_i found
      split at taken
      · cases taken
      · rename_i moved
        cases taken
        exact .call found moved
  | abort index =>
    simp only [step] at taken
    split at taken
    · cases taken
    · rename_i found
      split at taken
      · cases taken
      · rename_i running
        cases taken
        exact .abort found (by simpa using running)

/-- A call after a step is as it was, has just arrived, has taken the step or has been aborted. -/
theorem Moves.call_cases (moves : Moves config state event after)
    (found : after.calls[index]? = some call) :
    state.calls[index]? = some call ∨
      (∃ request, event = .arrive request ∧ index = state.calls.length ∧
        call = request.start config state.world.clock) ∨
      (∃ current draw, event = .call index draw ∧ state.calls[index]? = some current ∧
        current.step config index state.world draw = some (after.world, call)) ∨
      ∃ current, event = .abort index ∧ state.calls[index]? = some current ∧
        call = current.fail := by
  cases moves with
  | tick => exact .inl found
  | arrive =>
    rcases Processes.append_cases found with ⟨place, rfl⟩ | earlier
    · exact .inr (.inl ⟨_, rfl, place, rfl⟩)
    · exact .inl earlier
  | call entry taken =>
    rcases Processes.set_cases found with ⟨rfl, rfl⟩ | ⟨_, earlier⟩
    · exact .inr (.inr (.inl ⟨_, _, rfl, entry, taken⟩))
    · exact .inl earlier
  | abort entry running =>
    rcases Processes.set_cases found with ⟨rfl, rfl⟩ | ⟨_, earlier⟩
    · exact .inr (.inr (.inr ⟨_, rfl, entry, rfl⟩))
    · exact .inl earlier

structure Sound (state : State) : Prop where
  world : state.world.Sound
  owned : ∀ index, state.world.Owned index (state.writes index)

theorem Sound.owned_call (sound : state.Sound) (found : state.calls[index]? = some call) :
    state.world.Owned index call.writes := by
  simpa [writes, found] using sound.owned index

theorem arrive_writes (state : State) (request : Request) (index : Nat) :
    writes { state with calls := state.calls ++ [request.start config state.world.clock] } index =
      state.writes index :=
  Processes.elim_concat (Request.start_writes config state.world.clock request)

/-- Every step is a statement of one transaction, or its end. -/
theorem Moves.world_moves (moves : Moves config state event after) (sound : state.Sound) :
    ∃ acting, state.world.Moves acting (state.writes acting) (after.writes acting) after.world ∧
      ∀ other, other ≠ acting → after.writes other = state.writes other := by
  cases moves with
  | tick => exact ⟨0, { World.Moves.stay 0 (state.writes 0) state.world with }, fun _ _ => rfl⟩
  | arrive =>
    refine ⟨0, ?_, fun other _ => arrive_writes state _ other⟩
    rw [arrive_writes]
    exact .stay _ _ _
  | @call index call _ _ _ found taken =>
    refine ⟨index, ?_, fun other different => by simp only [writes, Processes.set_other different]⟩
    have moves := Call.step_moves sound.world taken
    simpa [writes, found, Processes.set_self found] using moves
  | @abort index call found running =>
    refine ⟨index, ?_, fun other different => by simp only [writes, Processes.set_other different]⟩
    have moves := World.Moves.rollback index call.writes state.world
    simpa [writes, found, Processes.set_self found, Call.fail_writes] using moves

theorem Moves.sound (moves : Moves config state event after)
    (sound : state.Sound) : after.Sound := by
  obtain ⟨acting, moved, others⟩ := moves.world_moves sound
  refine ⟨moved.sound sound.world (sound.owned acting), ?_⟩
  intro index
  by_cases own : index = acting
  · subst own
    exact moved.owned sound.world (sound.owned index)
  · rw [others index own]
    exact moved.owned_other sound.world own (sound.owned index)

theorem init_sound : init.Sound := ⟨World.empty_sound, fun index => World.empty_owned index⟩

variable {allowed : State → Event → Prop} {events : List Event}

/-- Every state of every run is sound. -/
theorem run_sound (run : Run (system config) allowed events state) : state.Sound :=
  run.invariant init_sound fun _ _ _ _ _ sound _ taken => (step_moves taken).sound sound

end State

end Relays.Auth
