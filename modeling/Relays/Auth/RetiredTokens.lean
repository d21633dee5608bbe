import Relays.Auth.SessionRows

/-! Which refresh tokens the sessions hold, when the generated ones are distinct: a token that has
been rotated away from is the token of no session, committed or not, ever after. -/

namespace Relays.Auth

open ReadCommitted Transition

/-- A refresh token that a call generates has not been generated before. -/
def FreshToken (before : State) : State.Event → Prop
  | .call index draw =>
    (before.calls[index]?).any Call.generates = true → draw.secret ∉ before.world.issuedTokens
  | .tick _ | .arrive _ | .abort _ => True

instance (before : State) (event : State.Event) : Decidable (FreshToken before event) :=
  match event with
  | .call index draw =>
    inferInstanceAs (Decidable ((before.calls[index]?).any Call.generates = true →
      draw.secret ∉ before.world.issuedTokens))
  | .tick _ | .arrive _ | .abort _ => inferInstanceAs (Decidable True)

namespace State

variable {config : Config} {state after : State} {event : Event} {events front back : List Event}
variable {id : Uuid} {token : String} {index owner : Nat}

/-- The session has the hash of this token. -/
def Holds (config : Config) (session : StoredSession) (token : String) : Prop :=
  session.val.refreshTokenHash = hashRefreshToken config token

/-- Every session has the hash of a token that has been issued. -/
structure Hashed (config : Config) (state : State) : Prop where
  committed : ∀ id row, state.world.sessions.row id = some row →
    ∃ token ∈ state.world.issuedTokens, Holds config row token
  pending : ∀ id owner row, (state.world.sessions.cells id).pending = some (owner, some row) →
    ∃ token ∈ state.world.issuedTokens, Holds config row token

theorem Moves.issuedTokens (moves : Moves config state event after) (sound : state.Sound) :
    state.world.issuedTokens ⊆ after.world.issuedTokens := by
  obtain ⟨_, moved, _⟩ := moves.world_moves sound
  exact moved.issuedTokens

/-- A committed session was committed before, or has been written by the call that commits it. -/
theorem Moves.session_row_origin (moves : Moves config state event after) (sound : state.Sound)
    {row : StoredSession} (present : after.world.sessions.row id = some row) :
    state.world.sessions.row id = some row ∨
      ∃ owner, (state.world.sessions.cells id).pending = some (owner, some row) := by
  rcases moves.session_cases sound id with same
    | ⟨index, _, call, result, _, found, member, stored, _⟩
  · exact .inl (same ▸ present)
  · obtain rfl := Option.some.inj (stored.symm.trans present)
    exact .inr ⟨index, ((sound.owned_call found).sessions id _).mpr member⟩

theorem Moves.hashed (moves : Moves config state event after) (sound : state.Sound)
    (hashed : Hashed config state) : Hashed config after where
  committed id row present := by
    rcases moves.session_row_origin sound present with there | ⟨owner, held⟩
    · obtain ⟨token, issued, holds⟩ := hashed.committed id row there
      exact ⟨token, moves.issuedTokens sound issued, holds⟩
    · obtain ⟨token, issued, holds⟩ := hashed.pending id owner row held
      exact ⟨token, moves.issuedTokens sound issued, holds⟩
  pending id owner row held := by
    rcases moves.session_pending_cases sound held with
      there | ⟨draw, _, _, _, _, holds, issued⟩ | ⟨stored, present, same⟩
    · obtain ⟨token, issued, holds⟩ := hashed.pending id owner row there
      exact ⟨token, moves.issuedTokens sound issued, holds⟩
    · exact ⟨draw.secret, by simp [issued], holds⟩
    · obtain ⟨token, issued, holds⟩ := hashed.committed id stored present
      exact ⟨token, moves.issuedTokens sound issued, same.trans holds⟩

theorem run_hashed {allowed : State → Event → Prop}
    (run : Run (system config) allowed events state) :
    Hashed config state := by
  apply run.invariant
  · constructor <;> simp [system, init, World.empty, Relation.empty, Relation.row, Table.empty]
  · intro events before event after earlier hashed _ taken
    exact (step_moves taken).hashed (run_sound earlier) hashed

/-- A token that has been issued and is the token of no session any more. -/
structure Retired (config : Config) (state : State) (token : String) : Prop where
  issued : token ∈ state.world.issuedTokens
  committed : ∀ id row, state.world.sessions.row id = some row → ¬ Holds config row token
  pending : ∀ id owner row, (state.world.sessions.cells id).pending = some (owner, some row) →
    ¬ Holds config row token

variable (collisionFree : Function.Injective config.sha512)

include collisionFree in
theorem Moves.retired (moves : Moves config state event after) (sound : state.Sound)
    (fresh : FreshToken state event)
    (retired : Retired config state token) : Retired config after token where
  issued := moves.issuedTokens sound retired.issued
  committed id row present := by
    rcases moves.session_row_origin sound present with there | ⟨owner, held⟩
    · exact retired.committed id row there
    · exact retired.pending id owner row held
  pending id owner row held := by
    intro holds
    rcases moves.session_pending_cases sound held with
      there | ⟨draw, call, rfl, found, generates, drawn, _⟩ | ⟨stored, present, same⟩
    · exact retired.pending id owner row there holds
    · have same : draw.secret = token := collisionFree (drawn.symm.trans holds)
      exact fresh (by simp [found, generates]) (same ▸ retired.issued)
    · exact retired.committed id stored present (same.symm.trans holds)

include collisionFree in
theorem run_retired {middle : State} (run : Run (system config) FreshToken events state)
    (split : events = front ++ back) (reached : Run (system config) Any front middle)
    (retired : Retired config middle token) : Retired config state token := by
  apply run.keeps split reached retired
  intro earlier before event after ran held fresh taken
  exact (step_moves taken).retired collisionFree (run_sound ran) fresh held

/-- A rotation that is about to commit gives its session another token. -/
theorem run_rotated {presented fresh : String} {session result row : StoredSession}
    (collisionFree : Function.Injective config.sha512)
    (run : Run (system config) FreshToken events state)
    (found : state.calls[index]? =
      some (.refreshAccessToken presented (.rotated id session result fresh)))
    (present : state.world.sessions.row id = some row) :
    result.val.refreshTokenHash ≠ row.val.refreshTokenHash := by
  induction run with
  | start => simp [system, init] at found
  | @step events before event after earlier permitted taken ih =>
    have moves : Moves config before event after := step_moves taken
    rcases moves.call_cases found with same | ⟨request, _, _, started⟩
      | ⟨current, draw, rfl, entry, moved⟩ |
      ⟨current, _, _, failed⟩
    · have locked := moves.session_locked (run_sound earlier) same found
        (List.mem_singleton.mpr rfl)
      exact ih same (locked.symm.trans present)
    · cases request <;> cases started
    · cases current with
      | refreshAccessToken =>
        obtain ⟨last, rotates, shape⟩ := Processes.mapped_eq_some.mp moved
        cases shape
        obtain ⟨rfl, rfl, done, _⟩ := RefreshAccessToken.step_rotated rotates
        obtain ⟨stored, _, _, _, written, _, kept⟩ := rotateSessionRefreshToken_returns done
        rw [kept] at present
        have there : before.world.sessions.row id = some row :=
          (Table.write_committed before.world.sessions.cells _ id).symm.trans present
        obtain ⟨token, issued, holds⟩ := (run_hashed earlier).committed id row there
        intro same
        have drawn : draw.secret = token :=
          collisionFree (by rw [written] at same; exact same.trans holds)
        exact permitted (by simp [entry, Call.generates]) (drawn ▸ issued)
      | _ =>
        obtain ⟨_, _, shape⟩ := Processes.mapped_eq_some.mp moved
        cases shape
    · cases current <;> cases failed

end State

end Relays.Auth
