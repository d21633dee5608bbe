import Relays.Auth.RetiredTokens

/-! Refresh tokens are single-use as long as no two refreshes race: the UPDATE picks the session
by its id, so it also rotates a session whose token has changed since it was looked up. -/

namespace Relays.Auth

open ReadCommitted Transition

/-- The step with which a refresh call that presents this token returns tokens. -/
structure Accepts (config : Config) (events front : List State.Event) (before : State)
    (token : String) (call : Call)
    (after : State) : Prop where
  answers : ∃ index draw accessToken refreshToken,
    Takes (State.system config) events front before (.call index draw) after ∧
    before.calls[index]? = some call ∧
    after.calls[index]? = some
      (.refreshAccessToken token (.ended (.tokens accessToken refreshToken)))

/-- A rotation away from the token is committed: the session had it and has another one. -/
structure RotatesAway (config : Config) (before after : State) (token : String)
    (id : Uuid) : Prop where
  old : ∃ row, before.world.sessions.row id = some row ∧ State.Holds config row token
  new : ∃ row, after.world.sessions.row id = some row ∧ ¬ State.Holds config row token

structure SingleUse (config : Config) (events : List State.Event) : Prop where
  once : ∀ token front before call after later start another finish,
    Accepts config events front before token call after →
    Accepts config events later start token another finish → front = later
  final : ∀ token id front before event after later start call finish,
    Takes (State.system config) events front before event after →
      RotatesAway config before after token id →
    Accepts config events later start token call finish → later.length ≤ front.length

/-- Whenever a refresh call commits, its session still has the token that the call presents. -/
def Unraced (config : Config) (events : List State.Event) : Prop :=
  ∀ token id front before call after, Accepts config events front before token call after →
    call.session = some id → ∃ row, before.world.sessions.row id = some row ∧
      State.Holds config row token

section Steps

variable {config : Config} {events front : List State.Event} {before after state : State}
    {event : State.Event}
variable {token : String} {call : Call} {id : Uuid} {session : StoredSession}

/-- The call that accepts a token has rotated the session it has found, and commits. -/
theorem Accepts.rotated (accepts : Accepts config events front before token call after) :
    ∃ index draw id session result fresh,
      Takes (State.system config) events front before (.call index draw) after ∧
      before.calls[index]? = some call ∧
        call = .refreshAccessToken token (.rotated id session result fresh) ∧
      after.world = before.world.commit index := by
  obtain ⟨index, draw, _, _, takes, found, answered⟩ := accepts.answers
  have moves : State.Moves config before (.call index draw) after := State.step_moves takes.taken
  cases moves with
  | @call _ current _ _ _ found' taken =>
    obtain rfl := Option.some.inj (found'.symm.trans found)
    obtain rfl := Option.some.inj ((Processes.set_self found).symm.trans answered)
    cases current with
    | refreshAccessToken presented phase =>
      obtain ⟨last, moved, shape⟩ := Processes.mapped_eq_some.mp taken
      cases shape
      cases phase with
      | rotated id session result fresh =>
        cases moved
        exact ⟨index, draw, id, session, result, _, takes, found, rfl, rfl⟩
      | _ =>
        simp only [RefreshAccessToken.step] at moved
        try split at moved
        all_goals cases moved
    | _ =>
      obtain ⟨_, _, shape⟩ := Processes.mapped_eq_some.mp taken
      cases shape

/-- The session that a call has found still has the token, or has been rotated away from it. -/
def Tracked (config : Config) (events : List State.Event) (state : State) (token : String)
    (id : Uuid) : Prop :=
  ∃ row, state.world.sessions.row id = some row ∧
    (State.Holds config row token ∨ ∃ front before event after,
      Takes (State.system config) events front before event after ∧
        RotatesAway config before after token id)

theorem Tracked.step (tracked : Tracked config events before token id)
    (run : Run (State.system config) Any events before)
    (taken : (State.system config).step before event = some after) :
    Tracked config (events ++ [event]) after token id := by
  obtain ⟨row, present, state⟩ := tracked
  have moves : State.Moves config before event after := State.step_moves taken
  have kept (result) (stored : after.world.sessions.row id = some result)
      (same : State.Holds config row token → State.Holds config result token) :
      Tracked config (events ++ [event]) after token id := by
    refine ⟨result, stored, ?_⟩
    rcases state with holds | ⟨front, start, act, finish, takes, away⟩
    · exact .inl (same holds)
    · exact .inr ⟨front, start, act, finish, takes.extend _, away⟩
  rcases moves.session_cases (State.run_sound run) id with same
    | ⟨_, _, _, result, _, _, _, stored, _⟩
  · exact kept row (same.trans present) fun holds => holds
  · by_cases holds : State.Holds config result token
    · exact kept result stored fun _ => holds
    · rcases state with held | ⟨front, start, act, finish, takes, away⟩
      · exact ⟨result, stored, .inr ⟨events, before, event, after, .last run taken,
          ⟨⟨row, present, held⟩, ⟨result, stored, holds⟩⟩⟩⟩
      · exact ⟨result, stored, .inr ⟨front, start, act, finish, takes.extend _, away⟩⟩

/-- From the look-up of a session on, it has the token or has been rotated away from it. -/
theorem run_tracked {index : Nat} (run : Run (State.system config) Any events state)
    (found : state.calls[index]? = some call) (looks : call.looked = some (token, id, session)) :
    Tracked config events state token id := by
  induction run generalizing call with
  | start => simp [State.system, State.init] at found
  | @step events before event after earlier permitted taken ih =>
    have moves : State.Moves config before event after := State.step_moves taken
    rcases moves.call_cases found with same | ⟨request, _, _, rfl⟩
      | ⟨current, draw, _, entry, moved⟩ |
      ⟨current, _, _, rfl⟩
    · exact (ih same looks).step earlier taken
    · cases request <;> cases looks
    · rcases Call.step_looked moved looks with earlier' | ⟨nothing, hit⟩
      · exact (ih entry earlier').step earlier taken
      · obtain ⟨seen, holds, _⟩ := getSessionByRefreshTokenHash_some hit
        have owned := (State.run_sound earlier).owned_call entry
        rw [nothing] at owned
        rw [Relation.view_of_unwritten owned.sessions] at seen
        exact Tracked.step ⟨session, seen, .inl holds⟩ earlier taken
    · cases current <;> cases looks

theorem RotatesAway.retired (rotates : RotatesAway config before after token id)
    (collisionFree : Function.Injective config.sha512)
    (moves : State.Moves config before event after)
    (sound : before.Sound) (hashed : State.Hashed config before) :
      State.Retired config after token := by
  obtain ⟨old, present, held⟩ := rotates.old
  obtain ⟨new, present', gone⟩ := rotates.new
  rcases moves.session_cases sound id with same
    | ⟨index, _, call, result, rfl, found, member, stored, committed⟩
  · obtain rfl := Option.some.inj (present'.symm.trans (same.trans present))
    exact absurd held gone
  · have locked := ((sound.owned_call found).sessions id _).mpr member
    constructor
    · obtain ⟨issued, member, holds⟩ := hashed.committed id old present
      obtain rfl : issued = token := collisionFree (holds.symm.trans held)
      exact moves.issuedTokens sound member
    · intro other row there holds
      by_cases own : other = id
      · subst own
        obtain rfl := Option.some.inj (present'.symm.trans there)
        exact gone holds
      · rcases moves.session_cases sound other with same | ⟨_, _, _, _, acting, found', member', _⟩
        · have apart := sound.world.sessions.distinct other id row old own
            (same.symm.trans there) present
          simp [Session.clash, holds.trans held.symm] at apart
        · cases acting
          obtain rfl := Option.some.inj (found'.symm.trans found)
          exact own (Call.writes_sessions member' member)
    · intro other owner row pending holds
      rw [committed] at pending
      have another : owner ≠ index := by
        rintro rfl
        exact Table.commit_unowned before.world.sessions.cells ⟨_, pending⟩
      obtain ⟨pending, _⟩ := Table.pending_of_commit pending
      by_cases own : other = id
      · subst own
        exact another (Prod.mk.inj (Option.some.inj (pending.symm.trans locked))).1
      · have clashes : Session.clash old row = true := by
          simp [Session.clash, held.trans holds.symm]
        obtain ⟨_, replacing⟩ := sound.world.sessions.replaced id other owner old row
          (Ne.symm own) present pending clashes
        exact another (Prod.mk.inj (Option.some.inj (replacing.symm.trans locked))).1

/-- An unraced refresh rotates its session away from the token that it accepts. -/
theorem Accepts.rotatesAway (accepts : Accepts config events front before token call after)
    (collisionFree : Function.Injective config.sha512)
    (run : Run (State.system config) FreshToken events state)
    (unraced : Unraced config events) : ∃ id, RotatesAway config before after token id := by
  obtain ⟨index, draw, id, session, result, fresh, takes, found, rfl, committed⟩ := accepts.rotated
  obtain ⟨row, present, holds⟩ := unraced token id front before _ after accepts rfl
  have unequal := State.run_rotated collisionFree (takes.permitted run).1 found present
  have held := (((State.run_sound takes.reached).owned_call found).sessions id (some result)).mpr
    (List.mem_singleton.mpr rfl)
  refine ⟨id, ⟨row, present, holds⟩, result, ?_, fun same => unequal (same.trans holds.symm)⟩
  rw [committed]
  exact congrArg Cell.committed (Table.commit_of_pending held)

end Steps

/-- An accepted token whose session has been rotated away from it belongs to a refresh that has
been overtaken. -/
theorem single_use_iff {config : Config} {events : List State.Event} {state : State}
    (collisionFree : Function.Injective config.sha512)
    (run : Run (State.system config) FreshToken events state) :
    SingleUse config events ↔ Unraced config events := by
  constructor
  · intro single token id front before call after accepts names
    obtain ⟨index, draw, found, session, result, fresh, takes, current, rfl, _⟩ := accepts.rotated
    obtain rfl := Option.some.inj names
    obtain ⟨row, present, holds | ⟨earlier, start, event, finish, rotation, away⟩⟩ :=
      run_tracked takes.reached current rfl
    · exact ⟨row, present, holds⟩
    · obtain ⟨back, split⟩ := takes.split
      have within : Takes (State.system config) events earlier start event finish :=
        split ▸ rotation.extend _
      have late := single.final token found earlier start event finish front before _ after within
        away accepts
      exact absurd rotation.length_lt (Nat.not_lt.mpr late)
  · intro unraced
    have final : ∀ token id front before event after later start call finish,
        Takes (State.system config) events front before event after →
          RotatesAway config before after token id →
        Accepts config events later start token call finish → later.length ≤ front.length := by
      intro token id front before event after later start call finish takes away accepts
      by_contra beyond
      obtain ⟨index, draw, other, session, result, fresh, takes', found, rfl, _⟩ := accepts.rotated
      have retired := away.retired collisionFree (State.step_moves takes.taken)
        (State.run_sound takes.reached)
        (State.run_hashed takes.reached)
      have inner := takes.within takes' (Nat.lt_of_not_le beyond)
      obtain ⟨back, split⟩ := inner.split
      have still := State.run_retired collisionFree (takes'.permitted run).1
        (show later = (front ++ [event]) ++ back by simp [split]) takes.run retired
      obtain ⟨row, present, holds⟩ := unraced token other later start _ finish accepts rfl
      exact still.committed other row present holds
    refine ⟨?_, final⟩
    intro token front before call after later start another finish first second
    obtain ⟨_, _, _, _, _, _, takes, _⟩ := first.rotated
    obtain ⟨_, _, _, _, _, _, takes', _⟩ := second.rotated
    obtain ⟨id, away⟩ := first.rotatesAway collisionFree run unraced
    obtain ⟨other, away'⟩ := second.rotatesAway collisionFree run unraced
    have before' := final token id front before _ after later start another finish takes away second
    have after' := final token other later start _ finish front before call after takes' away' first
    exact (takes.unique takes' (Nat.le_antisymm after' before')).1

/-- Calls 1 and 2 present the same token and both find the session before either rotates it. -/
def races : List State.Event :=
  registers ++ [.arrive (.refreshAccessToken "first"), .arrive (.refreshAccessToken "first")] ++
    calls 1 [⟨0, ""⟩, ⟨0, ""⟩, ⟨0, ""⟩] ++ calls 2 [⟨0, ""⟩, ⟨0, ""⟩, ⟨0, ""⟩]

/-- The rotation of call 1 is committed before that of call 2 is attempted. -/
def overtakes : List State.Event :=
  races ++ calls 1 [⟨0, "second"⟩, ⟨0, ""⟩] ++ calls 2 [⟨0, "third"⟩, ⟨0, ""⟩]

theorem single_use_iff_overtakes :
    ∃ state, Run (State.system sampleConfig) FreshToken overtakes state ∧
    (SingleUse sampleConfig overtakes ↔ Unraced sampleConfig overtakes) := by
  obtain ⟨state, run, _⟩ := Run.exists_of_execute (State.system sampleConfig) FreshToken overtakes
    (fun _ => true) (by decide)
  exact ⟨state, run, single_use_iff Function.injective_id run⟩

/-- The call has returned tokens for this one. -/
private def answered (index : Nat) (token : String) (state : State) : Bool :=
  match (state.calls[index]? : Option Call) with
  | some (.refreshAccessToken presented (.ended (.tokens _ _))) => presented = token
  | _ => false

private theorem accepts_of_answered {config : Config} {front : List State.Event} {after : State}
    {index : Nat}
    {draw : Draw} {token : String} (back : List State.Event)
    (reached : Run (State.system config) Any (front ++ [.call index draw]) after)
    (done : answered index token after = true) :
    ∃ before call, Accepts config (front ++ .call index draw :: back) front before token call
      after := by
  obtain ⟨before, finish, earlier, _, taken⟩ :=
    reached.taken_at (show front ++ [.call index draw] = front ++ .call index draw :: [] from rfl)
  obtain rfl := (earlier.step trivial taken).unique reached
  cases State.step_moves (show State.step config before (.call index draw) = _ from taken) with
  | call found _ =>
    unfold answered at done
    split at done
    · rename_i entry
      obtain rfl := of_decide_eq_true done
      exact ⟨before, _, ⟨index, draw, _, _, ⟨⟨back, rfl⟩, earlier, taken⟩, found, entry⟩⟩
    · cases done

theorem refreshes_race : ∃ state, Run (State.system sampleConfig) FreshToken overtakes state ∧
    ¬ SingleUse sampleConfig overtakes := by
  obtain ⟨state, run, _⟩ := Run.exists_of_execute (State.system sampleConfig) FreshToken overtakes
    (fun _ => true) (by decide)
  obtain ⟨middle, first, done⟩ := Run.exists_of_execute (State.system sampleConfig) Any
    (races ++ calls 1 [⟨0, "second"⟩] ++ [.call 1 ⟨0, ""⟩]) (answered 1 "first") (by decide)
  obtain ⟨finish, second, done'⟩ := Run.exists_of_execute (State.system sampleConfig) Any
    (races ++ calls 1 [⟨0, "second"⟩, ⟨0, ""⟩] ++ calls 2 [⟨0, "third"⟩] ++ [.call 2 ⟨0, ""⟩])
      (answered 2 "first")
    (by decide)
  refine ⟨state, run, ?_⟩
  intro single
  obtain ⟨_, _, accepts⟩ := accepts_of_answered (calls 2 [⟨0, "third"⟩, ⟨0, ""⟩]) first done
  obtain ⟨_, _, again⟩ := accepts_of_answered [] second done'
  have same := single.once "first" _ _ _ _ _ _ _ _ accepts again
  exact absurd (congrArg List.length same) (by decide)

end Relays.Auth
