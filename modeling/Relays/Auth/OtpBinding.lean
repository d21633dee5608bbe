import Relays.Auth.OtpRecords

/-! One-time passwords are single-use and bound to their value as long as none is replaced under a
verification: the consuming UPDATE picks its row by the owner alone, so it also consumes a code that
has taken the place of the one compared. -/

namespace Relays.Auth

open ReadCommitted Transition

namespace Flow

variable {Owner : Type} [DecidableEq Owner]

/-- A code that is stored has not been issued to its owner before. -/
def DrawsNew (flow : Flow Owner) (before : State) (index : Nat) (draw : Draw) : Prop :=
  ∀ owner ∈ (before.calls[index]?).bind flow.stores, ∀ issued ∈ flow.issued before.world,
    issued.owner = owner → issued.code ≠ draw.secret

instance (flow : Flow Owner) (before : State) (index : Nat)
    (draw : Draw) : Decidable (flow.DrawsNew before index draw) :=
  inferInstanceAs (Decidable (∀ owner ∈ (before.calls[index]?).bind flow.stores,
    ∀ issued ∈ flow.issued before.world,
    issued.owner = owner → issued.code ≠ draw.secret))

/-- The step with which a verification that presents this code succeeds. -/
structure Succeeds (flow : Flow Owner) (config : Config) (events front : List State.Event)
    (before : State)
    (code : String) (call : Call) (after : State) : Prop where
  answers : ∃ index draw last,
    Takes (State.system config) events front before (.call index draw) after ∧
    before.calls[index]? = some call ∧ after.calls[index]? = some last ∧
      flow.succeeded last = some code

/-- What a run with these events guarantees of the codes of a flow. -/
structure Bound (flow : Flow Owner) (config : Config) (events : List State.Event) : Prop where
  once : ∀ id front before code call after later start another other finish,
    flow.Succeeds config events front before code call after →
    flow.Succeeds config events later start another other finish →
    (flow.consumed call).map Prod.fst = some id → (flow.consumed other).map Prod.fst = some id →
      front = later
  hash : ∀ front before code call after, flow.Succeeds config events front before code call after →
    ∃ id row result time, flow.consumed call = some (id, result) ∧
      (flow.table before.world).row id = some row ∧ row.val.consumedAt = none ∧
      row.val.otpHash = hashOtp config code ∧ (flow.table after.world).row id = some result ∧
      result.val = { row.val with consumedAt := some time }
  replaced : ∀ front before code call after id result issued,
    flow.Succeeds config events front before code call after →
      flow.consumed call = some (id, result) →
    issued ∈ flow.issued before.world → issued.owner = result.val.owner → issued.code = code →
      issued.id = id

/-- Whenever a verification succeeds, the row that it has compared is still in the table. -/
def Unreplaced (flow : Flow Owner) (config : Config) (events : List State.Event) : Prop :=
  ∀ front before code call after id otp, flow.Succeeds config events front before code call after →
    flow.looked call = some (id, otp) → ∃ row, (flow.table before.world).row id = some row

variable {flow : Flow Owner} {config : Config} {events front : List State.Event}
    {before after state : State}
variable {code : String} {call : Call}

/-- What a verification that succeeds has compared and consumed. -/
structure Consumption (flow : Flow Owner) (config : Config) (before : State) (code : String)
    (index : Nat) (call : Call)
    (after : State) where
  id : Uuid
  otp : StoredOtp Owner
  target : Uuid
  row : StoredOtp Owner
  result : StoredOtp Owner
  time : Time
  found : before.calls[index]? = some call
  looked : flow.looked call = some (id, otp)
  consumed : flow.consumed call = some (target, result)
  compared : otp.val.otpHash = hashOtp config code
  owner : result.val.owner = otp.val.owner
  present : (flow.table before.world).row target = some row
  unused : row.val.consumedAt = none
  result_val : result.val = { row.val with consumedAt := some time }
  committed : after.world = before.world.commit index

theorem Succeeds.consumption (succeeds : flow.Succeeds config events front before code call after)
    (lawful : flow.Lawful) : ∃ index draw,
      Takes (State.system config) events front before (.call index draw) after ∧
      Nonempty (flow.Consumption config before code index call after) := by
  obtain ⟨index, draw, last, takes, found, ended, succeeded⟩ := succeeds.answers
  refine ⟨index, draw, takes, ?_⟩
  have moves : State.Moves config before (.call index draw) after := State.step_moves takes.taken
  cases moves with
  | call found' taken =>
    obtain rfl := Option.some.inj (found'.symm.trans found)
    obtain rfl := Option.some.inj ((Processes.set_self found).symm.trans ended)
    obtain ⟨id, otp, target, result, looked, consumed, compares, rfl⟩ := lawful.ends taken succeeded
    obtain ⟨compared, owner⟩ := compares (run_checked takes.reached found)
    have sound := State.run_sound takes.reached
    obtain ⟨row, present⟩ := (run_recorded lawful takes.reached).consumed index _ target result
      found consumed
    have held := ((lawful.owned_call sound found) target _).mpr (lawful.written consumed)
    obtain ⟨unused, time, same⟩ :=
      (lawful.sound sound.world).changes target index _ row held present result rfl
    exact ⟨⟨id, otp, target, row, result, time, found, looked, consumed, compared, owner, present,
      unused, same, rfl⟩⟩

theorem Consumption.held {index : Nat}
    (consumption : flow.Consumption config before code index call after)
    (lawful : flow.Lawful) (sound : before.Sound) :
    ((flow.table before.world).cells consumption.target).pending =
      some (index, some consumption.result) :=
  ((lawful.owned_call sound consumption.found) _ _).mpr (lawful.written consumption.consumed)

/-- The row that has been consumed is committed as such. -/
theorem Consumption.row_after {index : Nat}
    (consumption : flow.Consumption config before code index call after)
    (lawful : flow.Lawful) (sound : before.Sound) :
    (flow.table after.world).row consumption.target = some consumption.result := by
  rw [consumption.committed, lawful.commits]
  exact congrArg Cell.committed (Table.commit_of_pending (consumption.held lawful sound))

/-- A row that has been consumed. -/
def Used (row : StoredOtp Owner) : Prop := row.val.consumedAt ≠ none

theorem Consumption.used {index : Nat}
    (consumption : flow.Consumption config before code index call after)
    (lawful : flow.Lawful) (sound : before.Sound) (sound' : after.Sound) :
    (flow.table after.world).Settled consumption.target Used where
  member := by
    apply (lawful.sound sound'.world).member
    intro nothing
    have there := consumption.row_after lawful sound
    simp [Relation.row, nothing] at there
  committed stored there := by
    obtain rfl := Option.some.inj ((consumption.row_after lawful sound).symm.trans there)
    simp [Used, consumption.result_val]
  pending owner version held := by
    rw [consumption.committed, lawful.commits] at held
    obtain ⟨before', _⟩ := Table.pending_of_commit held
    obtain ⟨rfl, _⟩ := Prod.mk.inj
      (Option.some.inj (before'.symm.trans (consumption.held lawful sound)))
    exact absurd ⟨_, held⟩ (Table.commit_unowned (flow.table before.world).cells)

theorem used_kept {id : Uuid} {event : State.Event} (lawful : flow.Lawful)
    (moves : State.Moves config before event after)
    (sound : before.Sound) (used : (flow.table before.world).Settled id Used) :
    (flow.table after.world).Settled id Used := by
  obtain ⟨acting, moved, _⟩ := moves.world_moves sound
  refine (lawful.moves moved).settled (lawful.owned (sound.owned acting)) ?_ used
  intro stored version held changed
  exact absurd (changed version rfl).1 held

/-- A row that one verification has consumed is not consumed by a later one. -/
theorem Consumption.once {index other : Nat} {draw : Draw} {later : List State.Event}
    {start finish : State}
    {event : State.Event} {another : String} {consumer : Call} (lawful : flow.Lawful)
    (takes : Takes (State.system config) events front before (.call index draw) after)
    (consumption : flow.Consumption config before code index call after)
    (again : Takes (State.system config) events later start event finish)
    (second : flow.Consumption config start another other consumer finish)
    (same : second.target = consumption.target) :
    later.length ≤ front.length := by
  by_contra beyond
  have sound := State.run_sound takes.reached
  have inner := takes.within again (Nat.lt_of_not_le beyond)
  obtain ⟨back, split⟩ := inner.split
  have used : (flow.table start.world).Settled consumption.target Used := by
    apply again.reached.keeps (show later = (front ++ [.call index draw]) ++ back by simp [split])
      takes.run
    · exact consumption.used lawful sound (State.run_sound takes.run)
    · intro earlier middle event next ran held _ taken
      exact used_kept lawful (State.step_moves taken) (State.run_sound ran) held
  exact used.committed second.row (same ▸ second.present) second.unused

/-- Two rows of one owner that are both committed are the same. -/
theorem Consumption.same_row {index : Nat} {row : StoredOtp Owner}
    (consumption : flow.Consumption config before code index call after) (lawful : flow.Lawful)
    (sound : before.Sound)
    (recorded : flow.Recorded config before)
    (there : (flow.table before.world).row consumption.id = some row) :
    consumption.id = consumption.target := by
  by_contra apart
  have clashes := (lawful.sound sound.world).distinct _ _ row consumption.row apart there
    consumption.present
  obtain ⟨one, listed, _⟩ := recorded.committed _ row there
  obtain ⟨two, listed', _⟩ := recorded.looked index call _ _ consumption.found consumption.looked
  have owner : row.val.owner = consumption.otp.val.owner :=
    congrArg IssuedOtp.owner (recorded.functional _ listed _ listed' rfl)
  have owner' : consumption.row.val.owner = consumption.otp.val.owner := by
    rw [← consumption.owner, consumption.result_val]
  simp [Otp.clash, owner, owner'] at clashes

/-- The codes of one owner are distinct. -/
theorem run_distinct {allowed : State → State.Event → Prop} (lawful : flow.Lawful)
    (drawsNew : ∀ before index draw, allowed before (.call index draw) →
      flow.DrawsNew before index draw)
    (run : Run (State.system config) allowed events state) :
    ∀ first ∈ flow.issued state.world, ∀ second ∈ flow.issued state.world,
      first.owner = second.owner →
      first.code = second.code → first = second := by
  apply run.invariant
  · intro first one
    rw [show (State.system config).init.world = World.empty from rfl, lawful.empty] at one
    cases one
  · intro earlier before event after ran distinct permitted taken first one second two owner code
    rcases lawful.issued_cases (State.step_moves taken) with
      same | ⟨index, draw, call, storing, rfl, found, stores, _, _, appended⟩
    · rw [same] at one two
      exact distinct first one second two owner code
    · have new := drawsNew before index draw permitted storing (by simp [found, stores])
      rw [appended] at one two
      rcases List.mem_append.mp one with one | one <;> rcases List.mem_append.mp two with two | two
      · exact distinct first one second two owner code
      · rw [List.mem_singleton.mp two] at owner code
        exact absurd code (new first one owner)
      · rw [List.mem_singleton.mp one] at owner code
        exact absurd code.symm (new second two owner.symm)
      · rw [List.mem_singleton.mp one, List.mem_singleton.mp two]

theorem bound_iff {allowed : State → State.Event → Prop} (lawful : flow.Lawful)
    (drawsNew : ∀ before index draw, allowed before (.call index draw) →
      flow.DrawsNew before index draw)
    (collisionFree : Function.Injective config.sha512)
    (run : Run (State.system config) allowed events state) :
    flow.Bound config events ↔ flow.Unreplaced config events := by
  constructor
  · intro bound front before code call after id otp succeeds looks
    obtain ⟨index, draw, takes, ⟨consumption⟩⟩ := succeeds.consumption lawful
    obtain ⟨rfl, rfl⟩ := Prod.mk.inj (Option.some.inj (consumption.looked.symm.trans looks))
    obtain ⟨issued, listed, hashed⟩ :=
      (run_recorded lawful takes.reached).looked index call _ _ consumption.found looks
    obtain rfl : issued = code := collisionFree (hashed.symm.trans consumption.compared)
    have same : consumption.id = consumption.target :=
      bound.replaced front before issued call after _ _ _ succeeds
      consumption.consumed listed consumption.owner.symm rfl
    rw [same]
    exact ⟨consumption.row, consumption.present⟩
  · intro unreplaced
    have hash : ∀ front before code call after,
      flow.Succeeds config events front before code call after →
        ∀ index draw, Takes (State.system config) events front before (.call index draw) after →
        ∀ consumption : flow.Consumption config before code index call after,
          ⟨consumption.target, consumption.result.val.owner, code⟩ ∈ flow.issued before.world ∧
            consumption.row.val.otpHash = hashOtp config code := by
      intro front before code call after succeeds index draw takes consumption
      have sound := State.run_sound takes.reached
      have recorded := run_recorded lawful takes.reached
      obtain ⟨row, there⟩ := unreplaced front before code call after _ _ succeeds consumption.looked
      have same := consumption.same_row lawful sound recorded there
      obtain ⟨one, listed, hashed⟩ :=
        recorded.looked index call _ _ consumption.found consumption.looked
      obtain ⟨two, listed', hashed'⟩ := recorded.committed _ _ consumption.present
      have entry := recorded.functional _ listed _ listed' same
      obtain rfl : one = code := collisionFree (hashed.symm.trans consumption.compared)
      obtain rfl : one = two := congrArg IssuedOtp.code entry
      exact ⟨by rw [consumption.result_val]; exact listed', hashed'⟩
    constructor
    · intro id front before code call after later start another other finish first second one two
      obtain ⟨index, draw, takes, ⟨earlier⟩⟩ := first.consumption lawful
      obtain ⟨_, _, takes', ⟨again⟩⟩ := second.consumption lawful
      simp only [earlier.consumed, again.consumed, Option.map_some, Option.some.injEq] at one two
      have after' := earlier.once lawful takes takes' again (two.trans one.symm)
      have before' := again.once lawful takes' takes earlier (one.trans two.symm)
      exact (takes.unique takes' (Nat.le_antisymm before' after')).1
    · intro front before code call after succeeds
      obtain ⟨index, draw, takes, ⟨consumption⟩⟩ := succeeds.consumption lawful
      exact ⟨_, _, _, _, consumption.consumed, consumption.present, consumption.unused,
        (hash front before code call after succeeds index draw takes consumption).2,
        consumption.row_after lawful (State.run_sound takes.reached), consumption.result_val⟩
    · intro front before code call after id result issued succeeds consumes listed owner same
      obtain ⟨index, draw, takes, ⟨consumption⟩⟩ := succeeds.consumption lawful
      obtain ⟨rfl, rfl⟩ := Prod.mk.inj (Option.some.inj (consumption.consumed.symm.trans consumes))
      have listed' := (hash front before code call after succeeds index draw takes consumption).1
      have distinct := run_distinct lawful drawsNew (takes.permitted run).1
      exact congrArg IssuedOtp.id (distinct issued listed _ listed' owner same)

end Flow

/-- Successive codes of an email and of a user are distinct. -/
def DistinctCodes (before : State) : State.Event → Prop
  | .call index draw => registrationOtps.DrawsNew before index draw ∧
    loginOtps.DrawsNew before index draw
  | .tick _ | .arrive _ | .abort _ => True

instance (before : State) (event : State.Event) : Decidable (DistinctCodes before event) :=
  match event with
  | .call index draw =>
    inferInstanceAs (Decidable (registrationOtps.DrawsNew before index draw ∧
      loginOtps.DrawsNew before index draw))
  | .tick _ | .arrive _ | .abort _ => inferInstanceAs (Decidable True)

/-- Both flows keep to single use and to the value of their codes. -/
structure OtpsBound (config : Config) (events : List State.Event) : Prop where
  registration : registrationOtps.Bound config events
  login : loginOtps.Bound config events

structure OtpsUnreplaced (config : Config) (events : List State.Event) : Prop where
  registration : registrationOtps.Unreplaced config events
  login : loginOtps.Unreplaced config events

theorem otps_bound_iff {config : Config} {events : List State.Event} {state : State}
    (collisionFree : Function.Injective config.sha512)
    (run : Run (State.system config) DistinctCodes events state) :
    OtpsBound config events ↔ OtpsUnreplaced config events := by
  have registration := Flow.bound_iff registrationOtps_lawful
    (fun _ _ _ new => new.1) collisionFree run
  have login := Flow.bound_iff loginOtps_lawful (fun _ _ _ new => new.2) collisionFree run
  constructor
  · rintro ⟨one, two⟩
    exact ⟨registration.mp one, login.mp two⟩
  · rintro ⟨one, two⟩
    exact ⟨registration.mpr one, login.mpr two⟩

/-- Call 1 is about to replace the code of call 0 when call 2 begins to verify that code. -/
def compares : List State.Event :=
  .arrive (.requestRegistrationOtp "ann@example.com" true) :: calls 0 [⟨0, ""⟩, ⟨0, ""⟩,
    ⟨10, "111111"⟩, ⟨0, ""⟩] ++
    [.tick (seconds 1), .arrive (.requestRegistrationOtp "ann@example.com" true)] ++
      calls 1 [⟨0, ""⟩, ⟨0, ""⟩] ++
    [.tick (seconds 1), .arrive (.verifyRegistrationOtp "ann@example.com" "111111")] ++
      calls 2 [⟨0, ""⟩, ⟨0, ""⟩]

/-- The replacement is committed between the comparison and the consuming UPDATE. -/
def replaces : List State.Event :=
  compares ++ calls 1 [⟨0, ""⟩, ⟨0, ""⟩, ⟨11, "222222"⟩, ⟨0, ""⟩] ++ calls 2 [⟨0, ""⟩, ⟨0, ""⟩]

theorem otps_bound_iff_replaces : ∃ state,
    Run (State.system sampleConfig) DistinctCodes (replaces ++ [.call 2 ⟨0, ""⟩]) state ∧
      (OtpsBound sampleConfig (replaces ++ [.call 2 ⟨0, ""⟩]) ↔
        OtpsUnreplaced sampleConfig (replaces ++ [.call 2 ⟨0, ""⟩])) := by
  obtain ⟨state, run, _⟩ := Run.exists_of_execute (State.system sampleConfig) DistinctCodes
    (replaces ++ [.call 2 ⟨0, ""⟩]) (fun _ => true) (by decide)
  exact ⟨state, run, otps_bound_iff Function.injective_id run⟩

/-- Call 2 has consumed a row whose hash is not that of the code it presents. -/
private def misconsumed (state : State) : Bool :=
  match (state.calls[2]? : Option Call) with
  | some (.verifyRegistrationOtp _ code (.consumed _ _ _ result)) => result.val.otpHash ≠
    hashOtp sampleConfig code
  | _ => false

theorem replacement_consumed : ∃ state,
    Run (State.system sampleConfig) DistinctCodes (replaces ++ [.call 2 ⟨0, ""⟩]) state ∧
      ¬ OtpsBound sampleConfig (replaces ++ [.call 2 ⟨0, ""⟩]) := by
  obtain ⟨state, run, _⟩ := Run.exists_of_execute (State.system sampleConfig) DistinctCodes
    (replaces ++ [.call 2 ⟨0, ""⟩]) (fun _ => true) (by decide)
  obtain ⟨before, reached, observed⟩ :=
    Run.exists_of_execute (State.system sampleConfig) Any replaces misconsumed
    (by decide)
  refine ⟨state, run, ?_⟩
  intro bound
  obtain ⟨start, after, takes⟩ := run.any.takes
    (show replaces ++ [.call 2 ⟨0, ""⟩] = replaces ++ .call 2 ⟨0, ""⟩ :: [] from rfl)
  obtain rfl := takes.reached.unique reached
  unfold misconsumed at observed
  split at observed
  · rename_i email code id otp target result found
    have moves : State.Moves sampleConfig start (.call 2 ⟨0, ""⟩) after :=
      State.step_moves takes.taken
    cases moves with
    | call found' taken =>
      obtain rfl := Option.some.inj (found'.symm.trans found)
      cases taken
      have succeeds : registrationOtps.Succeeds sampleConfig
          (replaces ++ [.call 2 ⟨0, ""⟩]) replaces start code _ _ :=
        ⟨2, _, _, takes, found, Processes.set_self found, rfl⟩
      obtain ⟨_, row, _, _, consumes, _, _, hashed, _, same⟩ :=
        bound.registration.hash _ _ _ _ _ succeeds
      cases consumes
      simp [same, hashed] at observed
  · cases observed

end Relays.Auth
