import Relays.Auth.OtpFlow

/-! Where the rows of a flow of one-time passwords come from: every row, committed or not, looked up
or consumed, is that of a code on record. -/

namespace Relays.Auth

open ReadCommitted Transition

namespace Flow

variable {Owner : Type} [DecidableEq Owner] {flow : Flow Owner} {config : Config}
    {state after : State}
variable {event : State.Event} {events front back : List State.Event} {id : Uuid}
    {row version : StoredOtp Owner}
variable {index owner : Nat} {call : Call}

/-- The row is that of a code which has been issued. -/
def Described (flow : Flow Owner) (config : Config) (world : World) (id : Uuid)
    (row : StoredOtp Owner) : Prop :=
  ∃ code, ⟨id, row.val.owner, code⟩ ∈ flow.issued world ∧ row.val.otpHash = hashOtp config code

theorem Lawful.issued_kept (lawful : flow.Lawful) (moves : State.Moves config state event after)
    (sound : state.Sound) : flow.issued state.world ⊆ flow.issued after.world := by
  obtain ⟨_, moved, _⟩ := moves.world_moves sound
  exact lawful.kept moved

theorem Described.kept (described : flow.Described config state.world id row) (lawful : flow.Lawful)
    (moves : State.Moves config state event after) (sound : state.Sound) :
    flow.Described config after.world id row := by
  obtain ⟨code, member, hashed⟩ := described
  exact ⟨code, lawful.issued_kept moves sound member, hashed⟩

theorem Lawful.owned_call (lawful : flow.Lawful) (sound : state.Sound)
    (found : state.calls[index]? = some call) :
    (flow.table state.world).Owned index (flow.writes call.writes) :=
      lawful.owned (sound.owned_call found)

/-- A committed row was committed before, or written by the call that has committed it. -/
theorem Lawful.row_origin (lawful : flow.Lawful) (moves : State.Moves config state event after)
    (sound : state.Sound)
    (present : (flow.table after.world).row id = some row) :
    (flow.table state.world).row id = some row ∨
      ∃ owner, ((flow.table state.world).cells id).pending = some (owner, some row) := by
  obtain ⟨acting, moved, _⟩ := moves.world_moves sound
  have owned := lawful.owned (sound.owned acting)
  rcases (lawful.moves moved).row_cases owned id with same | ⟨version, member, same, _⟩
  · exact .inl (same.symm.trans present)
  · obtain rfl := same.symm.trans present
    exact .inr ⟨acting, (owned id _).mpr member⟩

/-- The row under a version that a call has written stays as it is. -/
theorem Lawful.row_kept {written : Option (StoredOtp Owner)} (lawful : flow.Lawful)
    (moves : State.Moves config state event after) (sound : state.Sound)
    (found : after.calls[index]? = some call)
    (member : (id, written) ∈ flow.writes call.writes) :
    (flow.table after.world).row id = (flow.table state.world).row id := by
  obtain ⟨acting, moved, others⟩ := moves.world_moves sound
  have moves := lawful.moves moved
  have writes : after.writes index = call.writes := by simp [State.writes, found]
  by_cases own : index = acting
  · subst own
    apply moves.row_of_written (lawful.owned (sound.owned index))
    rw [writes]
    exact List.ne_nil_of_mem member
  · have held : ((flow.table state.world).cells id).pending = some (index, written) := by
      apply (lawful.owned (sound.owned index) id _).mpr
      rw [← others index own, writes]
      exact member
    exact congrArg Cell.committed
      ((moves.frame (lawful.sound sound.world)).kept id index _ own held)

/-- An uncommitted version was there before, consumes the row it replaces, or is that of a code
which has just been issued. -/
theorem Lawful.pending_cases (lawful : flow.Lawful) (moves : State.Moves config state event after)
    (sound : state.Sound) (held : ((flow.table after.world).cells id).pending =
      some (owner, some version)) :
    ((flow.table state.world).cells id).pending = some (owner, some version) ∨
      (∃ stored, (flow.table state.world).row id = some stored ∧
        version.val.owner = stored.val.owner ∧
        version.val.otpHash = stored.val.otpHash) ∨
      flow.Described config after.world id version := by
  have member := (lawful.owned ((moves.sound sound).owned owner) id _).mp held
  cases entry : after.calls[owner]? with
  | none => simp [State.writes, entry, lawful.nothing] at member
  | some call =>
    rw [show after.writes owner = call.writes by simp [State.writes, entry]] at member
    rcases moves.call_cases entry with same | ⟨request, _, _, rfl⟩
      | ⟨current, draw, _, found, taken⟩ |
      ⟨current, _, _, rfl⟩
    · exact .inl ((lawful.owned_call sound same id _).mpr member)
    · simp [Request.start_writes, lawful.nothing] at member
    · have owned := lawful.owned_call sound found
      rcases lawful.versions taken member with earlier | consumes | ⟨hashed, issued⟩
      · exact .inl ((owned id _).mpr earlier)
      · rcases lawful.consumes taken consumes with earlier | ⟨nothing, stored, now, seen, _, same⟩
        · exact .inl ((owned id _).mpr (lawful.written earlier))
        · rw [nothing] at owned
          rw [Relation.view_of_unwritten owned] at seen
          exact .inr (.inl ⟨stored, seen, by rw [same], by rw [same]⟩)
      · exact .inr (.inr ⟨draw.secret, issued, hashed⟩)
    · simp [Call.fail_writes, lawful.nothing] at member

/-- The rows of the flow, the codes on record and the rows that its calls have looked up. -/
structure Recorded (flow : Flow Owner) (config : Config) (state : State) : Prop where
  committed : ∀ id row, (flow.table state.world).row id = some row →
    flow.Described config state.world id row
  pending : ∀ id owner version, ((flow.table state.world).cells id).pending =
    some (owner, some version) →
    flow.Described config state.world id version
  known : ∀ issued ∈ flow.issued state.world, issued.id ∈ (flow.table state.world).keys
  functional : ∀ first ∈ flow.issued state.world, ∀ second ∈ flow.issued state.world,
    first.id = second.id →
    first = second
  looked : ∀ (index : Nat) call id otp, state.calls[index]? = some call →
    flow.looked call = some (id, otp) →
    flow.Described config state.world id otp
  consumed : ∀ (index : Nat) call target result, state.calls[index]? = some call →
    flow.consumed call = some (target, result) →
      ∃ stored, (flow.table state.world).row target = some stored

/-- The codes on record after a step are those before it and the one that it has stored. -/
theorem Lawful.issued_cases (lawful : flow.Lawful) (moves : State.Moves config state event after) :
    flow.issued after.world = flow.issued state.world ∨
      ∃ index draw call owner, event = .call index draw ∧ state.calls[index]? = some call ∧
        flow.stores call = some owner ∧ draw.id ∉ (flow.table state.world).keys ∧
        draw.id ∈ (flow.table after.world).keys ∧
        flow.issued after.world = flow.issued state.world ++ [⟨draw.id, owner, draw.secret⟩] := by
  cases moves with
  | tick => exact .inl (lawful.ticks _ _)
  | arrive => exact .inl rfl
  | @call index call next last draw found taken =>
    rcases lawful.issues taken with same | ⟨owner, stores, fresh, known, issued⟩
    · exact .inl same
    · exact .inr ⟨index, draw, call, owner, rfl, found, stores, fresh, known, issued⟩
  | abort => exact .inl (lawful.aborts _ _)

theorem Lawful.keys (lawful : flow.Lawful) (moves : State.Moves config state event after)
    (sound : state.Sound) :
    (flow.table state.world).keys ⊆ (flow.table after.world).keys := by
  obtain ⟨_, moved, _⟩ := moves.world_moves sound
  exact (lawful.moves moved).keys

theorem Recorded.step (recorded : flow.Recorded config state) (lawful : flow.Lawful)
    (moves : State.Moves config state event after)
    (sound : state.Sound) : flow.Recorded config after where
  committed id row present := by
    rcases lawful.row_origin moves sound present with there | ⟨owner, held⟩
    · exact (recorded.committed id row there).kept lawful moves sound
    · exact (recorded.pending id owner row held).kept lawful moves sound
  pending id owner version held := by
    rcases lawful.pending_cases moves sound held with there | ⟨stored, present, same, hashed⟩
      | described
    · exact (recorded.pending id owner version there).kept lawful moves sound
    · obtain ⟨code, member, hash⟩ := (recorded.committed id stored present).kept lawful moves sound
      exact ⟨code, by rw [same]; exact member, hashed.trans hash⟩
    · exact described
  known issued member := by
    rcases lawful.issued_cases moves with same | ⟨_, _, _, _, _, _, _, _, known, same⟩
    · rw [same] at member
      exact lawful.keys moves sound (recorded.known issued member)
    · rw [same] at member
      rcases List.mem_append.mp member with earlier | added
      · exact lawful.keys moves sound (recorded.known issued earlier)
      · rw [List.mem_singleton.mp added]
        exact known
  functional first one second two same := by
    rcases lawful.issued_cases moves with unchanged | ⟨_, draw, _, _, _, _, _, fresh, _, appended⟩
    · rw [unchanged] at one two
      exact recorded.functional first one second two same
    · rw [appended] at one two
      rcases List.mem_append.mp one with one | one <;> rcases List.mem_append.mp two with two | two
      · exact recorded.functional first one second two same
      · have used := recorded.known first one
        rw [same, List.mem_singleton.mp two] at used
        exact absurd used fresh
      · have used := recorded.known second two
        rw [← same, List.mem_singleton.mp one] at used
        exact absurd used fresh
      · rw [List.mem_singleton.mp one, List.mem_singleton.mp two]
  looked index call id otp found looks := by
    rcases moves.call_cases found with same | ⟨request, _, _, rfl⟩
      | ⟨current, draw, _, entry, taken⟩ |
      ⟨current, _, _, rfl⟩
    · exact (recorded.looked index call id otp same looks).kept lawful moves sound
    · simp [(lawful.starts config state.world.clock request).1] at looks
    · rcases lawful.looks taken looks with earlier | ⟨nothing, seen⟩
      · exact (recorded.looked index current id otp entry earlier).kept lawful moves sound
      · have owned := lawful.owned_call sound entry
        rw [nothing] at owned
        rw [Relation.view_of_unwritten owned] at seen
        exact (recorded.committed id otp seen).kept lawful moves sound
    · simp [(lawful.fails current).1] at looks
  consumed index call target result found consumes := by
    rw [lawful.row_kept moves sound found (lawful.written consumes)]
    rcases moves.call_cases found with same | ⟨request, _, _, rfl⟩
      | ⟨current, draw, _, entry, taken⟩ |
      ⟨current, _, _, rfl⟩
    · exact recorded.consumed index call target result same consumes
    · simp [(lawful.starts config state.world.clock request).2] at consumes
    · rcases lawful.consumes taken consumes with earlier | ⟨nothing, stored, now, seen, _, _⟩
      · exact recorded.consumed index current target result entry earlier
      · have owned := lawful.owned_call sound entry
        rw [nothing] at owned
        rw [Relation.view_of_unwritten owned] at seen
        exact ⟨stored, seen⟩
    · simp [(lawful.fails current).2] at consumes

theorem init_recorded (lawful : flow.Lawful) : flow.Recorded config State.init where
  committed id row present := by
    have nothing := lawful.empty_table
    simp [State.init, nothing, Relation.empty, Relation.row, Table.empty] at present
  pending id owner version held := by
    have nothing := lawful.empty_table
    simp [State.init, nothing, Relation.empty, Table.empty] at held
  known issued member := by simp [State.init, lawful.empty] at member
  functional first one := by simp [State.init, lawful.empty] at one
  looked index call id otp found := by simp [State.init] at found
  consumed index call target result found := by simp [State.init] at found

theorem run_recorded {allowed : State → State.Event → Prop} (lawful : flow.Lawful)
    (run : Run (State.system config) allowed events state) : flow.Recorded config state := by
  apply run.invariant (init_recorded lawful)
  intro earlier before event after ran recorded _ taken
  exact recorded.step lawful (State.step_moves taken) (State.run_sound ran)

end Flow

/-- The comparisons of the calls of a run. -/
theorem run_checked {config : Config} {events : List State.Event} {state : State} {index : Nat}
    {call : Call}
    (run : Run (State.system config) Any events state) (found : state.calls[index]? = some call) :
    call.Checked config := by
  induction run generalizing call with
  | start => simp [State.system, State.init] at found
  | @step events before event after earlier permitted taken ih =>
    have moves : State.Moves config before event after := State.step_moves taken
    rcases moves.call_cases found with same | ⟨request, _, _, rfl⟩
      | ⟨current, draw, _, entry, moved⟩ |
      ⟨current, _, _, rfl⟩
    · exact ih same
    · cases request <;> trivial
    · exact Call.step_checked moved (ih entry)
    · cases current <;> trivial

end Relays.Auth
