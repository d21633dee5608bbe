import Relays.ApiKeys.Routes

/-! What each API key call has written at each point of its transaction, and what its phases
know of the rows. -/

namespace Relays.ApiKeys

open ReadCommitted Transition

/-- A key is revoked once, and never deleted. -/
def KeyChanged (stored : StoredApiKey) (version : Option StoredApiKey) : Prop :=
  stored.val.status = .active ∧ ∃ now, version = some (revoked now stored)

def Activity.writes : Activity → List (Uuid × Option StoredApiKey)
  | .create (.inserted id row _) => [(id, some row)]
  | .revoke id (.updated row) => [(id, some row)]
  | _ => []

theorem Activity.fail_writes (activity : Activity) : activity.fail.writes = [] := by
  cases activity <;> rfl

theorem Request.start_writes (clock : Time)
    (request : Request) : (request.start clock).writes = [] := by
  cases request with
  | create name expiresAt =>
    simp only [start, CreateApiKey.start]
    split
    · rfl
    · split <;> rfl
  | list | get | revoke => rfl

/-- The row that is stored of a key. -/
structure Stores (sha512 : String → String) (apiKey : String) (workspaceId : Uuid)
    (expiresAt : Option Time)
    (row : StoredApiKey) : Prop where
  workspaceId : row.val.workspaceId = workspaceId
  expiresAt : row.val.expiresAt = expiresAt
  keyPrefix : extractPrefix apiKey = .ok row.val.keyPrefix
  keyHash : row.val.keyHash = hashApiKey sha512 apiKey

/-- What a call knows of what it has read and written. -/
def Call.Holds (sha512 : String → String) (apiKeys : ApiKeyTable) (call : Call) : Prop :=
  match call.activity with
  | .create (.begun _ _ _ apiKey keyPrefix) => extractPrefix apiKey = .ok keyPrefix
  | .create (.inserted _ row apiKey) =>
    Stores sha512 apiKey call.caller.workspaceId row.val.expiresAt row ∧ row.val.status = .active
  | .revoke id (.updated row) => ∃ stored now, apiKeys.row id = some stored ∧
      stored.val.workspaceId = call.caller.workspaceId ∧ row = revoked now stored
  | _ => True

section Statements

variable {sha512 : String → String} {tx : Nat} {clock now : Time} {apiKeys next : ApiKeyTable}
    {caller : Caller}
variable {draw : Draw} {id workspaceId : Uuid} {result : StoredApiKey}

theorem revokeApiKey_returns (done : revokeApiKey apiKeys tx now id workspaceId =
    .returns (next, some result)) :
    ∃ stored, (apiKeys.cells id).blocked tx = false ∧ (apiKeys.cells id).view tx = some stored ∧
      stored.val.workspaceId = workspaceId ∧ stored.val.status = .active ∧
        result = revoked now stored ∧
      next = ⟨apiKeys.cells.write id tx (some result), apiKeys.keys⟩ := by
  unfold revokeApiKey at done
  split at done
  · obtain ⟨stored, free, seen, matched, written, rfl⟩ := Relation.update_returns done
    simp only [revokable, Bool.and_eq_true, decide_eq_true_eq] at matched
    exact ⟨stored, free, seen, matched.1, matched.2, (Option.some.inj written).symm, rfl⟩
  · cases done

theorem revokeApiKey_returns_none (done : revokeApiKey apiKeys tx now id workspaceId =
    .returns (next, none)) :
    next = apiKeys := by
  unfold revokeApiKey at done
  split at done
  · exact Relation.update_returns_none done
  · cases done
    rfl

theorem CreateApiKey.step_moves {phase after : Phase}
    (taken : step sha512 tx clock apiKeys caller draw phase = some (next, after)) :
    Relation.Moves ApiKey.clash KeyChanged tx (Activity.create phase).writes apiKeys
      (Activity.create after).writes next := by
  cases phase with
  | validated name expiresAt =>
    simp only [step] at taken
    split at taken <;> cases taken <;> exact .stay
  | begun now name expiresAt apiKey keyPrefix =>
    simp only [step] at taken
    split at taken
    · cases taken
    · cases taken
      exact .rollback
    · rename_i inserted
      cases taken
      obtain ⟨fresh, distinct, rfl⟩ := Relation.insert_returns inserted
      exact .insert fresh distinct
  | inserted id row apiKey =>
    cases taken
    exact .commit
  | ended outcome => cases taken

theorem RevokeApiKey.step_moves {phase after : Phase}
    (sound : Relation.Sound ApiKey.clash KeyChanged apiKeys)
    (taken : step tx apiKeys caller id phase = some (next, after)) :
    Relation.Moves ApiKey.clash KeyChanged tx (Activity.revoke id phase).writes apiKeys
      (Activity.revoke id after).writes next := by
  cases phase with
  | begun now =>
    simp only [step] at taken
    split at taken
    · cases taken
    · cases taken
      exact .rollback
    · rename_i missed
      cases taken
      obtain rfl := revokeApiKey_returns_none missed
      exact .stay
    · rename_i updated
      cases taken
      obtain ⟨stored, free, seen, _, active, rfl, rfl⟩ := revokeApiKey_returns updated
      refine .rewrite (sound.member_of_view seen) free seen ⟨active, now, rfl⟩ ?_
      intro version same
      obtain rfl := Option.some.inj same
      exact .inr fun other => rfl
  | missed =>
    cases taken
    exact .commit
  | updated row =>
    cases taken
    exact .commit
  | ended outcome => cases taken

theorem Activity.step_moves {activity after : Activity}
    (sound : Relation.Sound ApiKey.clash KeyChanged apiKeys)
    (taken : activity.step sha512 tx clock apiKeys caller draw = some (next, after)) :
    Relation.Moves ApiKey.clash KeyChanged tx activity.writes apiKeys after.writes next := by
  cases activity with
  | create phase =>
    obtain ⟨last, moved, rfl⟩ := Processes.mapped_eq_some.mp taken
    exact CreateApiKey.step_moves moved
  | list phase =>
    obtain ⟨last, moved, rfl⟩ := Processes.mapped_eq_some.mp taken
    cases phase with
    | begun =>
      cases moved
      exact .stay
    | ended => cases moved
  | get key phase =>
    obtain ⟨last, moved, rfl⟩ := Processes.mapped_eq_some.mp taken
    cases phase with
    | begun =>
      simp only [GetApiKey.step] at moved
      split at moved <;> cases moved <;> exact .stay
    | ended => cases moved
  | revoke key phase =>
    obtain ⟨last, moved, rfl⟩ := Processes.mapped_eq_some.mp taken
    exact RevokeApiKey.step_moves sound moved

/-- What a call knows after its own statement. -/
theorem Activity.step_holds {activity after : Activity} (owned : apiKeys.Owned tx activity.writes)
    (holds : Call.Holds sha512 apiKeys ⟨caller, activity⟩)
    (taken : activity.step sha512 tx clock apiKeys caller draw = some (next, after)) :
    Call.Holds sha512 next ⟨caller, after⟩ := by
  cases activity with
  | create phase =>
    obtain ⟨last, moved, rfl⟩ := Processes.mapped_eq_some.mp taken
    cases phase with
    | validated name expiresAt =>
      simp only [CreateApiKey.step] at moved
      split at moved
      · cases moved
        trivial
      · rename_i extracted
        cases moved
        exact extracted
    | begun now name expiresAt apiKey keyPrefix =>
      simp only [CreateApiKey.step] at moved
      split at moved
      · cases moved
      · cases moved
        trivial
      · cases moved
        exact ⟨⟨rfl, rfl, holds, rfl⟩, rfl⟩
    | inserted id row apiKey =>
      cases moved
      trivial
    | ended => cases moved
  | list phase =>
    obtain ⟨last, moved, rfl⟩ := Processes.mapped_eq_some.mp taken
    trivial
  | get key phase =>
    obtain ⟨last, moved, rfl⟩ := Processes.mapped_eq_some.mp taken
    trivial
  | revoke key phase =>
    obtain ⟨last, moved, rfl⟩ := Processes.mapped_eq_some.mp taken
    cases phase with
    | begun now =>
      simp only [RevokeApiKey.step] at moved
      split at moved
      · cases moved
      · cases moved
        trivial
      · cases moved
        trivial
      · rename_i updated
        cases moved
        obtain ⟨stored, free, seen, own, _, rfl, rfl⟩ := revokeApiKey_returns updated
        rw [Relation.view_of_unwritten owned] at seen
        exact ⟨stored, now, (Table.write_committed _ _ _).trans seen, own, rfl⟩
    | missed | updated =>
      cases moved
      trivial
    | ended => cases moved

end Statements

namespace State

def writes (state : State) (index : Nat) : List (Uuid × Option StoredApiKey) :=
  (state.calls[index]?).elim [] fun call => call.activity.writes

/-- The steps of the system. -/
inductive Moves (sha512 : String → String) (state : State) : Event → State → Prop where
  | tick : Moves sha512 state (.tick elapsed) { state with clock := state.clock + elapsed }
  | arrive : Moves sha512 state (.arrive caller request)
      { state with calls := state.calls ++ [⟨caller, request.start state.clock⟩] }
  | call (found : state.calls[index]? = some ⟨caller, activity⟩)
      (taken : activity.step sha512 index state.clock state.apiKeys caller draw =
        some (next, last)) :
      Moves sha512 state (.call index draw)
        { state with apiKeys := next, calls := state.calls.set index ⟨caller, last⟩ }
  | abort (found : state.calls[index]? = some ⟨caller, activity⟩)
      (running : activity.outcome = none) :
      Moves sha512 state (.abort index)
        { state with
          apiKeys := state.apiKeys.rollback index
          calls := state.calls.set index ⟨caller, activity.fail⟩ }

structure Sound (sha512 : String → String) (state : State) : Prop where
  apiKeys : Relation.Sound ApiKey.clash KeyChanged state.apiKeys
  owned : ∀ index, state.apiKeys.Owned index (state.writes index)
  calls : ∀ (index : Nat) (call : Call), state.calls[index]? = some call →
    call.Holds sha512 state.apiKeys

variable {sha512 : String → String} {state after : State} {event : Event} {index : Nat}
    {call : Call} {id : Uuid}

theorem step_moves (taken : step sha512 state event = some after) :
    Moves sha512 state event after := by
  cases event with
  | tick elapsed =>
    cases taken
    exact .tick
  | arrive caller request =>
    cases taken
    exact .arrive
  | call index draw =>
    simp only [step] at taken
    split at taken
    · cases taken
    · rename_i found
      split at taken
      · cases taken
      · rename_i moved
        cases taken
        exact .call found moved
  | abort index =>
    simp only [step] at taken
    split at taken
    · cases taken
    · rename_i found
      split at taken
      · cases taken
      · rename_i running
        cases taken
        exact .abort found (by simpa using running)

theorem Sound.owned_call (sound : Sound sha512 state) (found : state.calls[index]? = some call) :
    state.apiKeys.Owned index call.activity.writes := by
  simpa [writes, found] using sound.owned index

theorem arrive_writes (state : State) (caller : Caller) (request : Request) (index : Nat) :
    writes { state with calls := state.calls ++ [⟨caller, request.start state.clock⟩] } index =
      state.writes index :=
  Processes.elim_concat (Request.start_writes state.clock request)

/-- Every step is a statement of one transaction, or its end. -/
theorem Moves.table_moves (moves : Moves sha512 state event after) (sound : Sound sha512 state) :
    ∃ acting, Relation.Moves ApiKey.clash KeyChanged acting (state.writes acting) state.apiKeys
        (after.writes acting) after.apiKeys ∧ ∀ other, other ≠ acting →
          after.writes other = state.writes other := by
  cases moves with
  | tick => exact ⟨0, .stay, fun _ _ => rfl⟩
  | arrive =>
    refine ⟨0, ?_, fun other _ => arrive_writes state _ _ other⟩
    rw [arrive_writes]
    exact .stay
  | @call index _ _ _ caller activity found taken =>
    refine ⟨index, ?_, fun other different => by simp only [writes, Processes.set_other different]⟩
    have moves := Activity.step_moves sound.apiKeys taken
    simpa [writes, found, Processes.set_self found] using moves
  | @abort index caller activity found running =>
    refine ⟨index, ?_, fun other different => by simp only [writes, Processes.set_other different]⟩
    simp only [writes, found, Processes.set_self found, Option.elim_some, Activity.fail_writes]
    exact .rollback

/-- What another call knows is left alone: the row that it replaces is under its lock. -/
theorem Sound.holds_kept (sound : Sound sha512 state) (found : state.calls[index]? = some call)
    (frame : ∀ id version, (state.apiKeys.cells id).pending = some (index, version) →
      after.apiKeys.cells id = state.apiKeys.cells id) : call.Holds sha512 after.apiKeys := by
  have holds := sound.calls index call found
  have owned := sound.owned_call found
  obtain ⟨caller, activity⟩ := call
  unfold Call.Holds at holds ⊢
  dsimp only at holds owned ⊢
  split
  · exact holds
  · exact holds
  · obtain ⟨stored, now, present, own, written⟩ := holds
    have locked := (owned _ _).mpr (List.mem_singleton.mpr rfl)
    refine ⟨stored, now, ?_, own, written⟩
    rw [Relation.row, frame _ _ locked]
    exact present
  · trivial

theorem Moves.sound (moves : Moves sha512 state event after)
    (sound : Sound sha512 state) : Sound sha512 after := by
  obtain ⟨acting, moved, others⟩ := moves.table_moves sound
  refine ⟨moved.sound sound.apiKeys ApiKey.clash_symm (sound.owned acting), ?_, ?_⟩
  · intro index
    by_cases own : index = acting
    · subst own
      exact moved.owned sound.apiKeys (sound.owned index)
    · rw [others index own]
      exact moved.owned_other sound.apiKeys own (sound.owned index)
  · intro index call present
    cases moves with
    | tick => exact sound.calls index call present
    | @arrive caller request =>
      rcases Processes.append_cases present with ⟨_, rfl⟩ | earlier
      · cases request with
        | create name expiresAt =>
          simp only [Request.start, CreateApiKey.start]
          split
          · trivial
          · split <;> trivial
        | list | get | revoke => trivial
      · exact sound.calls index call earlier
    | @call acting _ _ _ caller activity found taken =>
      rcases Processes.set_cases present with ⟨rfl, rfl⟩ | ⟨different, earlier⟩
      · exact Activity.step_holds (sound.owned_call found) (sound.calls _ _ found) taken
      · have frame := (Activity.step_moves sound.apiKeys taken).frame sound.apiKeys
        exact sound.holds_kept earlier fun id version held =>
          frame.kept id index version different held
    | @abort acting caller activity found running =>
      rcases Processes.set_cases present with ⟨rfl, rfl⟩ | ⟨different, earlier⟩
      · cases activity <;> trivial
      · refine sound.holds_kept earlier fun id version held => ?_
        exact (Table.Frame.rollback state.apiKeys.cells).kept id index version different held

theorem init_sound : Sound sha512 init :=
  ⟨Relation.empty_sound, fun index => Relation.empty_owned index, by simp [init]⟩

variable {allowed : State → Event → Prop} {events : List Event}

theorem run_sound (run : Run (system sha512) allowed events state) : Sound sha512 state :=
  run.invariant init_sound fun _ _ _ _ _ sound _ taken => (step_moves taken).sound sound

end State

end Relays.ApiKeys
