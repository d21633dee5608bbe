import Relays.ApiKeys.Lifecycle

/-! Whose keys are stored: every row names the caller of the create that has written it. -/

namespace Relays.ApiKeys

open ReadCommitted Transition

/-- The caller that a row was stored for. -/
def author (row : StoredApiKey) : Caller := ⟨row.val.workspaceId, row.val.createdBy⟩

namespace State

variable {sha512 : String → String} {state after : State} {event : Event} {index : Nat}
    {call : Call} {id : Uuid}
variable {stored : StoredApiKey}

/-- A call has just arrived, or has had its caller before. -/
theorem Moves.caller_cases (moves : Moves sha512 state event after)
    (found : after.calls[index]? = some call) :
    (∃ request, event = .arrive call.caller request) ∨
      ∃ earlier, state.calls[index]? = some earlier ∧ earlier.caller = call.caller := by
  cases moves with
  | tick => exact .inr ⟨call, found, rfl⟩
  | arrive =>
    rcases Processes.append_cases found with ⟨_, rfl⟩ | earlier
    · exact .inl ⟨_, rfl⟩
    · exact .inr ⟨call, earlier, rfl⟩
  | call entry | abort entry =>
    rcases Processes.set_cases found with ⟨rfl, rfl⟩ | ⟨_, earlier⟩
    · exact .inr ⟨_, entry, rfl⟩
    · exact .inr ⟨call, earlier, rfl⟩

theorem Moves.caller_kept (moves : Moves sha512 state event after)
    (found : state.calls[index]? = some call) :
    ∃ later, after.calls[index]? = some later ∧ later.caller = call.caller := by
  cases moves with
  | tick => exact ⟨call, found, rfl⟩
  | arrive => exact ⟨call, Processes.append_earlier found, rfl⟩
  | @call acting _ _ _ _ _ entry | @abort acting _ _ entry =>
    by_cases own : index = acting
    · subst own
      obtain rfl := Option.some.inj (entry.symm.trans found)
      exact ⟨_, Processes.set_self found, rfl⟩
    · exact ⟨call, (Processes.set_other own).trans found, rfl⟩

/-- A key is never deleted, and stays with its workspace and its creator. -/
theorem Moves.row_kept (moves : Moves sha512 state event after) (sound : Sound sha512 state)
    (present : state.apiKeys.row id = some stored) :
    ∃ later, after.apiKeys.row id = some later ∧ author later = author stored := by
  cases moves.effect sound with
  | quiet rows silent => exact ⟨stored, by rw [rows]; exact present, rfl⟩
  | @created index row draw _ caller apiKey other found rows answer =>
    have apart : id ≠ other := by
      rintro rfl
      rw [History.unstored sound found] at present
      cases present
    exact ⟨stored, by rw [rows, Function.update_of_ne apart]; exact present, rfl⟩
  | @revoked index row draw _ caller other found rows answer =>
    by_cases same : id = other
    · subst same
      obtain ⟨version, now, there, _, rfl⟩ := sound.calls _ _ found
      obtain rfl := Option.some.inj (present.symm.trans there)
      exact ⟨ApiKeys.revoked now stored, by rw [rows, Function.update_self], rfl⟩
    · exact ⟨stored, by rw [rows, Function.update_of_ne same]; exact present, rfl⟩

/-- Every key is that of a caller, and so is every key that a create is about to commit. -/
structure Authored (state : State) : Prop where
  rows : ∀ id row, state.apiKeys.row id = some row →
    ∃ (index : Nat) (call : Call), state.calls[index]? = some call ∧ call.caller = author row
  inserted : ∀ (index : Nat) caller id row apiKey,
    state.calls[index]? = some ⟨caller, .create (.inserted id row apiKey)⟩ → author row = caller

/-- The row of a create names its caller. -/
theorem CreateApiKey.step_inserted {tx : Nat} {clock : Time} {apiKeys next : ApiKeyTable}
    {caller : Caller}
    {draw : Draw} {phase : CreateApiKey.Phase} {row : StoredApiKey} {apiKey : String}
    (taken : CreateApiKey.step sha512 tx clock apiKeys caller draw phase =
      some (next, .inserted id row apiKey)) :
    author row = caller := by
  cases phase with
  | validated =>
    simp only [CreateApiKey.step] at taken
    split at taken <;> cases taken
  | begun =>
    simp only [CreateApiKey.step] at taken
    split at taken
    · cases taken
    · cases taken
    · cases taken
      rfl
  | inserted | ended => cases taken

theorem Authored.step (authored : state.Authored) (moves : Moves sha512 state event after)
    (sound : Sound sha512 state) : after.Authored where
  rows id row present := by
    have earlier (stored : StoredApiKey) (there : state.apiKeys.row id = some stored)
        (same : author stored = author row) :
        ∃ (index : Nat) (call : Call), after.calls[index]? = some call ∧
          call.caller = author row := by
      obtain ⟨index, call, found, own⟩ := authored.rows id stored there
      obtain ⟨later, entry, kept⟩ := moves.caller_kept found
      exact ⟨index, later, entry, kept.trans (own.trans same)⟩
    cases moves.effect sound with
    | quiet rows silent =>
      rw [rows] at present
      exact earlier row present rfl
    | @created index version draw _ caller apiKey other found rows answer =>
      rw [rows, Function.update_apply] at present
      split at present
      · obtain rfl := Option.some.inj present
        exact ⟨index, _, answer, (authored.inserted index caller other version apiKey found).symm⟩
      · exact earlier row present rfl
    | @revoked index version draw _ caller other found rows answer =>
      rw [rows, Function.update_apply] at present
      split at present
      · rename_i same
        subst same
        obtain rfl := Option.some.inj present
        obtain ⟨stored, now, there, _, rfl⟩ := sound.calls _ _ found
        exact earlier stored there rfl
      · exact earlier row present rfl
  inserted index caller id row apiKey found := by
    cases moves with
    | tick => exact authored.inserted index caller id row apiKey found
    | @arrive _ request =>
      rcases Processes.append_cases found with ⟨_, started⟩ | earlier
      · cases request with
        | create name expiresAt =>
          simp only [Request.start, CreateApiKey.start] at started
          split at started
          · cases started
          · split at started <;> cases started
        | list | get | revoke => cases started
      · exact authored.inserted index caller id row apiKey earlier
    | @call acting _ _ _ _ activity entry taken =>
      rcases Processes.set_cases found with ⟨rfl, same⟩ | ⟨_, earlier⟩
      · cases same
        cases activity with
        | create phase =>
          obtain ⟨last, moved, shape⟩ := Processes.mapped_eq_some.mp taken
          cases shape
          exact CreateApiKey.step_inserted moved
        | list | get | revoke =>
          obtain ⟨last, moved, shape⟩ := Processes.mapped_eq_some.mp taken
          cases shape
      · exact authored.inserted index caller id row apiKey earlier
    | @abort acting _ activity entry running =>
      rcases Processes.set_cases found with ⟨rfl, same⟩ | ⟨_, earlier⟩
      · cases activity <;> cases same
      · exact authored.inserted index caller id row apiKey earlier

theorem run_authored {allowed : State → Event → Prop} {events : List Event}
    (run : Run (system sha512) allowed events state) : state.Authored := by
  apply run.invariant
  · constructor <;> simp [system, init, Relation.empty, Relation.row, Table.empty]
  · intro _ _ _ _ earlier authored _ taken
    exact authored.step (step_moves taken) (run_sound earlier)

/-- The calls of other workspaces leave the keys of a workspace as they are. -/
theorem run_rows_kept {allowed : State → Event → Prop} {events : List Event} {workspaceId : Uuid}
    (run : Run (system sha512) allowed events state) (moves : Moves sha512 state event after)
    (alien : ∀ (index : Nat) draw call, event = .call index draw → state.calls[index]? = some call →
      call.caller.workspaceId ≠ workspaceId) (id : Uuid) :
    (after.apiKeys.row id).filter (fun row => row.val.workspaceId = workspaceId) =
      (state.apiKeys.row id).filter fun row => row.val.workspaceId = workspaceId := by
  have sound := run_sound run
  have foreign {row : StoredApiKey} {caller : Caller} (own : row.val.workspaceId =
    caller.workspaceId)
      (apart : caller.workspaceId ≠ workspaceId) :
      (some row).filter (fun row => row.val.workspaceId = workspaceId) = none := by
    rw [← own] at apart
    simp [Option.filter, apart]
  cases moves.effect sound with
  | quiet rows silent => rw [rows]
  | @created index row draw _ caller apiKey other found rows answer =>
    rw [rows, Function.update_apply]
    split
    · rename_i same
      subst same
      obtain ⟨stores, _⟩ := sound.calls index _ found
      rw [History.unstored sound found, foreign stores.workspaceId (alien index draw _ rfl found)]
      rfl
    · rfl
  | @revoked index row draw _ caller other found rows answer =>
    rw [rows, Function.update_apply]
    split
    · rename_i same
      subst same
      obtain ⟨stored, now, present, own, rfl⟩ := sound.calls index _ found
      have apart := alien index draw _ rfl found
      rw [present, foreign own apart]
      exact foreign own apart
    · rfl

theorem run_keys_nodup {allowed : State → Event → Prop} {events : List Event}
    (run : Run (system sha512) allowed events state) : state.apiKeys.keys.Nodup := by
  apply run.invariant
  · exact List.nodup_nil
  · intro _ _ _ _ earlier distinct _ taken
    obtain ⟨_, moved, _⟩ := (step_moves taken).table_moves (run_sound earlier)
    exact moved.keys_nodup distinct

end State

end Relays.ApiKeys
