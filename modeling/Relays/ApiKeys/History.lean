import Relays.ApiKeys.Invariant

/-! What the rows of `api_keys` say of the answers given so far: a row is stored by the create
that has returned its key, and revoked by the revoke that has said so. -/

namespace Relays.ApiKeys

open ReadCommitted Transition

section Answers

variable (sha512 : String → String) (events : List State.Event)

/-- A statement of the run has ended this call so. -/
def Answers (caller : Caller) (activity : Activity) : Prop :=
  ∃ front before index draw after,
    Takes (State.system sha512) events front before (.call index draw) after ∧
    after.calls[index]? = some ⟨caller, activity⟩

/-- A committed create has returned the key. -/
def Returned (apiKey : String) (id workspaceId : Uuid) (expiresAt : Option Time) : Prop :=
  ∃ caller body, Answers sha512 events caller (.create (.ended (.created body))) ∧
    body.apiKey = some apiKey ∧
    body.id = id ∧ caller.workspaceId = workspaceId ∧ body.expiresAt = expiresAt

/-- The workspace has committed a revoke of the key. -/
def Withdrawn (id workspaceId : Uuid) : Prop :=
  ∃ caller body, Answers sha512 events caller (.revoke id (.ended (.revoked body))) ∧
    caller.workspaceId = workspaceId

end Answers

/-- The answer to a create or a revoke that has been committed. -/
def Activity.committed : Activity → Bool
  | .create (.ended (.created _)) | .revoke _ (.ended (.revoked _)) => true
  | _ => false

/-- What a step does to the rows, and what it answers. -/
inductive Effect (state : State) : State.Event → State → Prop where
  | quiet (rows : after.apiKeys.row = state.apiKeys.row)
      (silent : ∀ (index : Nat) (draw : Draw) (call : Call), event = .call index draw →
        after.calls[index]? = some call → call.activity.committed = false) :
          Effect state event after
  | created {id : Uuid} (found : state.calls[index]? =
    some ⟨caller, .create (.inserted id row apiKey)⟩)
      (rows : after.apiKeys.row = Function.update state.apiKeys.row id (some row))
      (answer : after.calls[index]? =
        some ⟨caller, .create (.ended (.created (CreateApiKey.body id row apiKey)))⟩) :
      Effect state (.call index draw) after
  | revoked {id : Uuid} (found : state.calls[index]? = some ⟨caller, .revoke id (.updated row)⟩)
      (rows : after.apiKeys.row = Function.update state.apiKeys.row id (some row))
      (answer : after.calls[index]? =
        some ⟨caller, .revoke id (.ended (.revoked { row.val.listBody id with }))⟩) :
      Effect state (.call index draw) after

section Steps

variable {sha512 : String → String} {state after : State} {event : State.Event}

/-- A statement of a transaction that goes on, or that has written nothing. -/
private theorem quiet_of_step {index : Nat} {caller : Caller} {activity last : Activity}
    {draw : Draw}
    {next : ApiKeyTable} (sound : State.Sound sha512 state)
    (found : state.calls[index]? = some ⟨caller, activity⟩)
    (taken : activity.step sha512 index state.clock state.apiKeys caller draw = some (next, last))
    (silent : last.committed = false) (idle : activity.writes = [] ∨ last.writes ≠ []) :
    Effect state (.call index draw)
      { state with apiKeys := next, calls := state.calls.set index ⟨caller, last⟩ } := by
  have moves := Activity.step_moves sound.apiKeys taken
  refine .quiet ?_ ?_
  · funext id
    rcases idle with nothing | running
    · rcases moves.row_cases (sound.owned_call found) id with same | ⟨_, member, _⟩
      · exact same
      · rw [show activity.writes = [] from nothing] at member
        cases member
    · exact moves.row_of_written (sound.owned_call found) running id
  · rintro other drawn call acting entry
    cases acting
    obtain rfl := Option.some.inj ((Processes.set_self found).symm.trans entry)
    exact silent

theorem State.Moves.effect (moves : State.Moves sha512 state event after)
    (sound : State.Sound sha512 state) :
    Effect state event after := by
  cases moves with
  | tick => exact .quiet rfl (by rintro _ _ _ ⟨⟩)
  | arrive => exact .quiet rfl (by rintro _ _ _ ⟨⟩)
  | abort => exact .quiet (funext fun _ => Table.rollback_committed _) (by rintro _ _ _ ⟨⟩)
  | @call index next last draw caller activity found taken =>
    have quiet := quiet_of_step sound found taken
    have owned := sound.owned_call found
    cases activity with
    | create phase =>
      obtain ⟨after, moved, rfl⟩ := Processes.mapped_eq_some.mp taken
      cases phase with
      | validated name expiresAt =>
        simp only [CreateApiKey.step] at moved
        split at moved <;> cases moved <;> exact quiet rfl (.inl rfl)
      | begun now name expiresAt apiKey keyPrefix =>
        simp only [CreateApiKey.step] at moved
        split at moved <;> cases moved <;> exact quiet rfl (.inl rfl)
      | inserted id row apiKey =>
        cases moved
        exact .created found owned.commit_row (Processes.set_self found)
      | ended => cases moved
    | list phase =>
      obtain ⟨after, moved, rfl⟩ := Processes.mapped_eq_some.mp taken
      exact quiet rfl (.inl rfl)
    | get key phase =>
      obtain ⟨after, moved, rfl⟩ := Processes.mapped_eq_some.mp taken
      exact quiet rfl (.inl rfl)
    | revoke key phase =>
      obtain ⟨after, moved, rfl⟩ := Processes.mapped_eq_some.mp taken
      cases phase with
      | begun now =>
        simp only [RevokeApiKey.step] at moved
        split at moved <;> cases moved <;> exact quiet rfl (.inl rfl)
      | missed =>
        cases moved
        exact quiet rfl (.inl rfl)
      | updated row =>
        cases moved
        exact .revoked found owned.commit_row (Processes.set_self found)
      | ended => cases moved

end Steps

section Extension

variable {sha512 : String → String} {events : List State.Event} {state after : State}
    {event : State.Event}
variable {caller : Caller} {activity : Activity} {apiKey : String} {id workspaceId : Uuid}
    {expiresAt : Option Time}

theorem Answers.extend (answers : Answers sha512 events caller activity) (more : List State.Event) :
    Answers sha512 (events ++ more) caller activity := by
  obtain ⟨front, before, index, draw, middle, takes, entry⟩ := answers
  exact ⟨front, before, index, draw, middle, takes.extend more, entry⟩

theorem Returned.extend (returned : Returned sha512 events apiKey id workspaceId expiresAt)
    (more : List State.Event) :
      Returned sha512 (events ++ more) apiKey id workspaceId expiresAt := by
  obtain ⟨caller, body, answers, rest⟩ := returned
  exact ⟨caller, body, answers.extend more, rest⟩

theorem Withdrawn.extend (withdrawn : Withdrawn sha512 events id workspaceId)
    (more : List State.Event) :
    Withdrawn sha512 (events ++ more) id workspaceId := by
  obtain ⟨caller, body, answers, rest⟩ := withdrawn
  exact ⟨caller, body, answers.extend more, rest⟩

theorem answers_last {index : Nat} {draw : Draw} (run : Run (State.system sha512) Any events state)
    (taken : State.step sha512 state (.call index draw) = some after)
    (entry : after.calls[index]? = some ⟨caller, activity⟩) :
    Answers sha512 (events ++ [.call index draw]) caller activity :=
  ⟨events, state, index, draw, after, .last run taken, entry⟩

/-- An answer of a longer run is an earlier one or that of the last step. -/
theorem Answers.of_concat (answers : Answers sha512 (events ++ [event]) caller activity)
    (run : Run (State.system sha512) Any events state)
    (taken : State.step sha512 state event = some after) :
    Answers sha512 events caller activity ∨
      ∃ index draw, event = .call index draw ∧ after.calls[index]? = some ⟨caller, activity⟩ := by
  obtain ⟨front, before, index, draw, finish, takes, entry⟩ := answers
  rcases takes.of_concat run with earlier | ⟨rfl, rfl, rfl⟩
  · exact .inl ⟨front, before, index, draw, finish, earlier, entry⟩
  · obtain rfl : finish = after := Option.some.inj (takes.taken.symm.trans taken)
    exact .inr ⟨index, draw, rfl, entry⟩

end Extension

/-- The rows and the answers agree. -/
structure History (sha512 : String → String) (events : List State.Event)
    (state : State) : Prop where
  recorded : ∀ id row, state.apiKeys.row id = some row →
    ∃ apiKey, Returned sha512 events apiKey id row.val.workspaceId row.val.expiresAt ∧
      Stores sha512 apiKey row.val.workspaceId row.val.expiresAt row
  revoked : ∀ id row, state.apiKeys.row id = some row → row.val.status = .revoked →
    Withdrawn sha512 events id row.val.workspaceId
  returned : ∀ apiKey id workspaceId expiresAt,
    Returned sha512 events apiKey id workspaceId expiresAt →
    ∃ row, state.apiKeys.row id = some row ∧ Stores sha512 apiKey workspaceId expiresAt row
  withdrawn : ∀ id workspaceId, Withdrawn sha512 events id workspaceId →
    ∃ row, state.apiKeys.row id = some row ∧ row.val.status = .revoked

namespace History

variable {sha512 : String → String} {events : List State.Event} {state after : State}
    {event : State.Event}

theorem init : History sha512 [] State.init := by
  have silent (caller : Caller) (activity : Activity) : ¬ Answers sha512 [] caller activity := by
    rintro ⟨front, before, index, draw, after, takes, _⟩
    simpa using takes.length_lt
  constructor
  · rintro id row ⟨⟩
  · rintro id row ⟨⟩
  · rintro apiKey id workspaceId expiresAt ⟨caller, body, answers, _⟩
    exact absurd answers (silent _ _)
  · rintro id workspaceId ⟨caller, body, answers, _⟩
    exact absurd answers (silent _ _)

/-- A key that is about to be committed has no row yet. -/
theorem unstored (sound : State.Sound sha512 state) {index : Nat} {caller : Caller} {id : Uuid}
    {row : StoredApiKey}
    {apiKey : String} (found : state.calls[index]? =
      some ⟨caller, .create (.inserted id row apiKey)⟩) :
    state.apiKeys.row id = none := by
  cases present : state.apiKeys.row id with
  | none => rfl
  | some stored =>
    have held := (sound.owned_call found id (some row)).mpr (List.mem_singleton.mpr rfl)
    obtain ⟨_, now, same⟩ := sound.apiKeys.changes id index _ stored held present
    obtain rfl := Option.some.inj same
    have active := (sound.calls _ _ found).2
    cases active

theorem after_quiet (history : History sha512 events state)
    (run : Run (State.system sha512) Any events state)
    (taken : State.step sha512 state event = some after)
    (rows : after.apiKeys.row = state.apiKeys.row)
    (silent : ∀ (index : Nat) (draw : Draw) (call : Call), event = .call index draw →
      after.calls[index]? = some call → call.activity.committed = false) :
    History sha512 (events ++ [event]) after := by
  constructor
  · intro id row present
    rw [rows] at present
    obtain ⟨apiKey, returned, stores⟩ := history.recorded id row present
    exact ⟨apiKey, returned.extend _, stores⟩
  · intro id row present revoked
    rw [rows] at present
    exact (history.revoked id row present revoked).extend _
  · rintro apiKey id workspaceId expiresAt ⟨caller, body, answers, rest⟩
    rw [rows]
    rcases answers.of_concat run taken with earlier | ⟨index, draw, acting, entry⟩
    · exact history.returned _ _ _ _ ⟨caller, body, earlier, rest⟩
    · cases silent index draw _ acting entry
  · rintro id workspaceId ⟨caller, body, answers, rest⟩
    rw [rows]
    rcases answers.of_concat run taken with earlier | ⟨index, draw, acting, entry⟩
    · exact history.withdrawn _ _ ⟨caller, body, earlier, rest⟩
    · cases silent index draw _ acting entry

section Commits

variable {index : Nat} {caller : Caller} {id : Uuid} {row : StoredApiKey} {draw : Draw}
    {apiKey : String}

theorem after_create (history : History sha512 events state)
    (run : Run (State.system sha512) Any events state)
    (sound : State.Sound sha512 state)
    (taken : State.step sha512 state (.call index draw) = some after)
    (found : state.calls[index]? = some ⟨caller, .create (.inserted id row apiKey)⟩)
    (rows : after.apiKeys.row = Function.update state.apiKeys.row id (some row))
    (answer : after.calls[index]? =
      some ⟨caller, .create (.ended (.created (CreateApiKey.body id row apiKey)))⟩) :
    History sha512 (events ++ [.call index draw]) after := by
  obtain ⟨stores, active⟩ := sound.calls _ _ found
  have fresh := unstored sound found
  have answers := answers_last run taken answer
  constructor
  · intro other stored present
    rw [rows] at present
    by_cases same : other = id
    · subst same
      obtain rfl : row = stored := by simpa using present
      refine ⟨apiKey, ⟨caller, _, answers, rfl, rfl, stores.workspaceId.symm, rfl⟩, ?_⟩
      rw [stores.workspaceId]
      exact stores
    · rw [Function.update_of_ne same] at present
      obtain ⟨apiKey, returned, stores⟩ := history.recorded other stored present
      exact ⟨apiKey, returned.extend _, stores⟩
  · intro other stored present revoked
    rw [rows] at present
    by_cases same : other = id
    · subst same
      obtain rfl : row = stored := by simpa using present
      simp [active] at revoked
    · rw [Function.update_of_ne same] at present
      exact (history.revoked other stored present revoked).extend _
  · rintro other key workspaceId expiresAt ⟨creator, body, created, rest⟩
    rw [rows]
    rcases created.of_concat run taken with earlier | ⟨_, _, acting, entry⟩
    · obtain ⟨stored, present, kept⟩ := history.returned _ _ _ _ ⟨creator, body, earlier, rest⟩
      have apart : key ≠ id := by
        rintro rfl
        rw [fresh] at present
        cases present
      exact ⟨stored, by rw [Function.update_of_ne apart]; exact present, kept⟩
    · cases acting
      cases answer.symm.trans entry
      obtain ⟨same, rfl, rfl, rfl⟩ := rest
      obtain rfl : apiKey = other := Option.some.inj same
      exact ⟨row, Function.update_self .., stores⟩
  · rintro other workspaceId ⟨creator, body, withdrawn, rest⟩
    rw [rows]
    rcases withdrawn.of_concat run taken with earlier | ⟨_, _, acting, entry⟩
    · obtain ⟨stored, present, revoked⟩ := history.withdrawn _ _ ⟨creator, body, earlier, rest⟩
      have apart : other ≠ id := by
        rintro rfl
        rw [fresh] at present
        cases present
      exact ⟨stored, by rw [Function.update_of_ne apart]; exact present, revoked⟩
    · cases acting
      cases answer.symm.trans entry

theorem after_revoke (history : History sha512 events state)
    (run : Run (State.system sha512) Any events state)
    (sound : State.Sound sha512 state)
    (taken : State.step sha512 state (.call index draw) = some after)
    (found : state.calls[index]? = some ⟨caller, .revoke id (.updated row)⟩)
    (rows : after.apiKeys.row = Function.update state.apiKeys.row id (some row))
    (answer : after.calls[index]? =
      some ⟨caller, .revoke id (.ended (.revoked { row.val.listBody id with }))⟩) :
    History sha512 (events ++ [.call index draw]) after := by
  obtain ⟨stored, now, present, own, rfl⟩ := sound.calls _ _ found
  have answers := answers_last run taken answer
  -- the new version of the row is that of the same key
  have kept : ∀ apiKey workspaceId expiresAt, Stores sha512 apiKey workspaceId expiresAt stored →
      Stores sha512 apiKey workspaceId expiresAt (ApiKeys.revoked now stored) :=
    fun _ _ _ stores => ⟨stores.workspaceId, stores.expiresAt, stores.keyPrefix, stores.keyHash⟩
  constructor
  · intro other version found
    rw [rows] at found
    by_cases same : other = id
    · subst same
      obtain rfl : ApiKeys.revoked now stored = version := by simpa using found
      obtain ⟨apiKey, returned, stores⟩ := history.recorded other stored present
      exact ⟨apiKey, returned.extend _, kept _ _ _ stores⟩
    · rw [Function.update_of_ne same] at found
      obtain ⟨apiKey, returned, stores⟩ := history.recorded other version found
      exact ⟨apiKey, returned.extend _, stores⟩
  · intro other version found ended
    rw [rows] at found
    by_cases same : other = id
    · subst same
      obtain rfl : ApiKeys.revoked now stored = version := by simpa using found
      exact ⟨caller, _, answers, own.symm⟩
    · rw [Function.update_of_ne same] at found
      exact (history.revoked other version found ended).extend _
  · rintro apiKey other workspaceId expiresAt ⟨creator, body, created, rest⟩
    rw [rows]
    rcases created.of_concat run taken with earlier | ⟨_, _, acting, entry⟩
    · obtain ⟨version, there, stores⟩ := history.returned _ _ _ _ ⟨creator, body, earlier, rest⟩
      by_cases same : other = id
      · subst same
        obtain rfl := Option.some.inj (present.symm.trans there)
        exact ⟨_, Function.update_self .., kept _ _ _ stores⟩
      · exact ⟨version, by rw [Function.update_of_ne same]; exact there, stores⟩
    · cases acting
      cases answer.symm.trans entry
  · rintro other workspaceId ⟨creator, body, withdrawn, rest⟩
    rw [rows]
    by_cases same : other = id
    · subst same
      exact ⟨_, Function.update_self .., rfl⟩
    · rw [Function.update_of_ne same]
      rcases withdrawn.of_concat run taken with earlier | ⟨_, _, acting, entry⟩
      · exact history.withdrawn _ _ ⟨creator, body, earlier, rest⟩
      · cases acting
        cases answer.symm.trans entry
        exact absurd rfl same

end Commits

theorem step (history : History sha512 events state)
    (run : Run (State.system sha512) Any events state)
    (sound : State.Sound sha512 state) (taken : State.step sha512 state event = some after) :
    History sha512 (events ++ [event]) after := by
  cases (State.step_moves taken).effect sound with
  | quiet rows silent => exact history.after_quiet run taken rows silent
  | created found rows answer => exact history.after_create run sound taken found rows answer
  | revoked found rows answer => exact history.after_revoke run sound taken found rows answer

theorem of_run (run : Run (State.system sha512) Any events state) :
    History sha512 events state := by
  induction run with
  | start => exact init
  | step earlier permitted taken ih => exact ih.step earlier (State.run_sound earlier) taken

end History

end Relays.ApiKeys
