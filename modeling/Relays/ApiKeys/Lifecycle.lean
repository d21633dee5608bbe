import Relays.ApiKeys.History

/-! The life of an API key: the guard accepts it from the create that returned it until its own
workspace revokes it or it expires, and no other workspace sees or touches its row. -/

namespace Relays.ApiKeys

open ReadCommitted Transition

/-- The keys that an answer describes. -/
def Outcome.ids : Outcome → List Uuid
  | .created body | .revoked body => [body.id]
  | .listed bodies => bodies.map fun body => body.id
  | .shown body => [body.id]
  | .error _ | .unhandled => []

/-- What a run with these events keeps of every key, up to the state it ends in. -/
structure KeyLifecycle (sha512 : String → String) (events : List State.Event)
    (state : State) : Prop where
  accepted : ∀ now apiKey id workspaceId,
    state.guard sha512 now (some ("Bearer " ++ apiKey)) = .authenticated id workspaceId ↔
      ∃ expiresAt, Returned sha512 events apiKey id workspaceId expiresAt ∧
        ¬ Withdrawn sha512 events id workspaceId ∧ ∀ time ∈ expiresAt, now < time
  once : ∀ apiKey one two first second expiry other,
    Returned sha512 events apiKey one first expiry →
    Returned sha512 events apiKey two second other → one = two ∧ first = second ∧ expiry = other
  apart : ∀ apiKey id workspaceId expiresAt front before index draw after caller activity,
    Returned sha512 events apiKey id workspaceId expiresAt →
    Takes (State.system sha512) events front before (.call index draw) after →
    after.calls[index]? = some ⟨caller, activity⟩ → caller.workspaceId ≠ workspaceId →
    after.apiKeys.row id = before.apiKeys.row id ∧ ∀ outcome ∈ activity.outcome, id ∉ outcome.ids

section Rows

variable {sha512 : String → String} {apiKeys next : ApiKeyTable} {keyPrefix : String}
    {id workspaceId : Uuid}
variable {row : StoredApiKey}

theorem getApiKeyByPrefix_eq_some (sound : Relation.Sound ApiKey.clash KeyChanged apiKeys) :
    getApiKeyByPrefix apiKeys keyPrefix = some (id, row) ↔
      apiKeys.row id = some row ∧ row.val.keyPrefix = keyPrefix := by
  unfold getApiKeyByPrefix
  constructor
  · intro first
    obtain ⟨_, present, matched⟩ := Relation.mem_select.mp (List.mem_of_mem_head? first)
    exact ⟨present, by simpa using matched⟩
  · rintro ⟨present, named⟩
    have listed : (id, row) ∈ apiKeys.select fun row => row.val.keyPrefix = keyPrefix := by
      refine Relation.mem_select.mpr ⟨sound.member ?_, present, by simpa using named⟩
      intro nothing
      simp [Relation.row, nothing] at present
    cases found : (apiKeys.select fun row => row.val.keyPrefix = keyPrefix).head? with
    | none =>
      rw [List.head?_eq_none_iff.mp found] at listed
      cases listed
    | some entry =>
      obtain ⟨other, stored⟩ := entry
      obtain ⟨_, there, matched⟩ := Relation.mem_select.mp (List.mem_of_mem_head? found)
      have same : stored.val.keyPrefix = keyPrefix := by simpa using matched
      obtain rfl : other = id := by
        by_contra different
        have quiet := sound.distinct other id stored row different there present
        rw [ApiKey.clash_of_keyPrefix (same.trans named.symm)] at quiet
        cases quiet
      rw [Option.some.inj (there.symm.trans present)]

/-- The rows that a call describes are of its caller's workspace. -/
theorem Activity.step_describes {tx : Nat} {clock : Time} {caller : Caller} {draw : Draw}
    {activity last : Activity}
    {outcome : Outcome} (owned : apiKeys.Owned tx activity.writes)
    (holds : Call.Holds sha512 apiKeys ⟨caller, activity⟩)
    (taken : activity.step sha512 tx clock apiKeys caller draw = some (next, last))
    (ended : last.outcome = some outcome) (described : id ∈ outcome.ids) :
    ∃ row, next.row id = some row ∧ row.val.workspaceId = caller.workspaceId := by
  cases activity with
  | create phase =>
    obtain ⟨after, moved, rfl⟩ := Processes.mapped_eq_some.mp taken
    cases phase with
    | inserted id row apiKey =>
      cases moved
      cases ended
      obtain rfl := List.mem_singleton.mp described
      refine ⟨row, ?_, holds.1.workspaceId⟩
      rw [owned.commit_row]
      exact Function.update_self ..
    | _ =>
      simp only [CreateApiKey.step] at moved
      try split at moved
      all_goals
        cases moved
        try cases ended
        try cases described
  | list phase =>
    obtain ⟨after, moved, rfl⟩ := Processes.mapped_eq_some.mp taken
    cases phase with
    | begun =>
      cases moved
      cases ended
      obtain ⟨body, member, rfl⟩ := List.mem_map.mp described
      obtain ⟨⟨key, row⟩, sorted, rfl⟩ := List.mem_map.mp member
      obtain ⟨_, present, own⟩ :=
        Relation.mem_select.mp ((List.mem_insertionSort newestFirst).mp sorted)
      exact ⟨row, present, by simpa using own⟩
    | ended => cases moved
  | get key phase =>
    obtain ⟨after, moved, rfl⟩ := Processes.mapped_eq_some.mp taken
    cases phase with
    | begun =>
      simp only [GetApiKey.step] at moved
      split at moved
      · cases moved
        cases ended
        cases described
      · rename_i row found
        cases moved
        cases ended
        obtain rfl := List.mem_singleton.mp described
        obtain ⟨present, own⟩ := Option.filter_eq_some_iff.mp found
        exact ⟨row, present, by simpa using own⟩
    | ended => cases moved
  | revoke key phase =>
    obtain ⟨after, moved, rfl⟩ := Processes.mapped_eq_some.mp taken
    cases phase with
    | updated row =>
      cases moved
      cases ended
      obtain rfl := List.mem_singleton.mp described
      obtain ⟨stored, now, _, own, rfl⟩ := holds
      refine ⟨ApiKeys.revoked now stored, ?_, own⟩
      rw [owned.commit_row]
      exact Function.update_self ..
    | _ =>
      simp only [RevokeApiKey.step] at moved
      try split at moved
      all_goals
        cases moved
        try cases ended
        try cases described

end Rows

section Steps

variable {sha512 : String → String} {state after : State} {event : State.Event}
    {id workspaceId : Uuid}

/-- The key is a key of this workspace. -/
def OwnedBy (state : State) (id workspaceId : Uuid) : Prop :=
  ∃ row, state.apiKeys.row id = some row ∧ row.val.workspaceId = workspaceId

/-- A key stays with its workspace. -/
theorem Effect.ownedBy (effect : Effect state event after) (sound : State.Sound sha512 state)
    (owned : OwnedBy state id workspaceId) : OwnedBy after id workspaceId := by
  obtain ⟨stored, present, own⟩ := owned
  cases effect with
  | quiet rows silent => exact ⟨stored, by rw [rows]; exact present, own⟩
  | @created index row draw _ caller apiKey other found rows answer =>
    have apart : id ≠ other := by
      rintro rfl
      rw [History.unstored sound found] at present
      cases present
    exact ⟨stored, by rw [rows, Function.update_of_ne apart]; exact present, own⟩
  | @revoked index row draw _ caller other found rows answer =>
    by_cases same : id = other
    · subst same
      obtain ⟨version, now, there, _, rfl⟩ := sound.calls _ _ found
      obtain rfl := Option.some.inj (present.symm.trans there)
      exact ⟨ApiKeys.revoked now stored, by rw [rows, Function.update_self], own⟩
    · exact ⟨stored, by rw [rows, Function.update_of_ne same]; exact present, own⟩

/-- A row that a call changes or describes is of its caller's workspace. -/
theorem State.Moves.touched {index : Nat} {draw : Draw} {caller : Caller} {activity : Activity}
    (moves : State.Moves sha512 state (.call index draw) after) (sound : State.Sound sha512 state)
    (entry : after.calls[index]? = some ⟨caller, activity⟩)
    (touched : after.apiKeys.row id ≠ state.apiKeys.row id ∨ ∃ outcome ∈ activity.outcome,
      id ∈ outcome.ids) :
    OwnedBy after id caller.workspaceId := by
  rcases touched with changed | ⟨outcome, ended, described⟩
  · cases moves.effect sound with
    | quiet rows silent => exact absurd (congrFun rows id) changed
    | @created _ row _ _ _ apiKey other found rows answer =>
      obtain rfl : id = other := by
        by_contra different
        exact changed (by rw [rows, Function.update_of_ne different])
      cases answer.symm.trans entry
      exact ⟨row, by rw [rows, Function.update_self], (sound.calls _ _ found).1.workspaceId⟩
    | @revoked _ row _ _ _ other found rows answer =>
      obtain rfl : id = other := by
        by_contra different
        exact changed (by rw [rows, Function.update_of_ne different])
      cases answer.symm.trans entry
      obtain ⟨stored, now, _, own, rfl⟩ := sound.calls _ _ found
      exact ⟨ApiKeys.revoked now stored, by rw [rows, Function.update_self], own⟩
  · cases moves with
    | call found taken =>
      cases (Processes.set_self found).symm.trans entry
      exact Activity.step_describes (sound.owned_call found)
        (sound.calls _ _ found) taken ended described

end Steps

theorem key_lifecycle {sha512 : String → String} {events : List State.Event} {state : State}
    (injective : Function.Injective sha512) (run : Run (State.system sha512) Any events state) :
    KeyLifecycle sha512 events state := by
  have history := History.of_run run
  have sound := (State.run_sound run).apiKeys
  constructor
  · intro now apiKey id workspaceId
    rw [State.guard, authenticateApiKey_authenticated]
    constructor
    · rintro ⟨presented, keyPrefix, bearer, extracted, checked⟩
      obtain ⟨rfl, _⟩ := presentedKey_bearer_eq_ok.mp bearer
      obtain ⟨row, found, rfl, hashed, active, valid⟩ := checkApiKey_authenticated.mp checked
      obtain ⟨present, _⟩ := (getApiKeyByPrefix_eq_some sound).mp found
      obtain ⟨original, returned, stores⟩ := history.recorded id row present
      obtain rfl : original = presented := injective (stores.keyHash.symm.trans hashed)
      refine ⟨row.val.expiresAt, returned, ?_, valid⟩
      intro withdrawn
      obtain ⟨stored, there, revoked⟩ := history.withdrawn _ _ withdrawn
      obtain rfl := Option.some.inj (present.symm.trans there)
      rw [active] at revoked
      cases revoked
    · rintro ⟨expiresAt, returned, kept, valid⟩
      obtain ⟨row, present, stores⟩ := history.returned _ _ _ _ returned
      obtain ⟨long, _⟩ := extractPrefix_eq_ok.mp stores.keyPrefix
      refine ⟨apiKey, row.val.keyPrefix, presentedKey_bearer_eq_ok.mpr ⟨rfl, ?_⟩,
        stores.keyPrefix, ?_⟩
      · rintro rfl
        exact absurd long (by decide)
      · have found := (getApiKeyByPrefix_eq_some sound).mpr ⟨present, rfl⟩
        refine checkApiKey_authenticated.mpr ⟨row, found, stores.workspaceId, stores.keyHash,
          ?_, ?_⟩
        · by_contra inactive
          have revoked : row.val.status = .revoked := by
            cases status : row.val.status with
            | active => exact absurd status inactive
            | revoked => rfl
          exact kept (stores.workspaceId ▸ history.revoked id row present revoked)
        · rw [stores.expiresAt]
          exact valid
  · intro apiKey one two first second expiry other left right
    obtain ⟨row, present, stores⟩ := history.returned _ _ _ _ left
    obtain ⟨row', present', stores'⟩ := history.returned _ _ _ _ right
    have named : row'.val.keyPrefix = row.val.keyPrefix :=
      Except.ok.inj (stores'.keyPrefix.symm.trans stores.keyPrefix)
    have found := (getApiKeyByPrefix_eq_some sound).mpr ⟨present, rfl⟩
    cases found.symm.trans ((getApiKeyByPrefix_eq_some sound).mpr ⟨present', named⟩)
    exact ⟨rfl, stores.workspaceId.symm.trans stores'.workspaceId,
      stores.expiresAt.symm.trans stores'.expiresAt⟩
  · intro apiKey id workspaceId expiresAt front before index draw after caller activity returned
      takes entry foreign
    have untouched : ¬ (after.apiKeys.row id ≠ before.apiKeys.row id ∨
        ∃ outcome ∈ activity.outcome, id ∈ outcome.ids) := by
      intro touched
      have moves : State.Moves sha512 before (.call index draw) after :=
        State.step_moves takes.taken
      have owned := moves.touched (State.run_sound takes.reached) entry touched
      obtain ⟨back, split⟩ := takes.split
      have whole : events = (front ++ [.call index draw]) ++ back := by simpa using split
      have final : OwnedBy state id caller.workspaceId := by
        apply run.keeps whole takes.run owned
        intro earlier middle event next ran held _ taken
        exact ((State.step_moves taken).effect (State.run_sound ran)).ownedBy
          (State.run_sound ran) held
      obtain ⟨row, present, own⟩ := final
      obtain ⟨stored, there, stores⟩ := history.returned _ _ _ _ returned
      obtain rfl := Option.some.inj (present.symm.trans there)
      exact foreign (own.symm.trans stores.workspaceId)
    rw [not_or] at untouched
    refine ⟨not_not.mp untouched.1, ?_⟩
    intro outcome ended described
    exact untouched.2 ⟨outcome, ended, described⟩

/-- Two workspaces create keys with the same name. The second tries to revoke the key of the first,
and then revokes its own. -/
def tenants : List State.Event :=
  [.arrive ⟨7, 70⟩ (.create " production " none), .call 0 ⟨0, "a1b2c3d4e5f6"⟩, .call 0 ⟨1, ""⟩,
    .call 0 ⟨0, ""⟩,
    .arrive ⟨8, 80⟩ (.create "production" (some 9)), .call 1 ⟨0, "g7h8i9j0k1l2"⟩, .call 1 ⟨2, ""⟩,
      .call 1 ⟨0, ""⟩,
    .arrive ⟨8, 80⟩ (.revoke 1), .call 2 ⟨0, ""⟩, .call 2 ⟨0, ""⟩,
    .arrive ⟨8, 80⟩ (.revoke 2), .call 3 ⟨0, ""⟩, .call 3 ⟨0, ""⟩]

private def servesFirst (state : State) : Bool :=
  state.guard id 5 (some "Bearer rly_a1b2c3d4e5f6") = .authenticated 1 7 &&
    state.guard id 5 (some "Bearer rly_g7h8i9j0k1l2") =
      .rejected (unauthorized "API Key has been revoked")

theorem key_lifecycle_tenants : ∃ state, Run (State.system id) Any tenants state ∧
    servesFirst state = true ∧
    KeyLifecycle id tenants state := by
  obtain ⟨state, run, observed⟩ :=
    Run.exists_of_execute (State.system id) Any tenants servesFirst (by decide)
  exact ⟨state, run, observed, key_lifecycle Function.injective_id run⟩

end Relays.ApiKeys
