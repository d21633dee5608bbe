import Relays.Platform.Schema

/-! Where an email comes from. Behind everything that the provider is asked to send stands a request
with an API key, behind the key the call that has created it, and behind that call its signed-in
owner. -/

namespace Relays.Platform

open ReadCommitted Transition

variable {settings : Settings} {platform after before : Platform} {events : List Event}

section Chain

variable (settings : Settings) (events : List Event)

/-- The owner of the workspace has signed in, and has been given this key by the create that stored
it. -/
def Issued (apiKeyId workspaceId : Uuid) (keyHash : String) : Prop :=
  ∃ front before index draw after caller body text,
    Takes (system settings) events front before (.apiKeys (.call index draw)) after ∧
    after.apiKeys.calls[index]? = some ⟨caller, .create (.ended (.created body))⟩ ∧
      body.id = apiKeyId ∧
    body.apiKey = some text ∧ hashApiKey settings.auth.sha512 text = keyHash ∧
      caller.workspaceId = workspaceId ∧
    Admitted settings (front ++ [.apiKeys (.call index draw)]) caller ∧
      after.Owner workspaceId caller.userId

/-- A request has presented a key of the workspace, of which this is the row, active and unexpired
then. -/
def Authorized (apiKeyId workspaceId : Uuid) : Prop :=
  ∃ front before authorization after apiKey record,
    Takes (system settings) events front before (.authenticateApiKey authorization) after ∧
    presentedKey authorization = .ok apiKey ∧ before.apiKeys.apiKeys.row apiKeyId = some record ∧
    record.val.workspaceId = workspaceId ∧
      record.val.keyHash = hashApiKey settings.auth.sha512 apiKey ∧
    record.val.status = .active ∧ (∀ time ∈ record.val.expiresAt, before.apiKeys.clock < time) ∧
    Issued settings front apiKeyId workspaceId record.val.keyHash

end Chain

/-- Every key on record was handed to its signed-in owner. -/
theorem run_issued (run : Run (system settings) Any events platform) {id : Uuid}
    {record : StoredApiKey}
    (present : platform.apiKeys.apiKeys.row id = some record) :
    Issued settings events id record.val.workspaceId record.val.keyHash := by
  have history := ApiKeys.History.of_run ((keys settings).run run)
  obtain ⟨apiKey, ⟨caller, body, ⟨earlier, start, index, draw, finish, takes, answered⟩, text, rfl,
      own, _⟩, stores⟩ :=
    history.recorded id record present
  obtain ⟨front, before, event, after, outer, acted, _, _, rfl⟩ := (keys settings).takes run takes
  obtain rfl := keys_act_call acted
  have admitted := (run_guards outer.run).calls index _ answered
  refine ⟨front, before, index, draw, after, caller, body, apiKey, outer, answered, rfl, text,
    stores.keyHash.symm, own,
    admitted, ?_⟩
  rw [← own]
  exact Admitted.owner outer.run admitted

theorem Presented.authorized {client : Client} (presented : Presented settings events client) :
    Authorized settings events client.apiKeyId client.workspaceId := by
  obtain ⟨front, before, authorization, after, takes, accepted⟩ := presented
  obtain ⟨apiKey, keyPrefix, header, _, checked⟩ := authenticateApiKey_authenticated.mp accepted
  obtain ⟨record, found, own, hashed, active, valid⟩ := checkApiKey_authenticated.mp checked
  have sound := ApiKeys.State.run_sound ((keys settings).run takes.reached)
  obtain ⟨present, _⟩ := (ApiKeys.getApiKeyByPrefix_eq_some sound.apiKeys).mp found
  have issued := run_issued takes.reached present
  rw [own] at issued
  exact ⟨front, before, authorization, after, apiKey, record, takes, header, present, own, hashed,
    active, valid, issued⟩

/-- The provider is asked to send nothing but the email of a request, as it was posted and under the
notification that stands for it; the request had presented a valid key of the workspace, and that
key was created by the owner of the workspace, who had signed in. -/
theorem provenance (run : Run (system settings) Any events platform) {call : SendCall}
    (member : call ∈ platform.engine.world.calls) :
    ∃ (index : Nat) (request : Submission.Request) (stored : StoredNotification) (now : Time),
      platform.engine.requests[index]? = some request ∧
        request.arguments.request.payload = .email call.payload ∧
        platform.engine.world.row call.notificationId = some stored ∧
        stored.val.identity = (Submission.newNotification request.arguments now
          call.notificationId).identity ∧
        Authorized settings events request.arguments.apiKeyId request.arguments.workspaceId := by
  obtain ⟨index, request, stored, now, found, present, same, email⟩ :=
    Engine.run_call ((deliveries settings).run run) member
  exact ⟨index, request, stored, now, found, email, present, same,
    ((run_guards run).requests index request found).authorized⟩

/-- The owner of workspace 2 sends with key 9. -/
theorem provenance_serves : ∃ platform, Run (system sampleSettings) Any serves platform ∧
    platform.engine.world.calls.map (fun call => call.notificationId) = [7] ∧
    ∀ call ∈ platform.engine.world.calls, ∃ apiKeyId workspaceId,
      Authorized sampleSettings serves apiKeyId workspaceId := by
  obtain ⟨platform, run, _, sent⟩ := serves_sends
  refine ⟨platform, run, sent, ?_⟩
  intro call member
  obtain ⟨_, _, _, _, _, _, _, _, authorized⟩ := provenance run member
  exact ⟨_, _, authorized⟩

end Relays.Platform
