import Relays.Notifications.Records

/-! The provider of the tests: it answers as the metadata of the configured notification says. -/

namespace Relays

namespace Json

/-- What Python's `or` keeps. -/
def truthy : Json Text → Bool
  | .null => false
  | .bool value => value
  | .int value => value ≠ 0
  | .float literal => literal ≠ "0.0" && literal ≠ "-0.0"
  | .str value => value ≠ ("" : Text)
  | .arr items => !items.isEmpty
  | .obj members => !members.isEmpty

/-- `value or default`. -/
def orElse (value default : Json Text) : Json Text := if value.truthy then value else default

end Json

inductive DeliveryException where
  | notConfigured
  | unknownOutcome (outcome : Json Text)
  | timeoutException
  | connectError
  | attributeError
  | typeError
  | keyError

def DeliveryStatus.value : DeliveryStatus → String
  | .success => "success"
  | .temporaryFailure => "temporary_failure"
  | .permanentFailure => "permanent_failure"

structure FakeProvider where
  notification : Option Notification := none

namespace FakeProvider

def configure (notification : Notification) : FakeProvider := ⟨some notification⟩

/-- `value.get(key)`, of a dict only. -/
def get (value : Json Text) (key : Text) : Except DeliveryException (Option (Json Text)) :=
  match value with
  | .obj members => .ok (members.lookup key)
  | _ => .error .attributeError

/-- The entry of the sequence for this attempt, `"success"` after its end. -/
def outcome (sequence : Json Text) (attempt : Nat) : Except DeliveryException (Json Text) :=
  match sequence with
  | .arr items => .ok (items.getD attempt (.str DeliveryStatus.success.value))
  | .str text =>
    match text.points[attempt]? with
    | none => .ok (.str DeliveryStatus.success.value)
    | some point => .ok (.str ⟨[point]⟩)
  | .obj members =>
    if members.length ≤ attempt then .ok (.str DeliveryStatus.success.value) else .error .keyError
  | _ => .error .typeError

def response (attempt : Nat) : Json Text :=
  .obj [("fake", .bool true), ("attempt", .int attempt),
    ("outcome", .str DeliveryStatus.success.value)]

theorem success_storable (attempt : Nat) :
    columnsStorable [none, none, some (Text.ofString ("fake-" ++ toString attempt))]
      (some (response attempt)) = true := by
  have id : (Text.ofString ("fake-" ++ toString attempt)).storable = true := by
    rw [Text.storable_ofString, String.toList_append, List.mem_append, not_or]
    exact ⟨by decide, Text.repr_plain attempt⟩
  have texts : ["fake", "attempt", "outcome", "success"].all
      (fun text => (Text.ofString text).jsonStorable) = true := by decide
  simp only [List.all_cons, List.all_nil, Bool.and_true, Bool.and_eq_true] at texts
  obtain ⟨fake, attempted, outcome, success⟩ := texts
  simp only [columnsStorable, List.all_cons, List.all_nil, Option.all_none, Option.all_some, id,
    response, Json.storable, Json.storableMembers, DeliveryStatus.value, fake, attempted, outcome,
    success, Bool.and_true]

/-- The result for an outcome, or what is raised. -/
def answer (attempt : Nat) (outcome : Json Text) : Except DeliveryException ProviderResult :=
  match outcome with
  | .str text =>
    if text = DeliveryStatus.success.value then .ok {
      status := .success
      provider := .fake
      providerMessageId := some (Text.ofString ("fake-" ++ toString attempt))
      rawProviderResponse := some (response attempt)
      successStorable := fun _ => success_storable attempt }
    else if text = DeliveryStatus.temporaryFailure.value then .ok {
      status := .temporaryFailure
      provider := .fake
      errorMessage := some "Simulated temporary failure."
      successStorable := nofun }
    else if text = DeliveryStatus.permanentFailure.value then .ok {
      status := .permanentFailure
      provider := .fake
      errorMessage := some "Simulated permanent failure."
      successStorable := nofun }
    else if text = ("timeout" : Text) then .error .timeoutException
    else if text = ("network_error" : Text) then .error .connectError
    else .error (.unknownOutcome outcome)
  | _ => .error (.unknownOutcome outcome)

def send (provider : FakeProvider) : Except DeliveryException ProviderResult := do
  match provider.notification with
  | none => throw .notConfigured
  | some notification =>
    let testing ← get (notification.metadata.orElse (.obj [])) "testing"
    let sequence ← get ((testing.getD .null).orElse (.obj [])) "sequence"
    answer notification.attemptCount (← outcome (sequence.getD (.arr [])) notification.attemptCount)

/-- The metadata that scripts these results. -/
def Scripted (sequence : List DeliveryStatus) (metadata : Json Text) : Prop :=
  ∃ members tests, metadata = .obj members ∧
    members.lookup (Text.ofString "testing") = some (.obj tests) ∧
    tests.lookup (Text.ofString "sequence") =
      some (.arr (sequence.map fun status => .str (Text.ofString status.value)))

/-- The script, with a success after its end. -/
def scripted (sequence : List DeliveryStatus) (attempt : Nat) : DeliveryStatus :=
  sequence.getD attempt .success

theorem answer_value (attempt : Nat) (status : DeliveryStatus) :
    ∃ result, answer attempt (.str status.value) = .ok result ∧ result.status = status := by
  cases status <;> exact ⟨_, rfl, rfl⟩

/-- What the provider answers can be recorded. -/
theorem answer_storable {attempt : Nat} {outcome : Json Text} {result : ProviderResult}
    (answered : answer attempt outcome = .ok result) : result.storable = true := by
  have texts : ["Simulated temporary failure.", "Simulated permanent failure."].all
      (fun text => (Text.ofString text).storable) = true := by decide
  simp only [List.all_cons, List.all_nil, Bool.and_true, Bool.and_eq_true] at texts
  unfold answer at answered
  split at answered
  · split_ifs at answered
    · obtain rfl := Except.ok.inj answered
      exact success_storable attempt
    · obtain rfl := Except.ok.inj answered
      simp [ProviderResult.storable, columnsStorable, texts.1]
    · obtain rfl := Except.ok.inj answered
      simp [ProviderResult.storable, columnsStorable, texts.2]
  · cases answered

theorem send_scripted {sequence : List DeliveryStatus} {notification : Notification}
    (scripts : Scripted sequence notification.metadata) :
    ∃ result, (configure notification).send = .ok result ∧
      result.status = scripted sequence notification.attemptCount ∧ result.storable = true := by
  obtain ⟨members, tests, metadata, testing, listed⟩ := scripts
  have filled {fields : List (Text × Json Text)} {key : Text} {value : Json Text}
      (found : fields.lookup key = some value) :
      (Json.obj fields).orElse (.obj []) = .obj fields := by
    cases fields with
    | nil => cases found
    | cons field rest => rfl
  have named : outcome (.arr (sequence.map fun status => .str (Text.ofString status.value)))
      notification.attemptCount =
      .ok (.str (scripted sequence notification.attemptCount).value) := by
    simp only [outcome, scripted, List.getD_eq_getElem?_getD, List.getElem?_map]
    cases sequence[notification.attemptCount]? <;> rfl
  obtain ⟨result, answered, status⟩ :=
    answer_value notification.attemptCount (scripted sequence notification.attemptCount)
  refine ⟨result, ?_, status, answer_storable answered⟩
  simp only [send, configure, metadata, filled testing, get, testing, bind, Except.bind,
    Option.getD_some, filled listed, listed, named, answered]

end FakeProvider

end Relays
