import Relays.Notifications.MailRelay

/-! The failure classification of the MailRelay provider, and the answers that it does not cover. -/

namespace Relays.MailRelay

/-- The classification of the documentation; it does not say what an informational answer or a
redirect is. -/
def classify : Exchange → Option DeliveryStatus
  | .error exception => if exception.isTransportError then some .temporaryFailure else none
  | .ok response =>
    if response.isSuccess then some .success
    else if response.statusCode ∈ mailrelayRetryableStatusCodes then some .temporaryFailure
    else if response.isError then some .permanentFailure
    else none

/-- What a provider posts and returns for a payload agrees with the classification. -/
structure Classified (payload : EmailPayload) (exchange : Exchange)
    (sent : List (Json Text) × Except Raised ProviderResult) : Prop where
  returns : ∃ result, sent.2 = .ok result
  unsupported : ∀ result, sent.2 = .ok result → given payload.cc = true ∨ given payload.bcc = true →
    result.status = .permanentFailure ∧ sent.1 = []
  answered : ∀ result status, sent.2 = .ok result → sent.1 ≠ [] → classify exchange = some status →
    result.status = status

/-- The body is a list of one item that passes the strict response model. -/
def Recognised (lax : Lax) (response : HttpResponse) : Prop :=
  ∃ item, response.json = some (.arr [item]) ∧
    (MailRelaySendResponse.modelValidate lax item).isSome = true

/-- There is a message to take from the answer, by its JSON or by its text. -/
def Readable (response : HttpResponse) : Prop :=
  (response.json.bind errorResponse).isSome = true ∨ response.text.isSome = true

/-- A success is recognised, and a failure that no retry mends has a message. -/
structure Understood (lax : Lax) (response : HttpResponse) : Prop where
  recognised : response.isSuccess = true → Recognised lax response
  readable : response.isError = true → response.statusCode ∉ mailrelayRetryableStatusCodes →
    Readable response

/-- Nothing is posted, or there is no answer, or it is understood. -/
def Covered (lax : Lax) (settings : Settings) (exchange : Exchange)
    (payload : EmailPayload) : Prop :=
  given payload.cc = true ∨ given payload.bcc = true ∨ validateEmail settings.senderEmail = false ∨
    ∀ response, exchange = .ok response → Understood lax response

/-- The exits of `MailRelayProvider.send`. -/
inductive Sent (lax : Lax) (settings : Settings) (exchange : Exchange) (payload : EmailPayload) :
    List (Json Text) → ProviderResult → Prop where
  | cc (copies : given payload.cc = true) : Sent lax settings exchange payload [] unsupportedCc
  | bcc (copies : given payload.bcc = true) : Sent lax settings exchange payload [] unsupportedBcc
  | unsendable (plain : given payload.cc = false ∧ given payload.bcc = false)
      (sender : validateEmail settings.senderEmail = false)
      (handled : except .validationError = .ok result) :
      Sent lax settings exchange payload [] result
  | accepted (plain : given payload.cc = false ∧ given payload.bcc = false)
      (sender : validateEmail settings.senderEmail = true)
      (built : buildMailrelayRequest settings payload = .ok request)
      (returned : (Client.send lax exchange request).2 = .ok accepted) :
      Sent lax settings exchange payload [request.modelDump] (success accepted)
  | raised (plain : given payload.cc = false ∧ given payload.bcc = false)
      (sender : validateEmail settings.senderEmail = true)
      (built : buildMailrelayRequest settings payload = .ok request)
      (failed : (Client.send lax exchange request).2 = .error raised)
      (handled : except raised = .ok result) :
      Sent lax settings exchange payload [request.modelDump] result

variable {lax : Lax} {settings : Settings} {exchange : Exchange} {payload : EmailPayload}
variable {request : MailRelaySendRequest} {response : HttpResponse}
    {accepted : MailRelaySendResponse}
variable {raised : Raised} {result : ProviderResult} {posted : List (Json Text)}

section Handlers

/-- The status that the `except` clauses give an exception. -/
def Raised.status : Raised → DeliveryStatus
  | .mailRelayAPIError statusCode _ =>
    if statusCode ∈ mailrelayRetryableStatusCodes then .temporaryFailure else .permanentFailure
  | _ => .temporaryFailure

/-- The last clause takes what the others leave. -/
theorem except_returns (raised : Raised) : ∃ code message, ∃ failed : raised.status ≠ .success,
    except raised = .ok (failure raised.status code message failed) := by
  cases raised with
  | mailRelayAPIError statusCode message =>
    by_cases retryable : statusCode ∈ mailrelayRetryableStatusCodes
    · simp only [except, handlers, List.findSome?_cons, onMailRelayAPIError, Raised.status,
        retryable, ↓reduceIte]
      exact ⟨_, _, by decide, rfl⟩
    · simp only [except, handlers, List.findSome?_cons, onMailRelayAPIError, Raised.status,
        retryable, ↓reduceIte]
      exact ⟨_, _, by decide, rfl⟩
  | http exception =>
    cases exception <;> exact ⟨_, _, (by intro same; cases same), rfl⟩
  | _ => exact ⟨_, _, (by intro same; cases same), rfl⟩

end Handlers

section Answers

theorem isSuccess_not_isError (success : response.isSuccess = true) : response.isError = false := by
  simp only [HttpResponse.isSuccess, HttpResponse.isError, decide_eq_true_eq,
    decide_eq_false_iff_not] at success ⊢
  omega

theorem retryable_isError (retryable : response.statusCode ∈ mailrelayRetryableStatusCodes) :
    response.isError = true := by
  have codes : ∀ code ∈ mailrelayRetryableStatusCodes, 400 ≤ code ∧ code ≤ 599 := by decide
  exact decide_eq_true (codes _ retryable)

theorem read_isError (failed : response.isError = true) :
    Client.read lax response = .error (raiseMailrelayError response) := by
  rw [Client.read, if_pos failed]

theorem raise_readable (readable : Readable response) :
    ∃ message, raiseMailrelayError response = .mailRelayAPIError response.statusCode message := by
  unfold raiseMailrelayError
  split
  · exact ⟨_, rfl⟩
  · exact ⟨_, rfl⟩
  · next silent unread =>
    rcases readable with found | found
    · simp [silent] at found
    · simp [unread] at found

theorem raise_status_retryable (retryable : response.statusCode ∈ mailrelayRetryableStatusCodes) :
    (raiseMailrelayError response).status = .temporaryFailure := by
  unfold raiseMailrelayError
  split
  · exact if_pos retryable
  · exact if_pos retryable
  · rfl

theorem raise_unreadable (unreadable : ¬ Readable response) :
    raiseMailrelayError response = .textDecodeError := by
  simp only [Readable, not_or, Bool.not_eq_true, Option.isSome_eq_false_iff,
    Option.isNone_iff_eq_none] at unreadable
  rw [raiseMailrelayError, unreadable.1, unreadable.2]

theorem read_recognised (answered : response.isError = false)
    (recognised : Recognised lax response) :
    ∃ accepted, Client.read lax response = .ok accepted := by
  obtain ⟨item, body, valid⟩ := recognised
  obtain ⟨accepted, validated⟩ := Option.isSome_iff_exists.mp valid
  exact ⟨accepted, by simp [Client.read, answered, body, validated]⟩

/-- Every other body raises an exception that only the last clause takes. -/
theorem read_unrecognised (answered : response.isError = false)
    (unrecognised : ¬ Recognised lax response) :
    ∃ raised, Client.read lax response = .error raised ∧ raised.status = .temporaryFailure := by
  unfold Client.read
  rw [if_neg (by simp [answered])]
  split
  · exact ⟨_, rfl, rfl⟩
  · next item body =>
    split
    · exact ⟨_, rfl, rfl⟩
    · next accepted validated => exact absurd ⟨item, body, by rw [validated]; rfl⟩ unrecognised
  · exact ⟨_, rfl, rfl⟩
  · exact ⟨_, rfl, rfl⟩

end Answers

section Exits

/-- It returns at one of its exits. -/
theorem send_sent (lax : Lax) (settings : Settings) (exchange : Exchange) (payload : EmailPayload) :
    ∃ posted result, Provider.send lax settings exchange payload = (posted, .ok result) ∧
      Sent lax settings exchange payload posted result := by
  by_cases cc : given payload.cc = true
  · exact ⟨_, _, by rw [Provider.send, Provider.attempt, if_pos cc], .cc cc⟩
  by_cases bcc : given payload.bcc = true
  · exact ⟨_, _, by rw [Provider.send, Provider.attempt, if_neg cc, if_pos bcc], .bcc bcc⟩
  have plain : given payload.cc = false ∧ given payload.bcc = false := by simp [cc, bcc]
  rw [Provider.send, Provider.attempt, if_neg cc, if_neg bcc]
  by_cases sender : validateEmail settings.senderEmail = true
  · obtain ⟨request, built⟩ : ∃ request, buildMailrelayRequest settings payload = .ok request := by
      rw [buildMailrelayRequest, dif_pos sender]
      exact ⟨_, rfl⟩
    rw [built]
    cases ended : (Client.send lax exchange request).2 with
    | ok accepted =>
      have whole : Client.send lax exchange request = ([request.modelDump], .ok accepted) :=
        Prod.ext rfl ended
      exact ⟨_, _, by simp [whole, Except.map], .accepted plain sender built ended⟩
    | error raised =>
      have whole : Client.send lax exchange request = ([request.modelDump], .error raised) :=
        Prod.ext rfl ended
      obtain ⟨code, message, failed, handled⟩ := except_returns raised
      exact ⟨_, _, by simp [whole, Except.map, handled], .raised plain sender built ended handled⟩
  · have unbuilt : buildMailrelayRequest settings payload = .error .validationError := by
      rw [buildMailrelayRequest, dif_neg sender]
    obtain ⟨code, message, failed, handled⟩ := except_returns .validationError
    rw [unbuilt]
    exact ⟨_, _, by simp [handled], .unsendable plain (by simpa using sender) handled⟩

end Exits

section Classification

variable {status : DeliveryStatus}

theorem client_accepted (returned : (Client.send lax exchange request).2 = .ok accepted)
    (expected : classify exchange = some status) : status = .success := by
  cases exchange with
  | error exception => cases returned
  | ok response =>
    have answered : response.isError = false := by
      cases failed : response.isError with
      | false => rfl
      | true => cases (read_isError failed).symm.trans returned
    by_cases success : response.isSuccess = true
    · simpa [classify, success] using expected.symm
    · have final : response.statusCode ∉ mailrelayRetryableStatusCodes := by
        intro retryable
        simp [retryable_isError retryable] at answered
      simp [classify, success, final, answered] at expected

theorem client_raised (failed : (Client.send lax exchange request).2 = .error raised)
    (understood : ∀ response, exchange = .ok response → Understood lax response)
    (expected : classify exchange = some status) : raised.status = status := by
  cases exchange with
  | error exception =>
    obtain rfl := Except.error.inj failed
    by_cases transport : exception.isTransportError = true
    · simpa [classify, transport, Raised.status] using expected
    · simp [classify, transport] at expected
  | ok response =>
    obtain ⟨recognised, readable⟩ := understood response rfl
    by_cases refused : response.isError = true
    · obtain rfl := Except.error.inj ((read_isError refused).symm.trans failed)
      have unsuccessful : response.isSuccess = false := by
        cases success : response.isSuccess with
        | false => rfl
        | true => simp [isSuccess_not_isError success] at refused
      by_cases retryable : response.statusCode ∈ mailrelayRetryableStatusCodes
      · obtain rfl : DeliveryStatus.temporaryFailure = status := by
          simpa [classify, unsuccessful, retryable] using expected
        exact raise_status_retryable retryable
      · obtain ⟨message, raises⟩ := raise_readable (readable refused retryable)
        rw [raises]
        simpa [classify, unsuccessful, retryable, refused, Raised.status] using expected
    · by_cases success : response.isSuccess = true
      · obtain ⟨accepted, returned⟩ :=
          read_recognised (by simpa using refused) (recognised success)
        cases returned.symm.trans failed
      · have final : response.statusCode ∉ mailrelayRetryableStatusCodes := fun retryable =>
          refused (retryable_isError retryable)
        simp [classify, success, final, refused] at expected

/-- An accepted email whose answer is not recognised is a temporary failure. -/
theorem client_unrecognised (success : response.isSuccess = true)
    (unrecognised : ¬ Recognised lax response) :
    ∃ raised, (Client.send lax (.ok response) request).2 = .error raised ∧
      raised.status = .temporaryFailure :=
  read_unrecognised (isSuccess_not_isError success) unrecognised

/-- A failure whose text cannot be read is a temporary one, whatever its status code. -/
theorem client_unreadable (refused : response.isError = true) (unreadable : ¬ Readable response) :
    (Client.send lax (.ok response) request).2 = .error .textDecodeError :=
  (read_isError refused).trans (congrArg Except.error (raise_unreadable unreadable))

theorem except_status (handled : except raised = .ok result) : result.status = raised.status := by
  obtain ⟨code, message, failed, returned⟩ := except_returns raised
  obtain rfl := Except.ok.inj (returned.symm.trans handled)
  rfl

/-- A result of this provider, with what was accepted or why it was not. -/
structure Explained (result : ProviderResult) : Prop where
  provider : result.provider = .mailrelay
  accepted : result.status = .success →
    result.providerMessageId.isSome = true ∧ result.rawProviderResponse.isSome = true
  refused : result.status ≠ .success →
    result.providerErrorCode.isSome = true ∧ result.errorMessage.isSome = true

theorem failure_explained {code : String} {message : Text} (failed : status ≠ .success) :
    Explained (failure status code message failed) :=
  ⟨rfl, fun succeeded => absurd succeeded failed, fun _ => ⟨rfl, rfl⟩⟩

theorem except_explained (handled : except raised = .ok result) : Explained result := by
  obtain ⟨code, message, failed, returned⟩ := except_returns raised
  obtain rfl := Except.ok.inj (returned.symm.trans handled)
  exact failure_explained failed

theorem send_explained (lax : Lax) (settings : Settings) (exchange : Exchange)
    (payload : EmailPayload) :
    ∃ result, (Provider.send lax settings exchange payload).2 = .ok result ∧ Explained result := by
  obtain ⟨posted, result, returned, sent⟩ := send_sent lax settings exchange payload
  refine ⟨result, by rw [returned], ?_⟩
  cases sent with
  | cc | bcc => exact failure_explained (by decide)
  | unsendable _ _ handled | raised _ _ _ _ handled => exact except_explained handled
  | accepted => exact ⟨rfl, fun _ => ⟨rfl, rfl⟩, fun failed => absurd rfl failed⟩

theorem sent_classified (sent : Sent lax settings exchange payload posted result)
    (covered : Covered lax settings exchange payload) :
    Classified payload exchange (posted, .ok result) := by
  refine ⟨⟨result, rfl⟩, fun other same copies => ?_,
    fun other status same contacted expected => ?_⟩
  all_goals obtain rfl := Except.ok.inj same
  · cases sent with
    | cc => exact ⟨rfl, rfl⟩
    | bcc => exact ⟨rfl, rfl⟩
    | unsendable plain | accepted plain | raised plain => simp [plain] at copies
  · cases sent with
    | cc | bcc | unsendable => exact absurd rfl contacted
    | accepted _ _ _ returned => exact (client_accepted returned expected).symm
    | raised plain sender _ failed handled =>
      rw [except_status handled]
      apply client_raised failed _ expected
      simpa [Covered, plain, sender] using covered

/-- A posted email that is classified as documented has an answer that is understood. -/
theorem understood_of_classified
    (classified : Classified payload exchange ([request.modelDump], .ok result))
    (ended : ∀ raised, (Client.send lax exchange request).2 = .error raised →
      result.status = raised.status) (same : exchange = .ok response) :
    Understood lax response := by
  subst same
  constructor
  · intro success
    by_contra unrecognised
    obtain ⟨raised, failed, temporary⟩ := client_unrecognised success unrecognised
    have expected : classify (.ok response) = some .success := by simp [classify, success]
    have status := classified.answered result .success rfl (List.cons_ne_nil _ _) expected
    rw [ended raised failed, temporary] at status
    cases status
  · intro refused final
    by_contra unreadable
    have failed : (Client.send lax (.ok response) request).2 = .error .textDecodeError :=
      client_unreadable refused unreadable
    have unsuccessful : response.isSuccess = false := by
      cases success : response.isSuccess with
      | false => rfl
      | true => simp [isSuccess_not_isError success] at refused
    have expected : classify (.ok response) = some .permanentFailure := by
      simp [classify, unsuccessful, final, refused]
    have status := classified.answered result .permanentFailure rfl (List.cons_ne_nil _ _) expected
    rw [ended _ failed] at status
    cases status

/-- The provider classifies what it sends as documented exactly for the answers that it
understands. -/
theorem classified_iff (lax : Lax) (settings : Settings) (exchange : Exchange)
    (payload : EmailPayload) :
    Classified payload exchange (Provider.send lax settings exchange payload) ↔
      Covered lax settings exchange payload := by
  obtain ⟨posted, result, returned, sent⟩ := send_sent lax settings exchange payload
  rw [returned]
  refine ⟨fun classified => ?_, sent_classified sent⟩
  cases sent with
  | cc copies => exact .inl copies
  | bcc copies => exact .inr (.inl copies)
  | unsendable _ sender => exact .inr (.inr (.inl sender))
  | accepted _ _ _ succeeds =>
    refine .inr (.inr (.inr fun response same => ?_))
    apply understood_of_classified classified _ same
    intro raised failed
    cases succeeds.symm.trans failed
  | raised _ _ _ failed handled =>
    refine .inr (.inr (.inr fun response same => ?_))
    apply understood_of_classified classified _ same
    intro other again
    obtain rfl := Except.error.inj (failed.symm.trans again)
    exact except_status handled

end Classification

section Sample

/-- It reads what the sample answer contains. -/
def sampleLax : Lax where
  int
    | .int value => some value
    | _ => none
  datetime
    | .str value => value.toString?.filter fun text => !text.toList.contains '\x00'
    | _ => none
  datetimePlain := by
    intro value text read
    cases value with
    | str value =>
      have plain := (Option.filter_eq_some_iff.mp read).2
      simpa using plain
    | _ => cases read

def sampleSettings : Settings := ⟨"sender@example.com", "Relays"⟩

def samplePayload : EmailPayload :=
  (EmailPayload.check "user@example.com" none none "Welcome" "<p>Welcome</p>").get (by decide)

/-- An accepted email, with further members in the one item of the answer. -/
def sampleAnswer (further : List (Text × Json Text)) : HttpResponse where
  statusCode := 200
  text := some ""
  json := some (.arr [.obj (("id", .int 1) :: ("created_at", .str "2026-01-01T00:00:00Z") ::
    ("email", .str "user@example.com") :: ("subscriber_id", .null) :: further)])

/-- One more member than the response model knows. -/
def extendedAnswer : HttpResponse := sampleAnswer [("status", .str "processed")]

def statusOf : Except Raised ProviderResult → Option DeliveryStatus
  | .ok result => some result.status
  | .error _ => none

example : statusOf (Provider.send sampleLax sampleSettings
    (.ok (sampleAnswer [])) samplePayload).2 =
    some .success := by decide +kernel

/-- A refusal in an encoding that cannot be decoded. -/
example : statusOf (Provider.send sampleLax sampleSettings
    (.ok ⟨400, none, none⟩) samplePayload).2 =
    some .temporaryFailure := by decide +kernel

/-- One more member in the answer, and the accepted email is to be sent again. -/
theorem accepted_unrecognised : ¬ Classified samplePayload (.ok extendedAnswer)
    (Provider.send sampleLax sampleSettings (.ok extendedAnswer) samplePayload) := by
  intro classified
  obtain ⟨result, returned⟩ := classified.returns
  have contacted :
      (Provider.send sampleLax sampleSettings (.ok extendedAnswer) samplePayload).1 ≠ [] :=
    List.cons_ne_nil _ _
  have expected := classified.answered result .success returned contacted rfl
  have actual :
      statusOf (Provider.send sampleLax sampleSettings (.ok extendedAnswer) samplePayload).2 =
        some .temporaryFailure := by decide +kernel
  rw [returned, statusOf, expected] at actual
  cases actual

end Sample

end Relays.MailRelay
