import Relays.Notifications.Records

/-! The MailRelay provider: what it posts, and the result it makes of the answer. -/

namespace Relays

namespace MailRelay

/-- `MAILRELAY_SENDER_EMAIL` and `MAILRELAY_SENDER_NAME`, which nothing validates as addresses. -/
structure Settings where
  senderEmail : String
  senderName : String

structure MailRelaySender where
  email : String
  name : String
  emailValid : validateEmail email = true

structure MailRelayRecipient where
  email : String
  name : Option String := none
  emailValid : validateEmail email = true

structure MailRelaySendRequest where
  sender : MailRelaySender
  toRecipients : List MailRelayRecipient
  subject : String
  htmlPart : Option String := none
  textPart : Option String := none
  textPartAuto : Bool := true
  toNonempty : toRecipients ≠ []

/-- A member that `exclude_none` leaves out. -/
def givenMember (name : String) (value : Option String) : List (Text × Json Text) :=
  (value.map fun text : String => (Text.ofString name, Json.str (Text.ofString text))).toList

def MailRelayRecipient.modelDump (recipient : MailRelayRecipient) : Json Text :=
  .obj (("email", .str recipient.email) :: givenMember "name" recipient.name)

def MailRelaySendRequest.modelDump (request : MailRelaySendRequest) : Json Text :=
  .obj (("from", .obj [("email", .str request.sender.email), ("name", .str request.sender.name)]) ::
    ("to", .arr (request.toRecipients.map MailRelayRecipient.modelDump)) ::
    ("subject", .str request.subject) ::
    (givenMember "html_part" request.htmlPart ++ givenMember "text_part" request.textPart ++
      [(Text.ofString "text_part_auto", Json.bool request.textPartAuto)]))

/-- The exceptions of the HTTP client by their classes; `unexpected` is any other one. -/
inductive HttpException where
  | timeoutException
  | connectTimeout
  | readTimeout
  | writeTimeout
  | poolTimeout
  | networkError
  | connectError
  | readError
  | writeError
  | closeError
  | proxyError
  | unsupportedProtocol
  | protocolError
  | localProtocolError
  | remoteProtocolError
  | decodingError
  | tooManyRedirects
  | unexpected

namespace HttpException

def isTimeout : HttpException → Bool
  | .timeoutException | .connectTimeout | .readTimeout | .writeTimeout | .poolTimeout => true
  | _ => false

def isNetworkError : HttpException → Bool
  | .networkError | .connectError | .readError | .writeError | .closeError => true
  | _ => false

/-- The classes under `httpx.TransportError`. -/
def isTransportError : HttpException → Bool
  | .decodingError | .tooManyRedirects | .unexpected => false
  | _ => true

end HttpException

/-- An answer with its text, `none` where the codec that its headers name raises, and its JSON,
`none` where the parser raises. -/
structure HttpResponse where
  statusCode : Nat
  text : Option Text
  json : Option (Json Text)

def HttpResponse.isError (response : HttpResponse) : Bool :=
  decide (400 ≤ response.statusCode ∧ response.statusCode ≤ 599)

def HttpResponse.isSuccess (response : HttpResponse) : Bool :=
  decide (200 ≤ response.statusCode ∧ response.statusCode ≤ 299)

/-- What the exchange ends in, once the request is posted. -/
abbrev Exchange := Except HttpException HttpResponse

inductive Raised where
  | mailRelayAPIError (statusCode : Nat) (message : Text)
  | http (exception : HttpException)
  | runtimeError (message : String)
  | jsonDecodeError
  | textDecodeError
  | validationError

/-- How the schema library reads an integer and a timestamp, which it dumps as text. -/
structure Lax where
  int : Json Text → Option Int
  datetime : Json Text → Option String
  datetimePlain : ∀ value text, datetime value = some text → '\x00' ∉ text.toList

structure MailRelaySendResponse where
  id : Int
  createdAt : String
  email : String
  subscriberId : Option Int
  createdAtPlain : '\x00' ∉ createdAt.toList
  emailValid : validateEmail email = true

namespace MailRelaySendResponse

def fields : List Text := ["id", "created_at", "email", "subscriber_id"]

def optionalInt (lax : Lax) : Option (Json Text) → Option (Option Int)
  | none | some .null => some none
  | some value => (lax.int value).map some

/-- The timestamp, with what is known of its text. -/
def readDatetime (lax : Lax)
    (value : Json Text) : Option { text : String // '\x00' ∉ text.toList } :=
  match read : lax.datetime value with
  | none => none
  | some text => some ⟨text, lax.datetimePlain value text read⟩

/-- With `extra="forbid"`. -/
def modelValidate (lax : Lax) : Json Text → Option MailRelaySendResponse
  | .obj members =>
    let lookup (name : Text) := members.lookup name
    if members.all (fun field => fields.contains field.1) then do
      let id ← (lookup "id").bind lax.int
      let createdAt ← (lookup "created_at").bind (readDatetime lax)
      let email ← (lookup "email").bind emailField
      let subscriberId ← optionalInt lax (lookup "subscriber_id")
      if emailValid : validateEmail email = true then
        some ⟨id, createdAt.val, email, subscriberId, createdAt.property, emailValid⟩
      else none
    else none
  | _ => none

def modelDump (response : MailRelaySendResponse) : Json Text :=
  .obj [("id", .int response.id), ("created_at", .str response.createdAt),
    ("email", .str response.email), ("subscriber_id", response.subscriberId.elim .null .int)]

end MailRelaySendResponse

/-- `MailRelayErrorResponse.model_validate`: the text of its one field, surrogates included. -/
def errorResponse : Json Text → Option Text
  | .obj members =>
    let name : Text := "error"
    if members.all (fun field => field.1 = name) then
      match members.lookup name with
      | some (.str message) => some message
      | _ => none
    else none
  | _ => none

/-- `_raise_mailrelay_error`; what reading the text raises takes the place of its own exception. -/
def raiseMailrelayError (response : HttpResponse) : Raised :=
  match response.json.bind errorResponse, response.text with
  | some message, _ => .mailRelayAPIError response.statusCode message
  | none, some text =>
    .mailRelayAPIError response.statusCode
      (if text = ("" : Text) then "Unknown MailRelay error." else text)
  | none, none => .textDecodeError

namespace Client

/-- What is made of the answer. -/
def read (lax : Lax) (response : HttpResponse) : Except Raised MailRelaySendResponse :=
  if response.isError then .error (raiseMailrelayError response) else
  match response.json with
  | none => .error .jsonDecodeError
  | some (.arr [item]) =>
    match MailRelaySendResponse.modelValidate lax item with
    | none => .error .validationError
    | some response => .ok response
  | some (.arr items) =>
    .error (.runtimeError
      ("Expected One Recipient Response, recieved " ++ toString items.length ++ "."))
  | some _ => .error (.runtimeError "Unexpected MailRelay Response Format")

/-- `MailRelayClient.send`, with the bodies that it posts. -/
def send (lax : Lax) (exchange : Exchange) (request : MailRelaySendRequest) :
    List (Json Text) × Except Raised MailRelaySendResponse :=
  ([request.modelDump],
    match exchange with
    | .error exception => .error (.http exception)
    | .ok response => read lax response)

end Client

def buildMailrelayRequest (settings : Settings) (payload : EmailPayload) :
    Except Raised MailRelaySendRequest :=
  if emailValid : validateEmail settings.senderEmail = true then
    .ok {
      sender := ⟨settings.senderEmail, settings.senderName, emailValid⟩
      toRecipients := [⟨payload.toAddress, none, payload.toValid.1⟩]
      subject := payload.subject
      htmlPart := some payload.htmlBody
      textPartAuto := true
      toNonempty := by simp }
  else .error .validationError

/-- A list that is there and not empty. -/
def given (addresses : Option (List String)) : Bool := addresses.any fun list => !list.isEmpty

section Results

/-- A result that is not a success, with a code and a message. -/
def failure (status : DeliveryStatus) (code : String) (message : Text)
    (failed : status ≠ .success) :
    ProviderResult where
  status := status
  provider := .mailrelay
  providerErrorCode := some code
  errorMessage := some message
  successStorable := fun succeeded => absurd succeeded failed

def temporaryFailure (code message : String) : ProviderResult :=
  failure .temporaryFailure code message (by decide)

def permanentFailure (code message : String) : ProviderResult :=
  failure .permanentFailure code message (by decide)

def unsupportedCc : ProviderResult :=
  permanentFailure "UNSUPPORTED_CC" "MailRelay REST API does not support CC recipients."

def unsupportedBcc : ProviderResult :=
  permanentFailure "UNSUPPORTED_BCC" "MailRelay REST API does not support BCC recipients."

theorem toString_plain (id : Int) : '\x00' ∉ (toString id).toList := by
  cases id with
  | ofNat value => exact Text.repr_plain value
  | negSucc value =>
    have printed : toString (Int.negSucc value) = "-" ++ (value + 1).repr := rfl
    rw [printed, String.toList_append, List.mem_append, not_or]
    exact ⟨by decide, Text.repr_plain _⟩

theorem success_storable (response : MailRelaySendResponse) :
    columnsStorable [none, none, some (Text.ofString (toString response.id))]
      (some response.modelDump) = true := by
  have id : (Text.ofString response.id.repr).storable = true :=
    Text.storable_ofString.mpr (toString_plain response.id)
  have createdAt := Text.jsonStorable_of_storable
    (Text.storable_ofString.mpr response.createdAtPlain)
  have email := Text.jsonStorable_of_storable
    (Text.storable_ofString.mpr (validateEmail_plain response.emailValid))
  have names : ["id", "created_at", "email", "subscriber_id"].all
      (fun name => (Text.ofString name).jsonStorable) = true := by decide
  simp only [List.all_cons, List.all_nil, Bool.and_true, Bool.and_eq_true] at names
  obtain ⟨idName, dateName, emailName, subscriberName⟩ := names
  have subscriber : (response.subscriberId.elim Json.null Json.int).storable = true := by
    cases response.subscriberId <;> rfl
  simp [columnsStorable, MailRelaySendResponse.modelDump, Json.storable, Json.storableMembers, id,
    createdAt, email, subscriber, idName, dateName, emailName, subscriberName]

def success (response : MailRelaySendResponse) : ProviderResult where
  status := .success
  provider := .mailrelay
  providerMessageId := some (Text.ofString (toString response.id))
  rawProviderResponse := some response.modelDump
  successStorable := fun _ => success_storable response

end Results

def mailrelayRetryableStatusCodes : List Nat := [429, 500, 502, 503, 504]

section Handlers

def onMailRelayAPIError : Raised → Option ProviderResult
  | .mailRelayAPIError statusCode message =>
    if statusCode ∈ mailrelayRetryableStatusCodes then
      some (failure .temporaryFailure (toString statusCode) message (by decide))
    else some (failure .permanentFailure (toString statusCode) message (by decide))
  | _ => none

def onTimeout : Raised → Option ProviderResult
  | .http exception =>
    if exception.isTimeout then
      some (temporaryFailure "TIMEOUT" "Connection to MailRelay timed out.")
    else none
  | _ => none

def onNetworkError : Raised → Option ProviderResult
  | .http exception =>
    if exception.isNetworkError then
      some (temporaryFailure "NETWORK_ERROR" "Unable to connect to MailRelay.")
    else none
  | _ => none

def onRemoteProtocolError : Raised → Option ProviderResult
  | .http .remoteProtocolError =>
    some (temporaryFailure "PROTOCOL_ERROR" "MailRelay returned an invalid protocol response.")
  | _ => none

/-- `except Exception`. -/
def onException (_ : Raised) : Option ProviderResult :=
  some (temporaryFailure "INTERNAL_PROVIDER_ERROR" "Unexpected MailRelay provider failure.")

/-- The `except` clauses in their order. -/
def handlers : List (Raised → Option ProviderResult) :=
  [onMailRelayAPIError, onTimeout, onNetworkError, onRemoteProtocolError, onException]

/-- The first clause that matches; an exception that none matches is raised on. -/
def except (raised : Raised) : Except Raised ProviderResult :=
  match handlers.findSome? (fun handler => handler raised) with
  | some result => .ok result
  | none => .error raised

end Handlers

namespace Provider

/-- The body of the `try` statement. -/
def attempt (lax : Lax) (settings : Settings) (exchange : Exchange) (payload : EmailPayload) :
    List (Json Text) × Except Raised ProviderResult :=
  if given payload.cc then ([], .ok unsupportedCc)
  else if given payload.bcc then ([], .ok unsupportedBcc)
  else
    match buildMailrelayRequest settings payload with
    | .error raised => ([], .error raised)
    | .ok request =>
      let (posted, response) := Client.send lax exchange request
      (posted, response.map success)

/-- `MailRelayProvider.send`: the bodies that it posts, and what it returns or raises. -/
def send (lax : Lax) (settings : Settings) (exchange : Exchange) (payload : EmailPayload) :
    List (Json Text) × Except Raised ProviderResult :=
  let (posted, outcome) := attempt lax settings exchange payload
  (posted, match outcome with
    | .ok result => .ok result
    | .error raised => except raised)

end Provider

end MailRelay

end Relays
