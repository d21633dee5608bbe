import Relays.Core.Json

/-! Request and payload schemas. A payload value carries the proof that it passed
its field validators, so a rejected payload cannot be built. -/

namespace Relays

inductive NotificationChannel where
  | email
  | sms
  | webhook
  deriving DecidableEq, Repr

def NotificationChannel.value : NotificationChannel → String
  | .email => "email"
  | .sms => "sms"
  | .webhook => "webhook"

def isAsciiLetter (c : Char) : Bool :=
  ('A' ≤ c && c ≤ 'Z') || ('a' ≤ c && c ≤ 'z')

def isAsciiDigit (c : Char) : Bool := '0' ≤ c && c ≤ '9'

/-- `EMAIL_REGEX.fullmatch`. The local class has no `@` and the last class has no
dot, so the groups end at the first `@` and at the last dot. -/
def validateEmail (value : String) : Bool :=
  let chars := value.toList
  let localPart := chars.takeWhile (· ≠ '@')
  let host := (chars.drop (localPart.length + 1)).reverse
  let topLevel := host.takeWhile (· ≠ '.')
  let domain := host.drop (topLevel.length + 1)
  chars.contains '@' && host.contains '.' &&
    !localPart.isEmpty && localPart.all (fun c =>
      isAsciiLetter c || isAsciiDigit c || ['.', '_', '%', '+', '-'].contains c) &&
    !domain.isEmpty && domain.all (fun c =>
      isAsciiLetter c || isAsciiDigit c || ['.', '-'].contains c) &&
    decide (2 ≤ topLevel.length) && topLevel.all isAsciiLetter

/-- Code points of the zero digits; `\d` matches each of the ten digits they begin. -/
def decimalZeros : List Nat :=
  [0x30, 0x660, 0x6F0, 0x7C0, 0x966, 0x9E6, 0xA66, 0xAE6, 0xB66, 0xBE6, 0xC66, 0xCE6, 0xD66,
    0xDE6, 0xE50, 0xED0, 0xF20, 0x1040, 0x1090, 0x17E0, 0x1810, 0x1946, 0x19D0, 0x1A80, 0x1A90,
    0x1B50, 0x1BB0, 0x1C40, 0x1C50, 0xA620, 0xA8D0, 0xA900, 0xA9D0, 0xA9F0, 0xAA50, 0xABF0,
    0xFF10, 0x104A0, 0x10D30, 0x11066, 0x110F0, 0x11136, 0x111D0, 0x112F0, 0x11450, 0x114D0,
    0x11650, 0x116C0, 0x11730, 0x118E0, 0x11950, 0x11C50, 0x11D50, 0x11DA0, 0x11F50, 0x16A60,
    0x16AC0, 0x16B50, 0x1D7CE, 0x1D7D8, 0x1D7E2, 0x1D7EC, 0x1D7F6, 0x1E140, 0x1E2F0, 0x1E4F0,
    0x1E950, 0x1FBF0]

def isDecimal (c : Char) : Bool :=
  decimalZeros.any (fun first => first ≤ c.toNat && c.toNat ≤ first + 9)

/-- `PHONE_REGEX.fullmatch`. -/
def validatePhone (phone : String) : Bool :=
  let digits := match phone.toList with
    | '+' :: rest => rest
    | chars => chars
  match digits with
  | first :: rest => ('1' ≤ first && first ≤ '9') && rest.all isDecimal &&
      decide (7 ≤ rest.length) && decide (rest.length ≤ 14)
  | [] => false

structure EmailPayload where
  toAddress : String
  cc : Option (List String)
  bcc : Option (List String)
  subject : String
  htmlBody : String
  toValid : validateEmail toAddress = true ∧ 4 ≤ toAddress.length
  ccValid : ∀ list, cc = some list → list.all validateEmail = true
  bccValid : ∀ list, bcc = some list → list.all validateEmail = true
  subjectValid : 1 ≤ subject.length ∧ subject.length ≤ 255
  bodyValid : 1 ≤ htmlBody.length

structure SMSPayload where
  toNumber : String
  message : String
  toValid : validatePhone toNumber = true ∧ 4 ≤ toNumber.length
  messageValid : 1 ≤ message.length ∧ message.length ≤ 160

/-- The URL is the normalised text of the parsed `AnyUrl`. -/
structure WebhookPayload where
  url : String
  body : List (Text × Json Text)
  urlNonempty : url ≠ ""

inductive NotificationPayload where
  | email (payload : EmailPayload)
  | sms (payload : SMSPayload)
  | webhook (payload : WebhookPayload)

/-- The discriminated union on `channel`: the channel is that of the payload. -/
structure NotificationRequestBody where
  payload : NotificationPayload
  metadata : List (Text × Json Text)

def NotificationRequestBody.channel (request : NotificationRequestBody) : NotificationChannel :=
  match request.payload with
  | .email _ => .email
  | .sms _ => .sms
  | .webhook _ => .webhook

def EmailPayload.modelDump (payload : EmailPayload) : Json Text :=
  .obj [("to", .str payload.toAddress), ("cc", Json.ofStrings? payload.cc),
    ("bcc", Json.ofStrings? payload.bcc), ("subject", .str payload.subject),
    ("html_body", .str payload.htmlBody)]

def NotificationPayload.modelDump : NotificationPayload → Json Text
  | .email payload => payload.modelDump
  | .sms payload => .obj [("to", .str payload.toNumber), ("message", .str payload.message)]
  | .webhook payload => .obj [("url", .str payload.url), ("body", .obj payload.body)]

def NotificationRequestBody.modelDump (request : NotificationRequestBody) : Json Text :=
  .obj [("metadata", .obj request.metadata), ("channel", .str request.channel.value),
    ("payload", request.payload.modelDump)]

/-- `str` field with the `Email` validator. -/
def emailField : Json Text → Option String
  | .str value => value.toString?.filter validateEmail
  | _ => none

/-- `list[Email] | None` field. -/
def emailListField : Json Text → Option (Option (List String))
  | .null => some none
  | .arr items => (items.mapM emailField).map some
  | _ => none

/-- `str` field with a length, which refuses surrogates. -/
def textField : Json Text → Option String
  | .str value => value.toString?
  | _ => none

/-- An optional field: its default when the key is absent. -/
def optionalField (members : List (Text × Json Text)) (name : Text)
    (read : Json Text → Option (Option (List String))) : Option (Option (List String)) :=
  match members.lookup name with
  | none => some none
  | some value => read value

def EmailPayload.check (toAddress : String) (cc bcc : Option (List String))
    (subject htmlBody : String) : Option EmailPayload :=
  if toValid : validateEmail toAddress = true ∧ 4 ≤ toAddress.length then
    if ccValid : ∀ list, cc = some list → list.all validateEmail = true then
      if bccValid : ∀ list, bcc = some list → list.all validateEmail = true then
        if subjectValid : 1 ≤ subject.length ∧ subject.length ≤ 255 then
          if bodyValid : 1 ≤ htmlBody.length then
            some ⟨toAddress, cc, bcc, subject, htmlBody, toValid, ccValid, bccValid,
              subjectValid, bodyValid⟩
          else none
        else none
      else none
    else none
  else none

/-- `EmailPayload.model_validate`, with `extra="forbid"`. -/
def EmailPayload.modelValidate : Json Text → Option EmailPayload
  | .obj members =>
    let names : List Text := ["to", "cc", "bcc", "subject", "html_body"]
    let lookup (name : Text) := members.lookup name
    if members.all (fun field => names.contains field.1) then do
      let toAddress ← (lookup "to").bind emailField
      let cc ← optionalField members "cc" emailListField
      let bcc ← optionalField members "bcc" emailListField
      let subject ← (lookup "subject").bind textField
      let htmlBody ← (lookup "html_body").bind textField
      EmailPayload.check toAddress cc bcc subject htmlBody
    else none
  | _ => none

/-- Every other character is before the first mark or after it. -/
private theorem mem_around {mark c : Char} {chars : List Char} (other : c ≠ mark)
    (member : c ∈ chars) : c ∈ chars.takeWhile (· ≠ mark) ∨
      c ∈ chars.drop ((chars.takeWhile (· ≠ mark)).length + 1) := by
  induction chars with
  | nil => cases member
  | cons head rest ih =>
    by_cases marks : head = mark
    · subst marks
      simpa [other] using member
    · rcases List.mem_cons.mp member with rfl | later
      · simp [marks]
      · have found := ih later
        simp only [ne_eq, decide_not] at found ⊢
        simpa [marks, or_assoc] using Or.inr found

/-- An accepted address is made of letters, digits and a few marks. -/
theorem validateEmail_plain {value : String} (valid : validateEmail value = true) :
    '\x00' ∉ value.toList := by
  simp only [validateEmail, Bool.and_eq_true, List.all_eq_true] at valid
  obtain ⟨⟨⟨⟨⟨⟨⟨_, _⟩, _⟩, localPart⟩, _⟩, domain⟩, _⟩, topLevel⟩ := valid
  intro member
  rcases mem_around (by decide : '\x00' ≠ '@') member with front | back
  · cases localPart _ front
  · rcases mem_around (by decide : '\x00' ≠ '.') (List.mem_reverse.mpr back) with last | first
    · cases topLevel _ last
    · cases domain _ first

theorem NotificationPayload.modelDump_isObject (payload : NotificationPayload) :
    payload.modelDump.isObject = true := by
  cases payload <;> rfl

private theorem emailFields_map {values : List String} (valid : values.all validateEmail = true) :
    (values.map fun value : String => Json.str (Text.ofString value)).mapM emailField =
      some values := by
  induction values with
  | nil => rfl
  | cons value rest ih =>
    simp only [List.all_cons, Bool.and_eq_true] at valid
    simp [List.mapM_cons, emailField, Option.filter_some, valid.1, ih valid.2]

private theorem emailListField_ofStrings {values : Option (List String)}
    (valid : ∀ list, values = some list → list.all validateEmail = true) :
    emailListField (Json.ofStrings? values) = some values := by
  cases values with
  | none => rfl
  | some list => simp [Json.ofStrings?, emailListField, emailFields_map (valid list rfl)]

/-- Validating the dump of an accepted payload restores it. -/
theorem EmailPayload.modelValidate_modelDump (payload : EmailPayload) :
    EmailPayload.modelValidate payload.modelDump = some payload := by
  have address : emailField (.str payload.toAddress) = some payload.toAddress := by
    simp [emailField, Option.filter_some, payload.toValid.1]
  have copies := emailListField_ofStrings payload.ccValid
  have blind := emailListField_ofStrings payload.bccValid
  simp [EmailPayload.modelDump, EmailPayload.modelValidate, List.lookup_cons, optionalField,
    address, copies, blind, textField, EmailPayload.check, payload.toValid, payload.subjectValid,
    payload.bodyValid]
  exact ⟨by simpa using payload.ccValid, by simpa using payload.bccValid⟩

end Relays
