import Relays.Core.Canonical
import Relays.Engine.Idempotence

/-! The request hash: a reused idempotency key is refused for another payload, unless the two
differ in nothing but characters that one of them spells as pairs of surrogates. -/

namespace Relays

open ReadCommitted Transition

/-- The objects that the client sent are dicts of finite values. -/
def NotificationRequestBody.WellFormed (request : NotificationRequestBody) : Prop :=
  (Json.obj request.metadata).WellFormed ∧
    ∀ payload, request.payload = .webhook payload → (Json.obj payload.body).WellFormed

theorem EmailPayload.modelDump_wellFormed (payload : EmailPayload) :
    payload.modelDump.WellFormed := by
  have addresses (values : Option (List String)) : (Json.ofStrings? values).WellFormed := by
    cases values with
    | none => trivial
    | some values =>
      apply Json.wellFormedItems_iff.mpr
      intro item member
      obtain ⟨_, _, rfl⟩ := List.mem_map.mp member
      trivial
  exact ⟨by simp, trivial, addresses _, addresses _, trivial, trivial, trivial⟩

theorem NotificationRequestBody.modelDump_wellFormed {request : NotificationRequestBody}
    (wellFormed : request.WellFormed) : request.modelDump.WellFormed := by
  obtain ⟨metadata, body⟩ := wellFormed
  have payload : request.payload.modelDump.WellFormed := by
    cases current : request.payload with
    | email payload => exact payload.modelDump_wellFormed
    | sms payload => exact ⟨by simp, trivial, trivial, trivial⟩
    | webhook payload => exact ⟨by simp, trivial, body payload current, trivial⟩
  exact ⟨by simp, metadata, trivial, payload, trivial⟩

/-- The values differ, and not any more once the members of their objects stand in the order of the
keys and their strings are read as UTF-16. -/
def Json.Respelled (first second : Json Text) : Prop :=
  first.canonical = second.canonical ∧ ¬ Json.Same first second

theorem Json.not_respelled_of_whole {first second : Json Text} (distinct : second.WellFormed)
    (one : first.whole = true) (two : second.whole = true) : ¬ first.Respelled second :=
  fun respelled => respelled.2 (same_of_canonical one two distinct respelled.1)

namespace Engine

/-- The bodies of the two requests are equal up to the order of the keys of their objects. -/
def SamePayload (first second : Submission.Request) : Prop :=
  Json.Same first.arguments.request.modelDump second.arguments.request.modelDump

/-- The bodies of the two requests differ in the spelling of characters as surrogates alone. -/
def RespelledPayload (first second : Submission.Request) : Prop :=
  first.arguments.request.modelDump.Respelled second.arguments.request.modelDump

/-- What a request is answered whose key the original has used. -/
structure AnsweredByPayload (config : Config) (engine : Engine) (original : Submission.Request)
    (id : Uuid) (index : Nat) (request : Submission.Request) : Prop where
  /-- The lookup after a conflict goes on to the notification of the original for the same
  payload. -/
  same : request.phase = .conflicted → SamePayload original request →
    ∃ after, step config engine (.request index .getIdemKeys) = some after ∧
      after.requests[index]? = some { request with phase := .matched id }
  /-- For another payload it raises the 409. -/
  differs : request.phase = .conflicted → ¬ SamePayload original request →
    ∃ after, step config engine (.request index .getIdemKeys) = some after ∧
      after.requests[index]? = some { request with phase := .refused Submission.hashMismatch }
  /-- Only a request with another payload has been refused. -/
  refused : ∀ error, request.phase = .refused error →
    error = Submission.hashMismatch ∧ error.statusCode = 409 ∧ ¬ SamePayload original request
  /-- Only one with the same payload has been answered the notification. -/
  returned : ∀ isNewRequest notification,
    request.phase.returned = some (isNewRequest, notification) →
    SamePayload original request ∧ notification.id = id

/-- The hash tells payloads apart up to the order of keys, and so do the answers to a reused key,
exactly unless the payloads are respelled. -/
structure HashesPayload (sha256 : String → String) : Prop where
  hash : ∀ first second : Json Text, first.WellFormed → second.WellFormed →
    ((canonicalHash sha256 first = canonicalHash sha256 second ↔ Json.Same first second) ↔
      ¬ first.Respelled second)
  /-- It takes a pair of surrogates in one of the payloads. -/
  whole : ∀ first second : Json Text, first.WellFormed → second.WellFormed →
    first.whole = true → second.whole = true → ¬ first.Respelled second
  /-- A key that conflicts or is refused has an original. -/
  reused : ∀ config events engine (index : Nat) (request : Submission.Request),
    Run (system config) Any events engine →
    engine.requests[index]? = some request →
    (request.phase = .conflicted ∨ ∃ error, request.phase = .refused error) →
    ∃ first id, Original engine first request.arguments.key id
  answers : ∀ config events engine (first index : Nat) id (original request : Submission.Request),
    config.canonicalHash = canonicalHash sha256 →
    Run (system config) Any events engine → engine.requests[first]? = some original →
    engine.requests[index]? = some request → Original engine first request.arguments.key id →
    original.arguments.request.WellFormed → request.arguments.request.WellFormed →
    (¬ RespelledPayload original request →
      AnsweredByPayload config engine original id index request) ∧
    (request.phase = .conflicted ∨ request.phase.returned.isSome = true →
      AnsweredByPayload config engine original id index request →
        ¬ RespelledPayload original request)

variable {config : Config} {engine : Engine} {events : List Event} {index first : Nat} {id : Uuid}
variable {request original : Submission.Request} {sha256 : String → String}

/-- The payloads have one canonical form. -/
def AlikePayload (first second : Submission.Request) : Prop :=
  first.arguments.request.modelDump.canonical = second.arguments.request.modelDump.canonical

theorem requestHash_eq_iff (collisionFree : Function.Injective sha256)
    (configured : config.canonicalHash = canonicalHash sha256)
    (one : original.arguments.request.WellFormed)
    (two : request.arguments.request.WellFormed) :
    Submission.requestHash config original.arguments =
      Submission.requestHash config request.arguments ↔ AlikePayload original request := by
  rw [Submission.requestHash, Submission.requestHash, configured]
  exact canonicalHash_eq_iff collisionFree (NotificationRequestBody.modelDump_wellFormed one)
    (NotificationRequestBody.modelDump_wellFormed two)

theorem alikePayload_iff (one : original.arguments.request.WellFormed)
    (two : request.arguments.request.WellFormed)
    (spelled : ¬ RespelledPayload original request) :
    AlikePayload original request ↔ SamePayload original request := by
  constructor
  · intro alike
    by_contra differs
    exact spelled ⟨alike, differs⟩
  · intro same
    exact Json.canonical_of_same (NotificationRequestBody.modelDump_wellFormed one)
      (NotificationRequestBody.modelDump_wellFormed two) same

theorem met_original (run : Run (system config) Any events engine)
    (found : engine.requests[index]? = some request)
    (met : request.phase = .conflicted ∨ ∃ error, request.phase = .refused error) :
    ∃ first id, Original engine first request.arguments.key id := by
  have valid := (run_sound run).request found
  have recorded : ∃ record, (engine.world.idempotency request.arguments.key).committed =
      some record := by
    rcases met with current | ⟨error, current⟩
    · exact valid.conflicted current
    · obtain ⟨_, record, committed, _⟩ := valid.refused error current
      exact ⟨record, committed⟩
  obtain ⟨record, committed⟩ := recorded
  obtain ⟨first, id, original, _⟩ := (run_originals run).record _ record committed
  exact ⟨first, id, original⟩

/-- The lookup of a conflicted request goes by the canonical form of its payload. -/
theorem lookup_alike (run : Run (system config) Any events engine)
    (collisionFree : Function.Injective sha256)
    (configured : config.canonicalHash = canonicalHash sha256)
    (there : engine.requests[first]? = some original)
    (found : engine.requests[index]? = some request)
    (creates : Original engine first request.arguments.key id)
    (one : original.arguments.request.WellFormed) (two : request.arguments.request.WellFormed)
    (current : request.phase = .conflicted) :
    ∃ after, step config engine (.request index .getIdemKeys) = some after ∧
      (AlikePayload original request →
        after.requests[index]? = some { request with phase := .matched id }) ∧
      (¬ AlikePayload original request →
        after.requests[index]? =
          some { request with phase := .refused Submission.hashMismatch }) := by
  have sound := run_sound run
  obtain ⟨same, again, _, recorded, _⟩ := creates.recorded sound
  obtain rfl := Option.some.inj (there.symm.trans again)
  have hashes := requestHash_eq_iff collisionFree configured one two
  obtain ⟨record, committed, hashed, named⟩ := recorded
  obtain ⟨after, taken, lands⟩ := lookup_step sound found current committed
  refine ⟨after, taken, ?_, ?_⟩
  · intro alike
    rw [lands]
    simp [Submission.afterLookup, hashed, hashes.mpr alike, named]
  · intro differs
    rw [lands, Submission.afterLookup, if_pos]
    exact fun same => differs (hashes.mp (hashed.symm.trans same))

/-- A request that has been refused or answered the notification was compared with the original. -/
theorem compared (run : Run (system config) Any events engine)
    (collisionFree : Function.Injective sha256)
    (configured : config.canonicalHash = canonicalHash sha256)
    (there : engine.requests[first]? = some original)
    (found : engine.requests[index]? = some request)
    (creates : Original engine first request.arguments.key id)
    (one : original.arguments.request.WellFormed)
    (two : request.arguments.request.WellFormed) :
    (∀ error, request.phase = .refused error →
      error = Submission.hashMismatch ∧ ¬ AlikePayload original request) ∧
    ∀ isNewRequest notification, request.phase.returned = some (isNewRequest, notification) →
      AlikePayload original request ∧ notification.id = id := by
  have sound := run_sound run
  have valid := sound.request found
  obtain ⟨same, again, _, recorded, _⟩ := creates.recorded sound
  obtain rfl := Option.some.inj (there.symm.trans again)
  have hashes := requestHash_eq_iff collisionFree configured one two
  obtain ⟨record, committed, hashed, named⟩ := recorded
  constructor
  · intro error current
    obtain ⟨rfl, same, again, other⟩ := valid.refused error current
    obtain rfl := Option.some.inj (committed.symm.trans again)
    exact ⟨rfl, fun alike => other (hashed.trans (hashes.mpr alike))⟩
  · intro isNewRequest notification returned
    obtain ⟨also, _⟩ := valid.settled notification (Submission.Phase.settled_of_returned returned)
    obtain ⟨same, again, matches', names⟩ := also
    obtain rfl := Option.some.inj (committed.symm.trans again)
    exact ⟨hashes.mp (hashed.symm.trans matches'), Option.some.inj (names.symm.trans named)⟩

theorem request_hash_canonical (collisionFree : Function.Injective sha256) :
    HashesPayload sha256 where
  hash first second one two := by
    rw [canonicalHash_eq_iff collisionFree one two, Json.Respelled]
    have alike := Json.canonical_of_same one two
    tauto
  whole _ _ _ two := Json.not_respelled_of_whole two
  reused _ _ _ _ _ run found met := met_original run found met
  answers config events engine first index id original request configured run there found creates
    one two := by
    obtain ⟨refused, returned⟩ := compared run collisionFree configured there found creates one two
    constructor
    · intro spelled
      have alike := alikePayload_iff one two spelled
      constructor
      · intro current payload
        obtain ⟨after, taken, same, _⟩ :=
          lookup_alike run collisionFree configured there found creates one two current
        exact ⟨after, taken, same (alike.mpr payload)⟩
      · intro current payload
        obtain ⟨after, taken, _, differs⟩ :=
          lookup_alike run collisionFree configured there found creates one two current
        exact ⟨after, taken, differs fun also => payload (alike.mp also)⟩
      · intro error current
        obtain ⟨rfl, differs⟩ := refused error current
        exact ⟨rfl, rfl, fun payload => differs (alike.mpr payload)⟩
      · intro isNewRequest notification answered
        obtain ⟨same, named⟩ := returned isNewRequest notification answered
        exact ⟨alike.mp same, named⟩
    · intro decided answered respelled
      rcases decided with current | present
      · obtain ⟨after, taken, same, _⟩ :=
          lookup_alike run collisionFree configured there found creates one two current
        obtain ⟨again, stepped, lands⟩ := answered.differs current respelled.2
        obtain rfl := Option.some.inj (taken.symm.trans stepped)
        cases (same respelled.1).symm.trans lands
      · obtain ⟨⟨isNewRequest, notification⟩, given⟩ := Option.isSome_iff_exists.mp present
        exact respelled.2 (answered.returned isNewRequest notification given).1

section Sample

def taggedArguments (metadata : List (Text × Json Text)) : Submission.Arguments :=
  { sampleArguments with request := ⟨.email samplePayload, metadata⟩ }

def sampleText (metadata : List (Text × Json Text)) : String :=
  String.ofList (taggedArguments metadata).request.modelDump.dumps

/-- The digests of the two texts that the sample run prints, and marked texts for all others. -/
def sampleDigest (text : String) : String :=
  if text = sampleText [("a", .int 1), ("b", .null)] then
    "7a69e8d37158aaa7a6158081af30b4000d98dc95bd905a324e2d657ca25fa3fc"
  else if text = sampleText [("a", .int 2)] then
    "0e78465c21c39cc58259ae19f8ea985a9a6baa88fc94306ff9d1834483e51091"
  else String.ofList ('?' :: text.toList)

theorem sampleDigest_injective : Function.Injective sampleDigest := by
  intro first second same
  have marked {digest text : String} (hexadecimal : digest.toList.head? ≠ some '?') :
      digest ≠ String.ofList ('?' :: text.toList) := by
    rintro rfl
    simp at hexadecimal
  unfold sampleDigest at same
  split_ifs at same with one two three four five six
  · exact one.trans two.symm
  · exact absurd same (by decide)
  · exact absurd same (marked (by decide))
  · exact absurd same (by decide)
  · exact four.trans six.symm
  · exact absurd same (marked (by decide))
  · exact absurd same.symm (marked (by decide))
  · exact absurd same.symm (marked (by decide))
  · simpa [String.toList_inj] using same

def hashedConfig : Config := { sampleConfig with canonicalHash := canonicalHash sampleDigest }

/-- A request that is accepted, and another one of the same idempotency key that is replayed. -/
def replayed (first second : Submission.Arguments) : List Event :=
  [.post first, .request 0 .insertIdemKeys, .request 0 (.createNotification 7),
    .request 0 .completeIdempotency, .request 0 .commit, .post second,
    .request 1 .insertIdemKeys, .request 1 .getIdemKeys, .request 1 .getNotification,
    .request 1 .commit]

/-- A request, the same one with its keys in another order, and another one, all of one idempotency
key. -/
def reuses : List Event :=
  replayed (taggedArguments [("b", .null), ("a", .int 1)])
      (taggedArguments [("a", .int 1), ("b", .null)]) ++
    [.post (taggedArguments [("a", .int 2)]), .request 2 .insertIdemKeys, .request 2 .getIdemKeys]

def refusal : Submission.Phase → Option Nat
  | .refused error => some error.statusCode
  | _ => none

theorem request_hash_canonical_reuses : HashesPayload sampleDigest ∧
    ∃ engine, Run (system hashedConfig) Any reuses engine ∧
      engine.requests.map (fun request => request.phase.returned.map Prod.fst) =
        [some true, some false, none] ∧
      engine.requests.map (fun request => refusal request.phase) = [none, none, some 409] := by
  obtain ⟨engine, run, observed⟩ := Run.exists_of_execute (system hashedConfig) Any reuses
    (fun engine =>
      engine.requests.map (fun request => request.phase.returned.map Prod.fst) =
        [some true, some false, none] ∧
      engine.requests.map (fun request => refusal request.phase) = [none, none, some 409])
        (by decide +kernel)
  exact ⟨request_hash_canonical sampleDigest_injective, engine, run, by simpa using observed⟩

/-- One character, and the two surrogates that spell it. -/
def smile : Text := ⟨[⟨0x1f600, by decide⟩]⟩

def splitSmile : Text := ⟨[⟨0xd83d, by decide⟩, ⟨0xde00, by decide⟩]⟩

def noted (note : Text) : Submission.Arguments := taggedArguments [("note", .str note)]

/-- Two payloads that differ are hashed alike, and the second one is answered as a replay. -/
theorem surrogates_confused :
    ¬ Json.Same (noted smile).request.modelDump (noted splitSmile).request.modelDump ∧
    (∀ sha256, canonicalHash sha256 (noted smile).request.modelDump =
      canonicalHash sha256 (noted splitSmile).request.modelDump) ∧
    ∃ engine, Run (system hashedConfig) Any (replayed (noted smile) (noted splitSmile)) engine ∧
      engine.requests.map (fun request => request.phase.returned.map Prod.fst) =
        [some true, some false] := by
  refine ⟨?_, ?_, ?_⟩
  · rintro ⟨_, ⟨metadata, found, same⟩, _⟩
    rw [List.lookup_cons_self] at found
    obtain rfl := Option.some.inj found
    obtain ⟨_, ⟨note, found, same⟩, _⟩ := same
    obtain rfl : Json.str splitSmile = note :=
      Option.some.inj (List.lookup_cons_self.symm.trans found)
    have alike : smile = splitSmile := same
    exact absurd alike (by decide)
  · intro sha256
    have printed : sampleText [("note", .str smile)] = sampleText [("note", .str splitSmile)] := by
      decide +kernel
    exact congrArg sha256 printed
  · obtain ⟨engine, run, observed⟩ := Run.exists_of_execute (system hashedConfig) Any
      (replayed (noted smile) (noted splitSmile))
      (fun engine => engine.requests.map (fun request => request.phase.returned.map Prod.fst) =
        [some true, some false]) (by decide +kernel)
    exact ⟨engine, run, by simpa using observed⟩

end Sample

end Engine

end Relays
