import Relays.Auth.Invariant

/-! The two flows of one-time passwords under one description: which calls store a code, look one
up and consume one, and what each of their statements does to the table of the flow. -/

namespace Relays.Auth

open ReadCommitted Transition

namespace OtpVerification

/-- The statements of a verification. -/
inductive Moves {Owner : Type} [DecidableEq Owner] (config : Config) (now : Time) (tx : Nat)
    (owner : Owner)
    (code : String) (table : OtpTable Owner) : Phase Owner → OtpTable Owner → Progress Owner →
      Prop where
  | reads {id : Uuid} (hit : getOtp table tx owner = some (id, otp)) :
      Moves config now tx owner code table .reading table (.continues (.read id otp))
  | expires {id : Uuid} : Moves config now tx owner code table (.read id otp) table
      (.continues .expired)
  | compares {id : Uuid} (same : otp.val.otpHash = hashOtp config code) :
      Moves config now tx owner code table (.read id otp) table (.continues (.matched id otp))
  | removes (hit : findOtp table tx owner = some (target, current)) :
      Moves config now tx owner code table .expired table (.continues (.deleting target))
  | selects {id : Uuid} (hit : getOtp table tx owner = some (target, current)) :
      Moves config now tx owner code table (.matched id otp) table
        (.continues (.consuming id otp target))
  | consumes {id : Uuid} (done : consumeOtp table tx now owner target =
    .returns (next, some result)) :
      Moves config now tx owner code table
        (.consuming id otp target) next (.consumed id otp target result)
  | raises : Moves config now tx owner code table phase next (.raises error)
  | fails : Moves config now tx owner code table phase next .fails

variable {Owner : Type} [DecidableEq Owner] {config : Config} {clock now : Time} {tx : Nat}
    {owner : Owner}
variable {code : String} {table next : OtpTable Owner} {phase : Phase Owner}
    {progress : Progress Owner}

theorem step_moves (taken : step config clock now tx owner code table phase =
    some (next, progress)) :
    Moves config now tx owner code table phase next progress := by
  cases phase with
  | reading =>
    simp only [step] at taken
    split at taken
    · cases taken
      exact .raises
    · rename_i hit
      cases taken
      exact .reads hit
  | read id otp =>
    simp only [step, check] at taken
    split at taken
    · cases taken
      exact .expires
    · split at taken
      · cases taken
        exact .raises
      · rename_i same
        cases taken
        exact .compares (not_not.mp same).symm
  | expired =>
    simp only [step] at taken
    split at taken
    · cases taken
      exact .raises
    · rename_i hit
      cases taken
      exact .removes hit
  | deleting target =>
    simp only [step] at taken
    split at taken
    · cases taken
    · cases taken
      exact .fails
    · cases taken
      exact .raises
  | matched id otp =>
    simp only [step] at taken
    split at taken
    · cases taken
      exact .raises
    · rename_i hit
      cases taken
      exact .selects hit
  | consuming id otp target =>
    simp only [step] at taken
    split at taken
    · cases taken
    · cases taken
      exact .fails
    · cases taken
      exact .raises
    · rename_i done
      cases taken
      exact .consumes done

/-- The row that has been looked up. -/
def Phase.looked : Phase Owner → Option (Uuid × StoredOtp Owner)
  | .read id otp | .matched id otp | .consuming id otp _ => some (id, otp)
  | .reading | .expired | .deleting _ => none

/-- The row that has been looked up belongs to the owner, and has the hash of the code once the two
have been compared. -/
def Phase.Checked (config : Config) (owner : Owner) (code : String) : Phase Owner → Prop
  | .read _ otp => otp.val.owner = owner
  | .matched _ otp | .consuming _ otp _ => otp.val.owner = owner ∧
    otp.val.otpHash = hashOtp config code
  | .reading | .expired | .deleting _ => True

/-- The row that has been consumed belongs to the owner of the row that has been compared. -/
def Compared (config : Config) (code : String) (otp result : StoredOtp Owner) : Prop :=
  otp.val.otpHash = hashOtp config code ∧ result.val.owner = otp.val.owner

theorem getOtp_some {id : Uuid} {otp : StoredOtp Owner}
    (hit : getOtp table tx owner = some (id, otp)) :
    (table.cells id).view tx = some otp ∧ otp.val.owner = owner ∧ otp.val.consumedAt = none := by
  obtain ⟨_, seen, matched⟩ := Relation.find_some hit
  simp only [unconsumed, Bool.and_eq_true, decide_eq_true_eq, Option.isNone_iff_eq_none] at matched
  exact ⟨seen, matched⟩

theorem Moves.checked {after : Phase Owner}
    (moves : Moves config now tx owner code table phase next (.continues after))
    (checked : phase.Checked config owner code) : after.Checked config owner code := by
  cases moves with
  | reads hit => exact (getOtp_some hit).2.1
  | expires | removes => trivial
  | compares same => exact ⟨checked, same⟩
  | selects hit => exact checked

theorem Moves.compared {id target : Uuid} {otp result : StoredOtp Owner}
    (moves : Moves config now tx owner code table phase next (.consumed id otp target result))
    (checked : phase.Checked config owner code) : Compared config code otp result := by
  cases moves with
  | consumes done =>
    obtain ⟨stored, _, _, owned, _, written, _⟩ := consumeOtp_returns done
    exact ⟨checked.2, by rw [written]; exact owned.trans checked.1.symm⟩

theorem Moves.looked {after : Phase Owner} {id : Uuid} {otp : StoredOtp Owner}
    (moves : Moves config now tx owner code table phase next (.continues after))
    (looks : after.looked = some (id, otp)) :
    phase.looked = some (id, otp) ∨ (table.cells id).view tx = some otp := by
  cases moves with
  | reads hit =>
    cases looks
    exact .inr (getOtp_some hit).1
  | expires | removes => cases looks
  | compares same => exact .inl looks
  | selects hit => exact .inl looks

theorem Moves.consumed {id target : Uuid} {otp result : StoredOtp Owner}
    (moves : Moves config now tx owner code table phase next (.consumed id otp target result)) :
    phase.looked = some (id, otp) ∧ ∃ stored, (table.cells target).view tx = some stored ∧
      stored.val.consumedAt = none ∧ result.val = { stored.val with consumedAt := some now } := by
  cases moves with
  | consumes done =>
    obtain ⟨stored, _, seen, _, unused, written, _⟩ := consumeOtp_returns done
    exact ⟨rfl, stored, seen, unused, written⟩

end OtpVerification

/-- The look-ups and comparisons that a call has made. -/
def Call.Checked (config : Config) : Call → Prop
  | .verifyRegistrationOtp email code (.checking _ phase) => phase.Checked config email code
  | .verifyRegistrationOtp _ code (.consumed _ otp _ result) =>
      OtpVerification.Compared config code otp result
  | .authenticateAccount _ code (.checking _ userId phase) => phase.Checked config userId code
  | .authenticateAccount _ code (.consumed _ _ _ otp _ result)
  | .authenticateAccount _ code (.contextual _ _ _ otp _ result)
  | .authenticateAccount _ code (.sessionCreated _ otp _ result _ _ _ _) =>
    OtpVerification.Compared config code otp result
  | _ => True

/-- The phases of a verification, one after another. -/
inductive VerifyRegistrationOtp.Passes (config : Config) (tx : Nat) (world : World)
    (email code : String) :
    Phase → Phase → Prop where
  | checks (stepped : OtpVerification.Moves config now tx email code world.registrationOtps
    phase table
      (.continues after)) : Passes config tx world email code (.checking now phase)
        (.checking now after)
  | consumes {id target : Uuid}
      (stepped : OtpVerification.Moves config now tx email code world.registrationOtps phase
      table (.consumed id otp target result)) :
      Passes config tx world email code (.checking now phase) (.consumed id otp target result)
  | succeeds {id target : Uuid} : Passes config tx world email code (.consumed id otp target result)
      (.ended (.registrationToken token))
  | fails (refused : outcome = .unhandled ∨ ∃ error, outcome = .error error) :
      Passes config tx world email code phase (.ended outcome)

theorem VerifyRegistrationOtp.step_passes {config : Config} {tx : Nat} {world next : World}
    {email code : String}
    {phase after : Phase} (taken : step config tx world email code phase = some (next, after)) :
    Passes config tx world email code phase after := by
  cases phase with
  | checking now phase =>
    simp only [step] at taken
    split at taken
    · cases taken
    · rename_i stepped
      cases taken
      exact .checks (OtpVerification.step_moves stepped)
    · cases taken
      exact .fails (.inr ⟨_, rfl⟩)
    · cases taken
      exact .fails (.inl rfl)
    · rename_i stepped
      cases taken
      exact .consumes (OtpVerification.step_moves stepped)
  | consumed =>
    cases taken
    exact .succeeds
  | ended => cases taken

/-- The phases of a login, one after another. -/
inductive AuthenticateAccount.Passes (config : Config) (tx : Nat) (world : World) (code : String) :
    Phase → Phase → Prop where
  | identifies : Passes config tx world code (.begun now) (.checking now userId .reading)
  | checks (stepped : OtpVerification.Moves config now tx userId code world.loginOtps phase table
      (.continues after)) : Passes config tx world code (.checking now userId phase)
        (.checking now userId after)
  | consumes {id target : Uuid}
      (stepped : OtpVerification.Moves config now tx userId code world.loginOtps phase table
      (.consumed id otp target result)) :
      Passes config tx world code (.checking now userId phase)
        (.consumed now userId id otp target result)
  | finds {id target : Uuid} :
    Passes config tx world code (.consumed now userId id otp target result)
      (.contextual now userId id otp target result)
  | opens {id target : Uuid} :
    Passes config tx world code (.contextual now userId id otp target result)
      (.sessionCreated id otp target result sessionId session accessToken refreshToken)
  | succeeds {id target : Uuid} : Passes config tx world code
      (.sessionCreated id otp target result sessionId session accessToken refreshToken)
      (.ended (.tokens accessToken refreshToken))
  | fails (refused : outcome = .unhandled ∨ ∃ error, outcome = .error error) :
      Passes config tx world code phase (.ended outcome)

theorem AuthenticateAccount.step_passes {config : Config} {tx : Nat} {world next : World}
    {email code : String}
    {draw : Draw} {phase after : Phase}
    (taken : step config tx world email code draw phase = some (next, after)) :
    Passes config tx world code phase after := by
  cases phase with
  | begun now =>
    simp only [step] at taken
    split at taken
    · cases taken
      exact .fails (.inr ⟨_, rfl⟩)
    · cases taken
      exact .identifies
  | checking now userId phase =>
    simp only [step] at taken
    split at taken
    · cases taken
    · rename_i stepped
      cases taken
      exact .checks (OtpVerification.step_moves stepped)
    · cases taken
      exact .fails (.inr ⟨_, rfl⟩)
    · cases taken
      exact .fails (.inl rfl)
    · rename_i stepped
      cases taken
      exact .consumes (OtpVerification.step_moves stepped)
  | consumed =>
    simp only [step] at taken
    split at taken
    · cases taken
      exact .fails (.inr ⟨_, rfl⟩)
    · cases taken
      exact .finds
  | contextual =>
    simp only [step] at taken
    split at taken
    · cases taken
      exact .fails (.inl rfl)
    · split at taken
      · cases taken
      · cases taken
        exact .fails (.inl rfl)
      · cases taken
        exact .opens
  | sessionCreated =>
    cases taken
    exact .succeeds
  | ended => cases taken

theorem Call.step_checked {config : Config} {tx : Nat} {world next : World} {draw : Draw}
    {call after : Call}
    (taken : call.step config tx world draw = some (next, after)) (checked : call.Checked config) :
    after.Checked config := by
  cases call with
  | verifyRegistrationOtp email code phase =>
    obtain ⟨last, moved, rfl⟩ := Processes.mapped_eq_some.mp taken
    cases VerifyRegistrationOtp.step_passes moved with
    | checks stepped => exact stepped.checked checked
    | consumes stepped => exact stepped.compared checked
    | succeeds | fails => trivial
  | authenticateAccount email code phase =>
    obtain ⟨last, moved, rfl⟩ := Processes.mapped_eq_some.mp taken
    cases AuthenticateAccount.step_passes moved with
    | identifies => trivial
    | checks stepped => exact stepped.checked checked
    | consumes stepped => exact stepped.compared checked
    | finds | opens => exact checked
    | succeeds | fails => trivial
  | requestRegistrationOtp | createAccount | requestLoginOtp | refreshAccessToken | logout =>
    obtain ⟨last, moved, rfl⟩ := Processes.mapped_eq_some.mp taken
    trivial

section Issued

variable {config : Config} {tx : Nat} {world next : World} {draw : Draw}
    {email code name workspaceName token : String}

theorem newOtp_val {Owner : Type} {now expiresAt : Time} {owner : Owner} {hash : String}
    {otp : StoredOtp Owner}
    (made : newOtp now owner hash expiresAt = some otp) :
    otp.val = { owner, otpHash := hash, expiresAt, createdAt := now } := admitted_eq_some.mp made

theorem createOtp_keys {Owner : Type} [DecidableEq Owner] {table next : OtpTable Owner} {id : Uuid}
    {otp : StoredOtp Owner} (done : createOtp table tx id otp = .returns next) : id ∉ table.keys ∧
      id ∈ next.keys := by
  obtain ⟨fresh, _, rfl⟩ := Relation.insert_returns done
  exact ⟨fresh, by simp⟩

/-- The statement that stores a code of a registration. -/
theorem RequestRegistrationOtp.step_created {phase : Phase} {deleted : Option Uuid} {id : Uuid}
    {otp : StoredOtp String} (taken : step config tx world email draw phase =
      some (next, .created deleted id otp)) :
    (∃ now, phase = .cleared now deleted ∧
      otp.val = { owner := email, otpHash := hashOtp config draw.secret,
                  expiresAt := otpExpiry + world.clock, createdAt := now }) ∧
      id = draw.id ∧ draw.id ∉ world.registrationOtps.keys ∧ draw.id ∈ next.registrationOtps.keys ∧
      next.issuedRegistrationOtps =
        world.issuedRegistrationOtps ++ [⟨draw.id, email, draw.secret⟩] := by
  cases phase with
  | cleared now =>
    simp only [step] at taken
    split at taken
    · cases taken
    · rename_i made
      split at taken
      · cases taken
      · cases taken
      · rename_i done
        cases taken
        exact ⟨⟨now, rfl, newOtp_val made⟩, rfl, (createOtp_keys done).1,
          (createOtp_keys done).2, rfl⟩
  | _ =>
    simp only [step] at taken
    try split at taken
    all_goals cases taken

/-- The statement that stores a code of a login. -/
theorem RequestLoginOtp.step_created {phase : Phase} {id : Uuid} {otp : StoredOtp Uuid}
    (taken : step config tx world email draw phase = some (next, .created id otp)) :
    (∃ userId, phase = .cleared userId ∧
      otp.val = { owner := userId, otpHash := hashOtp config draw.secret,
                  expiresAt := otpExpiry + world.clock, createdAt := world.clock } ∧
      next.issuedLoginOtps = world.issuedLoginOtps ++ [⟨draw.id, userId, draw.secret⟩]) ∧
      id = draw.id ∧ draw.id ∉ world.loginOtps.keys ∧ draw.id ∈ next.loginOtps.keys := by
  cases phase with
  | cleared userId =>
    simp only [step] at taken
    split at taken
    · cases taken
    · rename_i made
      split at taken
      · cases taken
      · cases taken
      · rename_i done
        cases taken
        exact ⟨⟨userId, rfl, newOtp_val made, rfl⟩, rfl, (createOtp_keys done).1,
          (createOtp_keys done).2⟩
  | deleting =>
    simp only [step] at taken
    split at taken
    · cases taken
    · cases taken
    · split at taken <;> cases taken
  | _ =>
    simp only [step] at taken
    try split at taken
    all_goals cases taken

theorem RequestRegistrationOtp.step_issued {phase after : Phase}
    (taken : step config tx world email draw phase = some (next, after)) :
    next.issuedLoginOtps = world.issuedLoginOtps ∧
      (next.issuedRegistrationOtps = world.issuedRegistrationOtps ∨
        ∃ deleted id otp, after = .created deleted id otp) := by
  cases phase with
  | cleared now =>
    simp only [step] at taken
    split at taken
    · cases taken
      exact ⟨rfl, .inl rfl⟩
    · split at taken
      · cases taken
      · cases taken
        exact ⟨rfl, .inl rfl⟩
      · cases taken
        exact ⟨rfl, .inr ⟨_, _, _, rfl⟩⟩
  | _ =>
    simp only [step] at taken
    try split at taken
    all_goals
      cases taken
      try exact ⟨rfl, .inl rfl⟩

theorem RequestLoginOtp.step_issued {phase after : Phase}
    (taken : step config tx world email draw phase = some (next, after)) :
    next.issuedRegistrationOtps = world.issuedRegistrationOtps ∧
      (next.issuedLoginOtps = world.issuedLoginOtps ∨ ∃ id otp, after = .created id otp) := by
  cases phase with
  | cleared userId =>
    simp only [step] at taken
    split at taken
    · cases taken
      exact ⟨rfl, .inl rfl⟩
    · split at taken
      · cases taken
      · cases taken
        exact ⟨rfl, .inl rfl⟩
      · cases taken
        exact ⟨rfl, .inr ⟨_, _, rfl⟩⟩
  | _ =>
    simp only [step] at taken
    try split at taken
    all_goals
      cases taken
      try exact ⟨rfl, .inl rfl⟩

theorem VerifyRegistrationOtp.step_issued {phase after : Phase}
    (taken : step config tx world email code phase = some (next, after)) :
    next.issuedRegistrationOtps = world.issuedRegistrationOtps ∧
      next.issuedLoginOtps = world.issuedLoginOtps := by
  cases phase <;>
  · simp only [step] at taken
    try split at taken
    all_goals
      cases taken
      try exact ⟨rfl, rfl⟩

theorem AuthenticateAccount.step_issued {phase after : Phase}
    (taken : step config tx world email code draw phase = some (next, after)) :
    next.issuedRegistrationOtps = world.issuedRegistrationOtps ∧
      next.issuedLoginOtps = world.issuedLoginOtps := by
  cases phase <;>
  · simp only [step] at taken
    repeat' split at taken
    all_goals
      cases taken
      try exact ⟨rfl, rfl⟩

theorem CreateAccount.step_issued {phase after : Phase}
    (taken : step config tx world name workspaceName draw phase = some (next, after)) :
    next.issuedRegistrationOtps = world.issuedRegistrationOtps ∧
      next.issuedLoginOtps = world.issuedLoginOtps := by
  cases phase with
  | available =>
    simp only [step] at taken
    split at taken
    · cases taken
    · cases taken
      exact ⟨rfl, rfl⟩
    · rename_i done
      obtain ⟨_, _, rfl⟩ := createUser_returns done
      cases taken
      exact ⟨rfl, rfl⟩
  | userCreated =>
    simp only [step] at taken
    split at taken
    · cases taken
    · cases taken
      exact ⟨rfl, rfl⟩
    · rename_i done
      obtain ⟨_, _, rfl⟩ := createWorkspace_returns done
      cases taken
      exact ⟨rfl, rfl⟩
  | workspaceCreated =>
    simp only [step] at taken
    split at taken
    · cases taken
    · cases taken
      exact ⟨rfl, rfl⟩
    · rename_i done
      obtain ⟨_, _, rfl⟩ := createWorkspaceMembership_returns done
      cases taken
      exact ⟨rfl, rfl⟩
  | _ =>
    simp only [step] at taken
    repeat' split at taken
    all_goals
      cases taken
      try exact ⟨rfl, rfl⟩

theorem RefreshAccessToken.step_issued {phase after : Phase}
    (taken : step config tx world token draw phase = some (next, after)) :
    next.issuedRegistrationOtps = world.issuedRegistrationOtps ∧
      next.issuedLoginOtps = world.issuedLoginOtps := by
  cases phase <;>
  · simp only [step] at taken
    try split at taken
    all_goals
      cases taken
      try exact ⟨rfl, rfl⟩

theorem Logout.step_issued {phase after : Phase}
    (taken : step config tx world token phase = some (next, after)) :
    next.issuedRegistrationOtps = world.issuedRegistrationOtps ∧
      next.issuedLoginOtps = world.issuedLoginOtps := by
  cases phase <;>
  · simp only [step] at taken
    try split at taken
    all_goals
      cases taken
      try exact ⟨rfl, rfl⟩

/-- Only the request of a flow issues codes of the flow. -/
theorem Call.step_issued {call last : Call}
    (taken : call.step config tx world draw = some (next, last)) :
    (next.issuedRegistrationOtps = world.issuedRegistrationOtps ∨ ∃ email phase,
      call = .requestRegistrationOtp email phase) ∧
      (next.issuedLoginOtps = world.issuedLoginOtps ∨ ∃ email phase,
        call = .requestLoginOtp email phase) := by
  cases call with
  | requestRegistrationOtp email phase =>
    obtain ⟨after, moved, rfl⟩ := Processes.mapped_eq_some.mp taken
    exact ⟨.inr ⟨email, phase, rfl⟩, .inl (RequestRegistrationOtp.step_issued moved).1⟩
  | requestLoginOtp email phase =>
    obtain ⟨after, moved, rfl⟩ := Processes.mapped_eq_some.mp taken
    exact ⟨.inl (RequestLoginOtp.step_issued moved).1, .inr ⟨email, phase, rfl⟩⟩
  | verifyRegistrationOtp =>
    obtain ⟨after, moved, rfl⟩ := Processes.mapped_eq_some.mp taken
    exact (VerifyRegistrationOtp.step_issued moved).imp .inl .inl
  | createAccount =>
    obtain ⟨after, moved, rfl⟩ := Processes.mapped_eq_some.mp taken
    exact (CreateAccount.step_issued moved).imp .inl .inl
  | authenticateAccount =>
    obtain ⟨after, moved, rfl⟩ := Processes.mapped_eq_some.mp taken
    exact (AuthenticateAccount.step_issued moved).imp .inl .inl
  | refreshAccessToken =>
    obtain ⟨after, moved, rfl⟩ := Processes.mapped_eq_some.mp taken
    exact (RefreshAccessToken.step_issued moved).imp .inl .inl
  | logout =>
    obtain ⟨after, moved, rfl⟩ := Processes.mapped_eq_some.mp taken
    exact (Logout.step_issued moved).imp .inl .inl

end Issued

/-- A flow of one-time passwords: its table, the codes it has issued, and what its calls have
done. -/
structure Flow (Owner : Type) [DecidableEq Owner] where
  table : World → OtpTable Owner
  issued : World → List (IssuedOtp Owner)
  writes : Writes → List (Uuid × Option (StoredOtp Owner))
  /-- The owner whose code the next statement of the call stores. -/
  stores : Call → Option Owner
  /-- The row that a verification has looked up. -/
  looked : Call → Option (Uuid × StoredOtp Owner)
  /-- The row that a verification has consumed, as it has left it. -/
  consumed : Call → Option (Uuid × StoredOtp Owner)
  /-- The code of a verification that has succeeded. -/
  succeeded : Call → Option String

/-- What the statements of a call do in a flow. -/
structure Flow.Lawful {Owner : Type} [DecidableEq Owner] (flow : Flow Owner) : Prop where
  moves : ∀ {tx world next writes written}, World.Moves tx writes world written next →
    Relation.Moves Otp.clash OtpChanged tx (flow.writes writes) (flow.table world)
      (flow.writes written)
      (flow.table next)
  sound : ∀ {world}, world.Sound → Relation.Sound Otp.clash OtpChanged (flow.table world)
  owned : ∀ {world tx writes}, World.Owned world tx writes →
    (flow.table world).Owned tx (flow.writes writes)
  kept : ∀ {tx world next writes written}, World.Moves tx writes world written next →
    flow.issued world ⊆ flow.issued next
  commits : ∀ world tx, flow.table (World.commit world tx) = (flow.table world).commit tx
  nothing : flow.writes {} = []
  ticks : ∀ (world : World) clock, flow.issued { world with clock } = flow.issued world
  aborts : ∀ world tx, flow.issued (World.rollback world tx) = flow.issued world
  empty : flow.issued World.empty = []
  empty_table : flow.table World.empty = Relation.empty
  starts : ∀ config clock request,
    flow.looked (Request.start config clock request) = none ∧
      flow.consumed (Request.start config clock request) = none
  fails : ∀ call : Call, flow.looked call.fail = none ∧ flow.consumed call.fail = none
  looks : ∀ {config tx world} {draw : Draw} {call : Call} {next after id otp},
    call.step config tx world draw = some (next, after) →
    flow.looked after = some (id, otp) →
    flow.looked call = some (id, otp) ∨
      flow.writes call.writes = [] ∧ ((flow.table world).cells id).view tx = some otp
  consumes : ∀ {config tx world} {draw : Draw} {call : Call} {next after target result},
    call.step config tx world draw = some (next, after) →
      flow.consumed after = some (target, result) →
    flow.consumed call = some (target, result) ∨
      flow.writes call.writes = [] ∧ ∃ stored now, ((flow.table world).cells target).view tx =
        some stored ∧
        stored.val.consumedAt = none ∧ result.val = { stored.val with consumedAt := some now }
  written : ∀ {call : Call} {target result}, flow.consumed call = some (target, result) →
    (target, some result) ∈ flow.writes call.writes
  versions : ∀ {config tx world} {draw : Draw} {call : Call} {next after id version},
    call.step config tx world draw = some (next, after) →
      (id, some version) ∈ flow.writes after.writes →
    (id, some version) ∈ flow.writes call.writes ∨ flow.consumed after = some (id, version) ∨
      version.val.otpHash = hashOtp config draw.secret ∧
        ⟨id, version.val.owner, draw.secret⟩ ∈ flow.issued next
  issues : ∀ {config tx world} {draw : Draw} {call : Call} {next after},
    call.step config tx world draw = some (next, after) →
    flow.issued next = flow.issued world ∨
      ∃ owner, flow.stores call = some owner ∧ draw.id ∉ (flow.table world).keys ∧
        draw.id ∈ (flow.table next).keys ∧
          flow.issued next = flow.issued world ++ [⟨draw.id, owner, draw.secret⟩]
  ends : ∀ {config tx world} {draw : Draw} {call : Call} {next after code},
    call.step config tx world draw = some (next, after) →
    flow.succeeded after = some code → ∃ id otp target result, flow.looked call = some (id, otp) ∧
      flow.consumed call = some (target, result) ∧
      (call.Checked config → OtpVerification.Compared config code otp result) ∧
        next = world.commit tx

theorem deletedOtp_some {Owner : Type} {deleted : Option Uuid} {id : Uuid}
    {version : StoredOtp Owner} :
    (id, some version) ∉ deletedOtp deleted := by
  cases deleted <;> simp [deletedOtp]

def registrationOtps : Flow String where
  table := World.registrationOtps
  issued := World.issuedRegistrationOtps
  writes := Writes.registrationOtps
  stores
    | .requestRegistrationOtp email (.cleared _ _) => some email
    | _ => none
  looked
    | .verifyRegistrationOtp _ _ (.checking _ phase) => phase.looked
    | .verifyRegistrationOtp _ _ (.consumed id otp _ _) => some (id, otp)
    | _ => none
  consumed
    | .verifyRegistrationOtp _ _ (.consumed _ _ target result) => some (target, result)
    | _ => none
  succeeded
    | .verifyRegistrationOtp _ code (.ended (.registrationToken _)) => some code
    | _ => none

def loginOtps : Flow Uuid where
  table := World.loginOtps
  issued := World.issuedLoginOtps
  writes := Writes.loginOtps
  stores
    | .requestLoginOtp _ (.cleared userId) => some userId
    | _ => none
  looked
    | .authenticateAccount _ _ (.checking _ _ phase) => phase.looked
    | .authenticateAccount _ _ (.consumed _ _ id otp _ _)
    | .authenticateAccount _ _ (.contextual _ _ id otp _ _)
    | .authenticateAccount _ _ (.sessionCreated id otp _ _ _ _ _ _) => some (id, otp)
    | _ => none
  consumed
    | .authenticateAccount _ _ (.consumed _ _ _ _ target result)
    | .authenticateAccount _ _ (.contextual _ _ _ _ target result)
    | .authenticateAccount _ _ (.sessionCreated _ _ target result _ _ _ _) => some (target, result)
    | _ => none
  succeeded
    | .authenticateAccount _ code (.ended (.tokens _ _)) => some code
    | _ => none

theorem registrationOtps_lawful : registrationOtps.Lawful where
  moves moves := moves.registrationOtps
  sound sound := sound.registrationOtps
  owned owned := owned.registrationOtps
  kept moves := moves.issuedRegistrationOtps
  commits _ _ := rfl
  nothing := rfl
  ticks _ _ := rfl
  aborts _ _ := rfl
  empty := rfl
  empty_table := rfl
  starts config clock request := by
    cases request <;> exact ⟨rfl, rfl⟩
  fails call := by cases call <;> exact ⟨rfl, rfl⟩
  looks {config tx world draw call next after id otp} taken looks := by
    cases call with
    | verifyRegistrationOtp email code phase =>
      obtain ⟨last, moved, rfl⟩ := Processes.mapped_eq_some.mp taken
      cases VerifyRegistrationOtp.step_passes moved with
      | checks stepped =>
        rcases stepped.looked looks with earlier | seen
        · exact .inl earlier
        · exact .inr ⟨rfl, seen⟩
      | consumes stepped =>
        cases looks
        exact .inl stepped.consumed.1
      | succeeds | fails => cases looks
    | _ =>
      obtain ⟨last, moved, rfl⟩ := Processes.mapped_eq_some.mp taken
      cases looks
  consumes {config tx world draw call next after target result} taken consumes := by
    cases call with
    | verifyRegistrationOtp email code phase =>
      obtain ⟨last, moved, rfl⟩ := Processes.mapped_eq_some.mp taken
      cases VerifyRegistrationOtp.step_passes moved with
      | consumes stepped =>
        cases consumes
        obtain ⟨stored, seen, unused, same⟩ := stepped.consumed.2
        exact .inr ⟨rfl, stored, _, seen, unused, same⟩
      | checks | succeeds | fails => cases consumes
    | _ =>
      obtain ⟨last, moved, rfl⟩ := Processes.mapped_eq_some.mp taken
      cases consumes
  written {call target result} consumes := by
    cases call with
    | verifyRegistrationOtp email code phase =>
      cases phase with
      | consumed =>
        cases consumes
        exact List.mem_singleton.mpr rfl
      | _ => cases consumes
    | _ => cases consumes
  versions {config tx world draw call next after id version} taken member := by
    cases call with
    | requestRegistrationOtp email phase =>
      obtain ⟨last, moved, rfl⟩ := Processes.mapped_eq_some.mp taken
      cases last with
      | created deleted target otp =>
        rcases List.mem_append.mp member with removed | added
        · exact absurd removed deletedOtp_some
        · cases List.mem_singleton.mp added
          obtain ⟨⟨now, _, stored⟩, rfl, _, _, issued⟩ := RequestRegistrationOtp.step_created moved
          exact .inr (.inr ⟨by rw [stored], by simp [registrationOtps, issued, stored]⟩)
      | cleared => exact absurd member deletedOtp_some
      | _ => cases member
    | verifyRegistrationOtp email code phase =>
      obtain ⟨last, moved, rfl⟩ := Processes.mapped_eq_some.mp taken
      cases last with
      | consumed =>
        cases List.mem_singleton.mp member
        exact .inr (.inl rfl)
      | _ => cases member
    | _ =>
      obtain ⟨last, moved, rfl⟩ := Processes.mapped_eq_some.mp taken
      cases last <;> cases member
  issues {config tx world draw call next after} taken := by
    rcases (Call.step_issued taken).1 with same | ⟨email, phase, rfl⟩
    · exact .inl same
    · obtain ⟨last, moved, rfl⟩ := Processes.mapped_eq_some.mp taken
      rcases (RequestRegistrationOtp.step_issued moved).2 with same | ⟨deleted, id, otp, rfl⟩
      · exact .inl same
      · obtain ⟨⟨now, rfl, _⟩, _, fresh, known, issued⟩ := RequestRegistrationOtp.step_created moved
        exact .inr ⟨email, rfl, fresh, known, issued⟩
  ends {config tx world draw call next after code} taken succeeds := by
    cases call with
    | verifyRegistrationOtp email presented phase =>
      obtain ⟨last, moved, rfl⟩ := Processes.mapped_eq_some.mp taken
      cases VerifyRegistrationOtp.step_passes moved with
      | @succeeds otp result token id target =>
        cases moved
        cases succeeds
        exact ⟨id, otp, target, result, rfl, rfl, fun checked => checked, rfl⟩
      | fails refused => rcases refused with rfl | ⟨_, rfl⟩ <;> cases succeeds
      | checks | consumes => cases succeeds
    | _ =>
      obtain ⟨last, moved, rfl⟩ := Processes.mapped_eq_some.mp taken
      cases succeeds

theorem loginOtps_lawful : loginOtps.Lawful where
  moves moves := moves.loginOtps
  sound sound := sound.loginOtps
  owned owned := owned.loginOtps
  kept moves := moves.issuedLoginOtps
  commits _ _ := rfl
  nothing := rfl
  ticks _ _ := rfl
  aborts _ _ := rfl
  empty := rfl
  empty_table := rfl
  starts config clock request := by
    cases request <;> exact ⟨rfl, rfl⟩
  fails call := by cases call <;> exact ⟨rfl, rfl⟩
  looks {config tx world draw call next after id otp} taken looks := by
    cases call with
    | authenticateAccount email code phase =>
      obtain ⟨last, moved, rfl⟩ := Processes.mapped_eq_some.mp taken
      cases AuthenticateAccount.step_passes moved with
      | checks stepped =>
        rcases stepped.looked looks with earlier | seen
        · exact .inl earlier
        · exact .inr ⟨rfl, seen⟩
      | consumes stepped =>
        cases looks
        exact .inl stepped.consumed.1
      | finds | opens => exact .inl looks
      | identifies | succeeds | fails => cases looks
    | _ =>
      obtain ⟨last, moved, rfl⟩ := Processes.mapped_eq_some.mp taken
      cases looks
  consumes {config tx world draw call next after target result} taken consumes := by
    cases call with
    | authenticateAccount email code phase =>
      obtain ⟨last, moved, rfl⟩ := Processes.mapped_eq_some.mp taken
      cases AuthenticateAccount.step_passes moved with
      | consumes stepped =>
        cases consumes
        obtain ⟨stored, seen, unused, same⟩ := stepped.consumed.2
        exact .inr ⟨rfl, stored, _, seen, unused, same⟩
      | finds | opens => exact .inl consumes
      | identifies | checks | succeeds | fails => cases consumes
    | _ =>
      obtain ⟨last, moved, rfl⟩ := Processes.mapped_eq_some.mp taken
      cases consumes
  written {call target result} consumes := by
    cases call with
    | authenticateAccount email code phase =>
      cases phase with
      | consumed | contextual | sessionCreated =>
        cases consumes
        exact List.mem_singleton.mpr rfl
      | _ => cases consumes
    | _ => cases consumes
  versions {config tx world draw call next after id version} taken member := by
    cases call with
    | requestLoginOtp email phase =>
      obtain ⟨last, moved, rfl⟩ := Processes.mapped_eq_some.mp taken
      cases last with
      | created target otp =>
        cases List.mem_singleton.mp member
        obtain ⟨⟨userId, _, stored, issued⟩, rfl, _, _⟩ := RequestLoginOtp.step_created moved
        exact .inr (.inr ⟨by rw [stored], by simp [loginOtps, issued, stored]⟩)
      | deleted => cases List.mem_singleton.mp member
      | _ => cases member
    | authenticateAccount email code phase =>
      obtain ⟨last, moved, rfl⟩ := Processes.mapped_eq_some.mp taken
      cases last with
      | consumed | contextual | sessionCreated =>
        cases List.mem_singleton.mp member
        exact .inr (.inl rfl)
      | _ => cases member
    | requestRegistrationOtp | verifyRegistrationOtp | createAccount | refreshAccessToken
    | logout =>
      obtain ⟨last, moved, rfl⟩ := Processes.mapped_eq_some.mp taken
      cases last <;> cases member
  issues {config tx world draw call next after} taken := by
    rcases (Call.step_issued taken).2 with same | ⟨email, phase, rfl⟩
    · exact .inl same
    · obtain ⟨last, moved, rfl⟩ := Processes.mapped_eq_some.mp taken
      rcases (RequestLoginOtp.step_issued moved).2 with same | ⟨id, otp, rfl⟩
      · exact .inl same
      · obtain ⟨⟨userId, rfl, _, issued⟩, _, fresh, known⟩ := RequestLoginOtp.step_created moved
        exact .inr ⟨userId, rfl, fresh, known, issued⟩
  ends {config tx world draw call next after code} taken succeeds := by
    cases call with
    | authenticateAccount email presented phase =>
      obtain ⟨last, moved, rfl⟩ := Processes.mapped_eq_some.mp taken
      cases AuthenticateAccount.step_passes moved with
      | @succeeds otp result sessionId session accessToken refreshToken id target =>
        cases moved
        cases succeeds
        exact ⟨id, otp, target, result, rfl, rfl, fun checked => checked, rfl⟩
      | fails refused => rcases refused with rfl | ⟨_, rfl⟩ <;> cases succeeds
      | identifies | checks | consumes | finds | opens => cases succeeds
    | _ =>
      obtain ⟨last, moved, rfl⟩ := Processes.mapped_eq_some.mp taken
      cases succeeds

end Relays.Auth
