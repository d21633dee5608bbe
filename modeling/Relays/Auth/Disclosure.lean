import Relays.Auth.FreshOtp

/-! The login of an email without an account, and of one with an account and another code: asking
for a code ends in the same response, submitting one does not. -/

namespace Relays.Auth

open ReadCommitted Transition

/-- The request, run alone in this state, can end in this response. -/
def EndsIn (config : Config) (state : State) (request : Request) (outcome : Outcome) : Prop :=
  ∃ steps last, alone config state request steps = some last ∧
    (last.calls[state.calls.length]?).bind Call.outcome = some outcome

/-- The request, run alone in this state, ends in this response and in no other. -/
def Responds (config : Config) (state : State) (request : Request) (outcome : Outcome) : Prop :=
  ∀ answer, EndsIn config state request answer ↔ answer = outcome

/-- The caller cannot tell the two states apart by the response. -/
def SameResponse (config : Config) (first second : State) (request : Request) : Prop :=
  ∃ outcome, Responds config first request outcome ∧ Responds config second request outcome

/-- Neither call of the login flow discloses which of the two states it has run in. -/
structure Undisclosed (config : Config) (email otp : String) (first second : State) : Prop where
  requestLoginOtp : ∀ permitted, SameResponse config first second (.requestLoginOtp email permitted)
  authenticateAccount : SameResponse config first second (.authenticateAccount email otp)

/-- The second database differs from the first in having an account with this email, with its
workspace, its sessions and possibly a code for the login, which is not the submitted one. -/
structure DifferInAccount (config : Config) (email otp : String) (userId : Uuid)
    (first second : World) : Prop where
  clock : first.clock = second.clock
  account : ∃ user, second.users.row userId = some user ∧ user.email = email
  users : ∀ id, first.users.row id = if id = userId then none else second.users.row id
  workspaces : ∀ id, second.members.row (id, userId) = none →
    first.workspaces.row id = second.workspaces.row id
  members : ∀ key, first.members.row key =
    (second.members.row key).filter (fun member => member.userId ≠ userId)
  sessions : ∀ id, first.sessions.row id =
    (second.sessions.row id).filter (fun session => session.val.userId ≠ userId)
  registrationOtps : ∀ id, first.registrationOtps.row id = second.registrationOtps.row id
  loginOtps : ∀ id, first.loginOtps.row id =
    (second.loginOtps.row id).filter (fun otp => otp.val.owner ≠ userId)
  wrong : ∀ id row, second.loginOtps.row id = some row → row.val.owner = userId →
    row.val.otpHash ≠ hashOtp config otp

section Responses

variable {config : Config} {state first second : State} {request : Request}
    {outcome one two : Outcome}

theorem Responds.unique (left : Responds config state request one)
    (right : Responds config state request two) :
    one = two := (right one).mp ((left one).mpr rfl)

theorem SameResponse.same (same : SameResponse config first second request)
    (left : Responds config first request one)
    (right : Responds config second request two) : one = two := by
  obtain ⟨outcome, here, there⟩ := same
  exact (left.unique here).trans (there.unique right)

variable {holds : World → Call → Prop} {rank : Call → Nat} {steps : List State.Event}
    {middle : State}

/-- There is always a new id to draw, so the call gets to its end. -/
theorem Advances.ends (advances : Advances config state.calls.length holds rank)
    (quiet : Quiet state)
    (sound : state.Sound) (begins : holds state.world (request.start config state.world.clock))
    (reached : alone config state request steps = some middle) : ∃ outcome,
      EndsIn config state request outcome := by
  obtain ⟨undisturbed, call, found, held, _⟩ := advances.kept quiet sound begins reached
  induction remaining : rank call using Nat.strong_induction_on generalizing steps middle call with
  | _ remaining ih =>
    cases ended : call.outcome with
    | some outcome => exact ⟨outcome, steps, middle, reached, by simp [found, ended]⟩
    | none =>
      obtain ⟨fresh, unseen⟩ := Infinite.exists_notMem_finset
        (middle.world.registrationOtps.keys ++ middle.world.loginOtps.keys).toFinset
      simp only [List.mem_toFinset, List.mem_append, not_or] at unseen
      have permitted : AloneStep state.calls.length middle (.call state.calls.length ⟨fresh, ""⟩) :=
        ⟨rfl, unseen.1, unseen.2⟩
      obtain ⟨next, after, taken, _, nearer⟩ :=
        advances.steps middle call _ undisturbed found held ended permitted
      have further := alone_step reached found permitted taken
      obtain ⟨undisturbed', call', found', held', _⟩ := advances.kept quiet sound begins further
      obtain rfl := Option.some.inj (found'.symm.trans (Processes.set_self found))
      exact ih _ (remaining ▸ nearer) further undisturbed' _ found' held' ‹_› rfl

theorem Advances.responds (advances : Advances config state.calls.length holds rank)
    (quiet : Quiet state)
    (sound : state.Sound) (begins : holds state.world (request.start config state.world.clock))
    (ended : ∀ world call answer, holds world call → call.outcome = some answer →
      answer = outcome) :
    Responds config state request outcome := by
  have answers (answer : Outcome) (ends : EndsIn config state request answer) :
      answer = outcome := by
    obtain ⟨steps, last, reached, answered⟩ := ends
    obtain ⟨_, call, found, held, _⟩ := advances.kept quiet sound begins reached
    rw [found, Option.bind_some] at answered
    exact ended last.world call answer held answered
  intro answer
  constructor
  · exact answers answer
  · rintro rfl
    obtain ⟨answer, ends⟩ := advances.ends quiet sound begins (show alone config state request [] =
      some _ from rfl)
    exact answers answer ends ▸ ends

end Responses

section Wrong

variable {config : Config} {table : OtpTable Uuid} {tx : Nat} {userId : Uuid} {otp : String}

/-- Every code of the user that the transaction sees is another one. -/
def OtherCodes (config : Config) (table : OtpTable Uuid) (tx : Nat) (userId : Uuid)
    (otp : String) : Prop :=
  ∀ key row, (table.cells key).view tx = some row → row.val.owner = userId →
    row.val.otpHash ≠ hashOtp config otp

namespace OtpVerification

/-- The phases of a verification that the submitted code does not pass. -/
def Phase.Wrong (config : Config) (otp : String) : Phase Uuid → Prop
  | .reading | .expired | .deleting _ => True
  | .read _ row => row.val.otpHash ≠ hashOtp config otp
  | .matched _ _ | .consuming _ _ _ => False

/-- The statements that such a verification has before it at most. -/
def Phase.remaining : Phase Uuid → Nat
  | .reading => 4
  | .read _ _ => 3
  | .expired => 2
  | .deleting _ => 1
  | .matched _ _ | .consuming _ _ _ => 0

theorem step_wrong (clock now : Time) {phase : Phase Uuid} (free : table.Free tx)
    (others : OtherCodes config table tx userId otp) (wrong : phase.Wrong config otp) :
    (∃ next, step config clock now tx userId otp table phase = some (next, .raises invalidOtp)) ∨
      ∃ after, step config clock now tx userId otp table phase = some (table, .continues after) ∧
        after.Wrong config otp ∧ after.remaining < phase.remaining := by
  cases phase with
  | reading =>
    cases hit : getOtp table tx userId with
    | none => exact .inl ⟨table, by simp [step, hit]⟩
    | some pair =>
      obtain ⟨id, row⟩ := pair
      obtain ⟨seen, own, _⟩ := getOtp_some hit
      exact .inr ⟨.read id row, by simp [step, hit], others id row seen own,
        by simp [Phase.remaining]⟩
  | read id row =>
    by_cases late : row.val.expiresAt ≤ clock
    · exact .inr ⟨.expired, by simp [step, check, late], trivial, by simp [Phase.remaining]⟩
    · exact .inl ⟨table, by simp [step, check, late, Ne.symm wrong]⟩
  | expired =>
    cases hit : findOtp table tx userId with
    | none => exact .inl ⟨table, by simp [step, hit]⟩
    | some pair => exact .inr ⟨.deleting pair.1, by simp [step, hit], trivial,
      by simp [Phase.remaining]⟩
  | deleting target =>
    cases seen : (table.cells target).view tx with
    | none => exact .inl ⟨table, by simp [step, deleteOtp, Relation.delete, free target, seen]⟩
    | some row =>
      by_cases own : ownedBy userId row = true
      · exact .inl ⟨_, by simp only [step, deleteOtp, free.delete seen own]; rfl⟩
      · exact .inl ⟨table, by simp [step, deleteOtp, Relation.delete, free target, seen, own]⟩
  | matched => cases wrong
  | consuming => cases wrong

end OtpVerification

end Wrong

/-- What a login that runs alone with a wrong code finds. -/
def AuthenticateAccount.Phase.Wrong (config : Config) (index : Nat) (email otp : String)
    (userId : Uuid) (world : World) :
    Phase → Prop
  | .begun _ => (∃ user, getUserByEmail world index email = some (userId, user)) ∧
      OtherCodes config world.loginOtps index userId otp
  | .checking _ id phase => id = userId ∧ phase.Wrong config otp ∧
    OtherCodes config world.loginOtps index userId otp
  | .ended outcome => outcome = .error OtpVerification.invalidOtp
  | _ => False

def AuthenticateAccount.Phase.remaining : Phase → Nat
  | .begun _ => 5
  | .checking _ _ phase => phase.remaining
  | _ => 0

/-- The same for the call of such a login. -/
def Call.loginRemaining : Call → Nat
  | .authenticateAccount _ _ phase => phase.remaining
  | _ => 0

theorem AuthenticateAccount.step_wrong (config : Config) (draw : Draw) {current : State}
    {index : Nat}
    {email otp : String} {userId : Uuid} {phase : Phase} (undisturbed : Undisturbed index current)
    (wrong : phase.Wrong config index email otp userId current.world)
    (running : ∀ outcome, phase ≠ .ended outcome) :
    ∃ next after, step config index current.world email otp draw phase = some (next, after) ∧
      after.Wrong config index email otp userId next ∧ after.remaining < phase.remaining := by
  cases phase with
  | begun now =>
    obtain ⟨⟨user, known⟩, others⟩ := wrong
    exact ⟨_, .checking now userId .reading, by simp [step, known], ⟨rfl, trivial, others⟩,
      by simp [Phase.remaining, OtpVerification.Phase.remaining]⟩
  | checking now id phase =>
    obtain ⟨rfl, fails, others⟩ := wrong
    have free : current.world.loginOtps.Free index := undisturbed.free loginOtps_lawful
    rcases OtpVerification.step_wrong current.world.clock now free others fails with
      ⟨table, raised⟩ | ⟨after, continued, fails', nearer⟩
    · refine ⟨_, .ended (.error OtpVerification.invalidOtp), by simp only [step, raised]; rfl,
        rfl, ?_⟩
      cases phase with
      | matched | consuming => cases fails
      | _ => simp [Phase.remaining, OtpVerification.Phase.remaining]
    · exact ⟨_, .checking now id after, by simp only [step, continued], ⟨rfl, fails', others⟩,
        nearer⟩
  | ended outcome => exact absurd rfl (running outcome)
  | _ => cases wrong

section Login

variable {config : Config} {state : State} {email otp : String} {userId : Uuid}

theorem request_responds_limited (quiet : Quiet state) (sound : state.Sound) :
    Responds config state (.requestLoginOtp email false) (.error tooManyRequests) := by
  have advances : Advances config state.calls.length
      (fun _ call => call = .requestLoginOtp email (.ended (.error tooManyRequests)))
        Call.remaining := by
    constructor
    · rintro world elapsed call rfl
      rfl
    · rintro current call draw undisturbed found rfl running permitted
      cases running
  refine advances.responds quiet sound rfl ?_
  rintro world call answer rfl ended
  exact (Option.some.inj ended).symm

theorem request_responds_unknown (quiet : Quiet state) (sound : state.Sound)
    (absent : ∀ userId, ¬ Registered state email userId) :
    Responds config state (.requestLoginOtp email true) .done := by
  let holds (world : World) (call : Call) : Prop :=
    call = .requestLoginOtp email .begun ∧ getUserByEmail world state.calls.length email = none ∨
      call = .requestLoginOtp email (.ended .done)
  have advances : Advances config state.calls.length holds Call.remaining := by
    constructor
    · intro world elapsed call held
      exact held
    · rintro current call draw undisturbed found (⟨rfl, unknown⟩ | rfl) running permitted
      · exact ⟨current.world, .requestLoginOtp email (.ended .done),
          Processes.mapped_eq_some.mpr ⟨_, by simp only [RequestLoginOtp.step, unknown], rfl⟩,
            .inr rfl,
          by simp [Call.remaining]⟩
      · cases running
  refine advances.responds quiet sound (.inl ⟨rfl, getUserByEmail_none quiet sound _ absent⟩) ?_
  rintro world call answer (⟨rfl, _⟩ | rfl) ended
  · cases ended
  · exact (Option.some.inj ended).symm

theorem authenticate_responds_unknown (quiet : Quiet state) (sound : state.Sound)
    (absent : ∀ userId, ¬ Registered state email userId) :
    Responds config state (.authenticateAccount email otp)
      (.error AuthenticateAccount.invalidCredentials) := by
  let holds (world : World) (call : Call) : Prop :=
    (∃ now, call = .authenticateAccount email otp (.begun now)) ∧
        getUserByEmail world state.calls.length email = none ∨
      call = .authenticateAccount email otp (.ended (.error AuthenticateAccount.invalidCredentials))
  let rank (call : Call) : Nat := if call.outcome.isSome then 0 else 1
  have advances : Advances config state.calls.length holds rank := by
    constructor
    · intro world elapsed call held
      exact held
    · rintro current call draw undisturbed found (⟨⟨now, rfl⟩, unknown⟩ | rfl) running permitted
      · exact ⟨current.world.rollback state.calls.length,
          .authenticateAccount email otp (.ended (.error AuthenticateAccount.invalidCredentials)),
          Processes.mapped_eq_some.mpr ⟨_, by simp only [AuthenticateAccount.step, unknown], rfl⟩,
            .inr rfl,
          by simp [rank, Call.outcome]⟩
      · cases running
  refine advances.responds quiet sound
    (.inl ⟨⟨_, rfl⟩, getUserByEmail_none quiet sound _ absent⟩) ?_
  rintro world call answer (⟨⟨now, rfl⟩, _⟩ | rfl) ended
  · cases ended
  · exact (Option.some.inj ended).symm

theorem authenticate_responds_wrong (quiet : Quiet state) (sound : state.Sound)
    (registered : Registered state email userId)
    (wrong : ∀ id row, state.world.loginOtps.row id = some row → row.val.owner = userId →
      row.val.otpHash ≠ hashOtp config otp) :
    Responds config state (.authenticateAccount email otp) (.error OtpVerification.invalidOtp) := by
  let holds (world : World) (call : Call) : Prop :=
    ∃ phase, call = .authenticateAccount email otp phase ∧
      phase.Wrong config state.calls.length email otp userId world
  have advances : Advances config state.calls.length holds Call.loginRemaining := by
    constructor
    · rintro world elapsed call ⟨phase, rfl, fails⟩
      refine ⟨phase, rfl, ?_⟩
      cases phase <;> exact fails
    · rintro current call draw undisturbed found ⟨phase, rfl, fails⟩ running permitted
      obtain ⟨next, after, taken, fails', nearer⟩ :=
        AuthenticateAccount.step_wrong config draw undisturbed fails
        (by rintro outcome rfl; cases running)
      exact ⟨next, _, Processes.mapped_eq_some.mpr ⟨after, taken, rfl⟩, ⟨after, rfl, fails'⟩,
        nearer⟩
  have others : OtherCodes config state.world.loginOtps state.calls.length userId otp := by
    intro key row seen own
    rw [Relation.view_of_unwritten (quiet.owned sound _).loginOtps] at seen
    exact wrong key row seen own
  refine advances.responds quiet sound ⟨_, rfl, getUserByEmail_some quiet sound _ registered,
    others⟩ ?_
  rintro world call answer ⟨phase, rfl, fails⟩ ended
  cases phase with
  | ended outcome =>
    obtain rfl := Option.some.inj ended
    exact fails
  | _ => cases ended

theorem request_responds_known (quiet : Quiet state) (sound : state.Sound)
    (registered : Registered state email userId) :
    Responds config state (.requestLoginOtp email true) .done := by
  obtain ⟨holds, answering, begins⟩ :=
    @login_answering config state email userId quiet sound registered
  have advances := answering.advances fun _ _ permitted => permitted.2.2
  refine advances.responds quiet sound begins ?_
  intro world call answer held ended
  exact (answering.ended world call answer held ended).1

end Login

section Twins

variable {config : Config} {first second : State} {email otp : String} {userId : Uuid}

theorem DifferInAccount.registered
    (differ : DifferInAccount config email otp userId first.world second.world) :
    Registered second email userId := differ.account

theorem DifferInAccount.absent
    (differ : DifferInAccount config email otp userId first.world second.world)
    (sound : second.Sound) (id : Uuid) : ¬ Registered first email id := by
  rintro ⟨user, present, same⟩
  rw [differ.users id] at present
  split at present
  · cases present
  · rename_i apart
    obtain ⟨account, stored, own⟩ := differ.account
    have clashes := sound.world.users.distinct id userId user account apart present stored
    simp [User.clash, same, own] at clashes

theorem account_disclosed (quiet : Quiet first) (sound : first.Sound) (quiet' : Quiet second)
    (sound' : second.Sound)
    (differ : DifferInAccount config email otp userId first.world second.world) :
    (∀ permitted, SameResponse config first second (.requestLoginOtp email permitted)) ∧
      ¬ Undisclosed config email otp first second := by
  have absent := differ.absent sound'
  constructor
  · intro permitted
    cases permitted with
    | true => exact ⟨_, request_responds_unknown quiet sound absent,
      request_responds_known quiet' sound' differ.registered⟩
    | false => exact ⟨_, request_responds_limited quiet sound,
      request_responds_limited quiet' sound'⟩
  · intro undisclosed
    have same := undisclosed.authenticateAccount.same
      (authenticate_responds_unknown quiet sound absent)
      (authenticate_responds_wrong quiet' sound' differ.registered differ.wrong)
    cases same

end Twins

section Sample

/-- An account, and a code that has been requested for its login. -/
def requestsLogin : List State.Event :=
  registers ++ .arrive (.requestLoginOtp "ann@example.com" true) ::
    calls 1 [⟨0, ""⟩, ⟨0, ""⟩, ⟨10, "222222"⟩, ⟨0, ""⟩]

/-- All calls have ended, and every row belongs to the account of this user, whose code is another
one. -/
private def onlyAccount (config : Config) (email otp : String) (userId : Uuid)
    (state : State) : Bool :=
  state.calls.all (fun call => call.outcome.isSome) && state.world.clock = 0 &&
    (state.world.users.row userId).any (fun user => user.email = email) && state.world.users.keys =
      [userId] &&
    state.world.workspaces.keys.all (fun id => (state.world.members.row (id, userId)).isSome) &&
    state.world.members.keys.all (fun key => (state.world.members.row key).all fun member =>
      member.userId = userId) &&
    state.world.sessions.keys.all (fun id =>
      (state.world.sessions.row id).all fun session => session.val.userId = userId) &&
    state.world.registrationOtps.keys.isEmpty &&
    state.world.loginOtps.keys.all (fun id => (state.world.loginOtps.row id).all fun row =>
      row.val.owner = userId && row.val.otpHash ≠ hashOtp config otp)

variable {config : Config} {email otp : String} {userId : Uuid} {state : State}

private theorem row_of_checked {Key Row : Type} [DecidableEq Key] {clash : Row → Row → Bool}
    {changed : Row → Option Row → Prop} {table : Relation Key Nat Row} {check : Row → Bool}
    {key : Key} {row : Row}
    (sound : Relation.Sound clash changed table)
    (checked : ∀ key ∈ table.keys, (table.row key).all check = true)
    (present : table.row key = some row) :
    check row = true := by
  have member : key ∈ table.keys :=
    sound.member fun nothing => by simp [Relation.row, nothing] at present
  simpa [present] using checked key member

private theorem filter_of_checked {Key Row : Type} [DecidableEq Key] {clash : Row → Row → Bool}
    {changed : Row → Option Row → Prop} {table : Relation Key Nat Row} {check keep : Row → Bool}
    (sound : Relation.Sound clash changed table)
    (checked : ∀ key ∈ table.keys, (table.row key).all check = true)
    (dropped : ∀ row, check row = true → keep row = false)
    (key : Key) : none = (table.row key).filter keep := by
  cases present : table.row key with
  | none => rfl
  | some row => rw [Option.filter_some, dropped row (row_of_checked sound checked present)]; rfl

/-- Such a state differs in the account from the one in which nothing has happened yet. -/
private theorem onlyAccount_differ (sound : state.Sound)
    (only : onlyAccount config email otp userId state = true) :
    DifferInAccount config email otp userId State.init.world state.world := by
  simp only [onlyAccount, Bool.and_eq_true, List.all_eq_true, decide_eq_true_eq, List.isEmpty_iff]
    at only
  obtain ⟨⟨⟨⟨⟨⟨⟨⟨_, clock⟩, account⟩, users⟩, workspaces⟩, members⟩, sessions⟩, registrationOtps⟩,
    loginOtps⟩ := only
  constructor
  · exact clock.symm
  · obtain ⟨user, present, own⟩ := Option.any_eq_true _ _ |>.mp account
    exact ⟨user, present, by simpa using own⟩
  · intro id
    split
    · rfl
    · rename_i apart
      have unknown := sound.world.users.known id (by simpa [users] using apart)
      simp [Relation.row, unknown, State.init, World.empty, Relation.empty, Table.empty]
  · intro id stranger
    have unknown := sound.world.workspaces.known id fun member => by
      simpa [stranger] using workspaces id member
    simp [Relation.row, unknown, State.init, World.empty, Relation.empty, Table.empty]
  · exact filter_of_checked sound.world.members members (by simp)
  · exact filter_of_checked sound.world.sessions sessions (by simp)
  · intro id
    have unknown := sound.world.registrationOtps.known id (by simp [registrationOtps])
    simp [Relation.row, unknown, State.init, World.empty, Relation.empty, Table.empty]
  · exact filter_of_checked sound.world.loginOtps loginOtps (by simp; tauto)
  · intro id row present own
    have checked := row_of_checked sound.world.loginOtps loginOtps present
    simp only [Bool.and_eq_true, decide_eq_true_eq] at checked
    exact checked.2

theorem State.init_quiet : Quiet State.init := quiet_of_ended (by simp [State.init])

private theorem onlyAccount_exists : ∃ state, Quiet state ∧ state.Sound ∧
    DifferInAccount sampleConfig "ann@example.com" "111111" 1 State.init.world state.world := by
  obtain ⟨state, run, observed⟩ :=
    Run.exists_of_execute (State.system sampleConfig) Any requestsLogin
    (onlyAccount sampleConfig "ann@example.com" "111111" 1) (by decide)
  have sound := State.run_sound run
  refine ⟨state, quiet_of_ended ?_, sound, onlyAccount_differ sound observed⟩
  simp only [onlyAccount, Bool.and_eq_true, List.all_eq_true] at observed
  exact observed.1.1.1.1.1.1.1.1

theorem account_disclosed_requestsLogin : ∃ state,
    DifferInAccount sampleConfig "ann@example.com" "111111" 1 State.init.world state.world ∧
      (∀ permitted, SameResponse sampleConfig State.init state
        (.requestLoginOtp "ann@example.com" permitted)) ∧
        ¬ Undisclosed sampleConfig "ann@example.com" "111111" State.init state := by
  obtain ⟨state, quiet, sound, differ⟩ := onlyAccount_exists
  exact ⟨state, differ, account_disclosed State.init_quiet State.init_sound quiet sound differ⟩

/-- The login of a registered email with a wrong code is refused otherwise than that of an unknown
email. -/
theorem login_discloses : ∃ state,
    DifferInAccount sampleConfig "ann@example.com" "111111" 1 State.init.world state.world ∧
      ¬ Undisclosed sampleConfig "ann@example.com" "111111" State.init state := by
  obtain ⟨state, quiet, sound, differ⟩ := onlyAccount_exists
  refine ⟨state, differ, ?_⟩
  intro undisclosed
  have unknown : Responds sampleConfig State.init
      (.authenticateAccount "ann@example.com" "111111") _ :=
    authenticate_responds_unknown State.init_quiet State.init_sound (differ.absent sound)
  have wrong := authenticate_responds_wrong quiet sound differ.registered differ.wrong
  cases undisclosed.authenticateAccount.same unknown wrong

end Sample

end Relays.Auth
