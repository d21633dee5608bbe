import Relays.Auth.Accounts

/-! Whatever registrations run at the same time, every account is whole: its user owns one
workspace, alone, and no verified email opens two accounts. -/

namespace Relays.Auth

open ReadCommitted Transition

/-- The call of this index is a registration whose token was made for this email. -/
def Verified (config : Config) (events : List State.Event) (index : Nat) (email : String) : Prop :=
  ∃ front before after registrationToken name workspaceName,
    Takes (State.system config) events front before
      (.arrive (.createAccount registrationToken name workspaceName)) after ∧
    before.calls.length = index ∧
      decodeRegistrationToken config before.world.clock registrationToken = .ok email

/-- The call of this index has created an account. -/
def CreatedAccount (state : State) (index : Nat) : Prop :=
  ∃ name workspaceName accessToken refreshToken,
    state.calls[index]? = some
      (.createAccount name workspaceName (.ended (.tokens accessToken refreshToken)))

structure AccountIntegrity (config : Config) (events : List State.Event)
    (state : State) : Prop where
  membership : ∀ userId user, state.world.users.row userId = some user →
    ∃ key member workspace, state.world.members.row key = some member ∧ member.userId = userId ∧
      member.role = .owner ∧
      state.world.workspaces.row member.workspaceId = some workspace ∧
      ∀ other row, state.world.members.row other = some row →
        row.userId = userId ∨ row.workspaceId = member.workspaceId → other = key
  owner : ∀ workspaceId workspace, state.world.workspaces.row workspaceId = some workspace →
    ∃ key member user, state.world.members.row key = some member ∧
      member.workspaceId = workspaceId ∧
      member.role = .owner ∧ state.world.users.row member.userId = some user ∧
      ∀ other row, state.world.members.row other = some row → row.workspaceId = workspaceId →
        other = key
  emails : ∀ one two first second, state.world.users.row one = some first →
    state.world.users.row two = some second →
    first.email = second.email → one = two
  slugs : ∀ one two first second, state.world.workspaces.row one = some first →
    state.world.workspaces.row two = some second → first.slug = second.slug → one = two
  once : ∀ email one two, Verified config events one email → CreatedAccount state one →
    Verified config events two email → CreatedAccount state two → one = two
  context : ∀ tx userId key member other row, getWorkspaceContext state.world tx userId =
    some (key, member) →
    (state.world.members.cells other).view tx = some row → row.userId = userId → other = key

namespace State

variable {config : Config} {state after before : State} {events front : List Event} {event : Event}
variable {index : Nat} {call : Call} {account : Account} {email : String}

/-- The row of a user that a call has written is a new one. -/
theorem Sound.new_user {userId : Uuid} {version : Option User} (sound : state.Sound)
    (found : state.calls[index]? = some call) (member : (userId, version) ∈ call.writes.users) :
    state.world.users.row userId = none := by
  have held := ((sound.owned_call found).users userId version).mpr member
  cases present : state.world.users.row userId with
  | none => rfl
  | some user => exact (sound.world.users.changes userId index version user held present).elim

theorem Sound.new_workspace {workspaceId : Uuid} {version : Option Workspace} (sound : state.Sound)
    (found : state.calls[index]? = some call)
    (member : (workspaceId, version) ∈ call.writes.workspaces) :
    state.world.workspaces.row workspaceId = none := by
  have held := ((sound.owned_call found).workspaces workspaceId version).mpr member
  cases present : state.world.workspaces.row workspaceId with
  | none => rfl
  | some workspace => exact (sound.world.workspaces.changes workspaceId index version workspace held
    present).elim

theorem Sound.opens (sound : state.Sound) (found : state.calls[index]? = some call)
    (drawn : call.account = some account) :
      state.world.Opens (state.world.commit index) account := by
  have owned := sound.owned_call found
  obtain ⟨users, workspaces, members⟩ := Call.account_writes drawn
  constructor
  · exact Relation.Owned.commit_row (users ▸ owned.users)
  · exact Relation.Owned.commit_row (workspaces ▸ owned.workspaces)
  · exact Relation.Owned.commit_row (members ▸ owned.members)
  · exact sound.new_user found (users ▸ List.mem_singleton.mpr rfl)
  · exact sound.new_workspace found (workspaces ▸ List.mem_singleton.mpr rfl)

/-- A step leaves the accounts as they are and completes no registration, or it opens an account. -/
theorem Moves.account_cases (moves : Moves config state event after) (sound : state.Sound) :
    state.world.SameAccounts after.world ∧
      (∀ index, CreatedAccount after index → CreatedAccount state index) ∨
      ∃ index draw call account, event = .call index draw ∧ state.calls[index]? = some call ∧
        call.account = some account ∧ state.world.Opens after.world account ∧
        ∀ other, other ≠ index → CreatedAccount after other → CreatedAccount state other := by
  cases moves with
  | tick => exact .inl ⟨⟨fun _ => rfl, fun _ => rfl, fun _ => rfl⟩, fun _ done => done⟩
  | @arrive request =>
    refine .inl ⟨.refl _, ?_⟩
    rintro index ⟨name, workspaceName, accessToken, refreshToken, entry⟩
    rcases Processes.append_cases entry with ⟨_, started⟩ | earlier
    · cases request with
      | createAccount registrationToken =>
        simp only [Request.start, CreateAccount.start] at started
        split at started
        · cases started
        · split at started <;> cases started
      | _ => cases started
    · exact ⟨name, workspaceName, accessToken, refreshToken, earlier⟩
  | @call index call next last draw found taken =>
    have others (other : Nat) (apart : other ≠ index)
        (done : CreatedAccount ⟨next, state.calls.set index last⟩ other) :
          CreatedAccount state other := by
      obtain ⟨name, workspaceName, accessToken, refreshToken, entry⟩ := done
      exact ⟨name, workspaceName, accessToken, refreshToken,
        (Processes.set_other apart).symm.trans entry⟩
    rcases Call.step_accounts sound.world (sound.owned_call found) taken with
      ⟨same, running⟩ | ⟨account, drawn, rfl⟩
    · refine .inl ⟨same, ?_⟩
      intro other done
      by_cases own : other = index
      · subst own
        obtain ⟨_, _, _, _, entry⟩ := done
        obtain rfl := Option.some.inj ((Processes.set_self found).symm.trans entry)
        cases running
      · exact others other own done
    · exact .inr ⟨index, draw, call, account, rfl, found, drawn, sound.opens found drawn, others⟩
  | @abort index call found running =>
    refine .inl ⟨.rollback _ _, ?_⟩
    rintro other ⟨name, workspaceName, accessToken, refreshToken, entry⟩
    rcases Processes.set_cases entry with ⟨rfl, failed⟩ | ⟨_, earlier⟩
    · cases call <;> cases failed
    · exact ⟨name, workspaceName, accessToken, refreshToken, earlier⟩

/-- Every registration has drawn up what some email calls for. -/
def Drafted (state : State) : Prop :=
  ∀ (index : Nat) (name workspaceName : String) (phase : CreateAccount.Phase),
    state.calls[index]? = some (.createAccount name workspaceName phase) →
      ∃ email, phase.Describes email

theorem Moves.drafted (moves : Moves config state event after)
    (drafted : state.Drafted) : after.Drafted := by
  intro index name workspaceName phase entry
  rcases moves.call_cases entry with same | ⟨request, _, _, started⟩
    | ⟨current, draw, _, found, taken⟩ |
    ⟨current, _, found, failed⟩
  · exact drafted index name workspaceName phase same
  · cases request with
    | createAccount registrationToken =>
      obtain ⟨rfl, rfl, rfl⟩ := Call.createAccount.inj started
      unfold CreateAccount.start
      split
      · exact ⟨"", trivial⟩
      · split
        · exact ⟨"", trivial⟩
        · exact ⟨_, rfl⟩
    | _ => cases started
  · cases current with
    | createAccount =>
      obtain ⟨_, moved, shape⟩ := Processes.mapped_eq_some.mp taken
      cases shape
      obtain ⟨email, described⟩ := drafted index _ _ _ found
      exact ⟨email, CreateAccount.step_describes described moved⟩
    | _ =>
      obtain ⟨_, _, shape⟩ := Processes.mapped_eq_some.mp taken
      cases shape
  · cases current with
    | createAccount =>
      cases failed
      exact ⟨"", trivial⟩
    | _ => cases failed

theorem run_drafted (run : Run (system config) Any events state) : state.Drafted := by
  apply run.invariant
  · intro index name workspaceName phase entry
    simp [system, init] at entry
  · intro _ _ _ _ _ drafted _ taken
    exact (step_moves taken).drafted drafted

theorem Moves.calls_le (moves : Moves config state event after) :
    state.calls.length ≤ after.calls.length := by
  cases moves <;> simp

theorem run_verified_lt (run : Run (system config) Any events state)
    (verified : Verified config events index email) :
    index < state.calls.length := by
  induction run with
  | start =>
    obtain ⟨_, _, _, _, _, _, takes, _⟩ := verified
    simpa using takes.length_lt
  | @step events before event after earlier permitted taken ih =>
    have moves : Moves config before event after := step_moves taken
    obtain ⟨front, start, finish, token, name, workspaceName, takes, place, decoded⟩ := verified
    rcases takes.of_concat earlier with inner | ⟨_, rfl, rfl⟩
    · exact Nat.lt_of_lt_of_le (ih ⟨front, start, finish, token, name, workspaceName, inner, place,
        decoded⟩) moves.calls_le
    · cases moves
      simp [place]

/-- A registration describes the account of the email that its token was made for. -/
theorem run_describes {name workspaceName : String} {phase : CreateAccount.Phase}
    (run : Run (system config) Any events state) (verified : Verified config events index email)
    (entry : state.calls[index]? = some (.createAccount name workspaceName phase)) :
      phase.Describes email := by
  induction run generalizing phase with
  | start => simp [system, init] at entry
  | @step events before event after earlier permitted taken ih =>
    have moves : Moves config before event after := step_moves taken
    obtain ⟨front, start, finish, token, chosen, workspace, takes, place, decoded⟩ := verified
    rcases takes.of_concat earlier with inner | ⟨_, rfl, rfl⟩
    · have known : Verified config events index email :=
        ⟨front, start, finish, token, chosen, workspace, inner, place, decoded⟩
      rcases moves.call_cases entry with same | ⟨_, _, last, _⟩
        | ⟨current, draw, _, found, stepped⟩ |
        ⟨current, _, found, failed⟩
      · exact ih known same
      · exact absurd (run_verified_lt earlier known) (by omega)
      · cases current with
        | createAccount =>
          obtain ⟨_, moved, shape⟩ := Processes.mapped_eq_some.mp stepped
          cases shape
          exact CreateAccount.step_describes (ih known found) moved
        | _ =>
          obtain ⟨_, _, shape⟩ := Processes.mapped_eq_some.mp stepped
          cases shape
      · cases current <;> cases failed
        trivial
    · cases moves
      subst place
      rw [List.getElem?_concat_length] at entry
      obtain ⟨rfl, rfl, rfl⟩ := Call.createAccount.inj (Option.some.inj entry)
      exact CreateAccount.start_describes decoded

/-- The email of every completed registration has its user, and no other registration. -/
structure Kept (config : Config) (events : List Event) (state : State) : Prop where
  stored : ∀ index email, Verified config events index email → CreatedAccount state index →
    ∃ userId user, state.world.users.row userId = some user ∧ user.email = email
  once : ∀ email one two, Verified config events one email → CreatedAccount state one →
    Verified config events two email → CreatedAccount state two → one = two

theorem Kept.step (kept : Kept config events before)
    (earlier : Run (system config) Any events before)
    (moves : Moves config before event after) (sound : before.Sound)
    (whole : Run (system config) Any (events ++ [event]) after) :
    Kept config (events ++ [event]) after := by
  -- a registration that has returned tokens arrived before this step
  have known (index : Nat) (email : String)
    (verified : Verified config (events ++ [event]) index email)
      (done : CreatedAccount before index) : Verified config events index email := by
    obtain ⟨front, start, finish, token, name, workspaceName, takes, place, decoded⟩ := verified
    rcases takes.of_concat earlier with inner | ⟨_, rfl, _⟩
    · exact ⟨front, start, finish, token, name, workspaceName, inner, place, decoded⟩
    · obtain ⟨_, _, _, _, entry⟩ := done
      rw [List.getElem?_eq_none (by omega)] at entry
      cases entry
  rcases moves.account_cases sound with ⟨same, completed⟩
    | ⟨index, draw, call, account, rfl, found, drawn, opens, others⟩
  · constructor
    · intro index email verified done
      obtain ⟨userId, user, present, matched⟩ :=
        kept.stored index email (known index email verified (completed index done))
        (completed index done)
      exact ⟨userId, user, (same.users userId).trans present, matched⟩
    · intro email one two first done second also
      exact kept.once email one two (known one email first (completed one done))
        (completed one done)
        (known two email second (completed two also)) (completed two also)
  · have own (email : String)
      (verified : Verified config (events ++ [.call index draw]) index email) :
        account.user.email = email := by
      have before' : Verified config events index email := by
        obtain ⟨front, start, finish, token, name, workspaceName, takes, rest⟩ := verified
        rcases takes.of_concat earlier with inner | ⟨_, _, shape⟩
        · exact ⟨front, start, finish, token, name, workspaceName, inner, rest⟩
        · cases shape
      unfold Call.account at drawn
      split at drawn
      · cases drawn
        exact (run_describes earlier before' found).1
      · cases drawn
    have old (other : Nat) (email : String) (apart : other ≠ index)
        (verified : Verified config (events ++ [.call index draw]) other email)
          (done : CreatedAccount after other) :
        ∃ userId user, userId ≠ account.userId ∧ after.world.users.row userId = some user ∧
          user.email = email := by
      have earlier' := others other apart done
      obtain ⟨userId, user, present, matched⟩ :=
        kept.stored other email (known other email verified earlier') earlier'
      have different : userId ≠ account.userId := by
        rintro rfl
        simp [opens.newUser] at present
      exact ⟨userId, user, different,
        by rw [opens.users, Function.update_of_ne different]; exact present, matched⟩
    have fresh : after.world.users.row account.userId = some account.user := by
      rw [opens.users, Function.update_self]
    -- the new user does not share the email of an older one
    have alone (other : Nat) (email : String)
      (mine : Verified config (events ++ [.call index draw]) index email)
        (verified : Verified config (events ++ [.call index draw]) other email)
          (done : CreatedAccount after other) :
        other = index := by
      by_contra apart
      obtain ⟨userId, user, different, present, matched⟩ := old other email apart verified done
      have quiet := (moves.sound sound).world.users.distinct userId account.userId user account.user
        different present fresh
      simp [User.clash, matched, own email mine] at quiet
    constructor
    · intro other email verified done
      by_cases same : other = index
      · subst same
        exact ⟨account.userId, account.user, fresh, own email verified⟩
      · obtain ⟨userId, user, _, present, matched⟩ := old other email same verified done
        exact ⟨userId, user, present, matched⟩
    · intro email one two first done second also
      by_cases left : one = index
      · subst left
        exact (alone two email first second also).symm
      · by_cases right : two = index
        · subst right
          exact absurd (alone one email second first done) left
        · exact kept.once email one two (known one email first (others one left done))
            (others one left done)
            (known two email second (others two right also)) (others two right also)

theorem run_kept (run : Run (system config) Any events state) : Kept config events state := by
  induction run with
  | start =>
    constructor
    · rintro index email _ ⟨_, _, _, _, entry⟩
      simp [system, init] at entry
    · rintro email one two _ ⟨_, _, _, _, entry⟩
      simp [system, init] at entry
  | step earlier permitted taken ih =>
    exact ih.step earlier (step_moves taken) (run_sound earlier) (earlier.step permitted taken)

theorem run_paired (run : Run (system config) Any events state) : state.world.Paired := by
  apply run.invariant World.empty_paired
  intro _ before event after earlier paired _ taken
  have sound := run_sound earlier
  rcases (step_moves taken).account_cases sound with
    ⟨same, _⟩ | ⟨index, draw, call, account, _, found, drawn, opens, _⟩
  · exact same.paired paired
  · unfold Call.account at drawn
    split at drawn
    · cases drawn
      obtain ⟨email, described⟩ := run_drafted earlier index _ _ _ found
      exact opens.paired paired described.2
    · cases drawn

/-- A membership that a call has written and not committed is of the user that it has written. -/
theorem Sound.new_member {key : Uuid × Uuid} {member : WorkspaceMember} (sound : state.Sound)
    (drafted : state.Drafted)
    (found : state.calls[index]? = some call) (written : (key, some member) ∈ call.writes.members) :
    key = (member.workspaceId, member.userId) ∧ state.world.users.row member.userId = none ∧
      ∀ other version, (other, version) ∈ call.writes.members → other = key := by
  cases call with
  | createAccount name workspaceName phase =>
    obtain ⟨email, described⟩ := drafted index name workspaceName phase found
    cases phase with
    | memberCreated now userId user | sessionCreated userId user =>
      cases List.mem_singleton.mp written
      obtain ⟨_, workspace, same, _⟩ := described
      refine ⟨by rw [workspace, same], ?_, ?_⟩
      · rw [same]
        exact sound.new_user found (List.mem_singleton.mpr (rfl : (userId, some user) = _))
      · intro other version another
        cases List.mem_singleton.mp another
        rfl
    | _ => cases written
  | requestRegistrationOtp _ phase | verifyRegistrationOtp _ _ phase | requestLoginOtp _ phase
  | authenticateAccount _ _ phase | refreshAccessToken _ phase | logout _ phase =>
    cases phase <;> cases written

/-- A membership that a transaction sees is committed, or is its own and of a new user. -/
theorem Sound.seen_member {key : Uuid × Uuid} {member : WorkspaceMember} {tx : Nat}
    (sound : state.Sound)
    (seen : (state.world.members.cells key).view tx = some member) :
    state.world.members.row key = some member ∨
      ∃ call, state.calls[tx]? = some call ∧ (key, some member) ∈ call.writes.members := by
  by_cases own : ∃ version, (state.world.members.cells key).pending = some (tx, version)
  · obtain ⟨version, held⟩ := own
    rw [Cell.view_of_pending held] at seen
    subst seen
    have written := ((sound.owned tx).members key (some member)).mp held
    cases found : state.calls[tx]? with
    | none => simp [writes, found] at written
    | some call => exact .inr ⟨call, rfl, by simpa [writes, found] using written⟩
  · rw [Cell.view_of_unowned (not_exists.mp own)] at seen
    exact .inl seen

end State

theorem account_integrity {config : Config} {events : List State.Event} {state : State}
    (run : Run (State.system config) Any events state) : AccountIntegrity config events state := by
  have paired := State.run_paired run
  have sound := State.run_sound run
  have drafted := State.run_drafted run
  have keyed (key : Uuid × Uuid) (row : WorkspaceMember) (present : state.world.members.row key =
    some row) :
      key = (row.workspaceId, row.userId) ∧ state.world.Joined row.workspaceId row.userId := by
    obtain ⟨workspace, user, _⟩ := paired.members key.1 key.2 row present
    rw [World.Joined, workspace, user]
    exact ⟨rfl, Option.isSome_iff_exists.mpr ⟨row, present⟩⟩
  constructor
  · intro userId user present
    obtain ⟨workspaceId, joined⟩ := paired.users userId (by simp [present])
    obtain ⟨member, stored⟩ := Option.isSome_iff_exists.mp joined
    obtain ⟨rfl, rfl, role, _, hasWorkspace⟩ := paired.members workspaceId userId member stored
    obtain ⟨workspace, has⟩ := Option.isSome_iff_exists.mp hasWorkspace
    refine ⟨_, member, workspace, stored, rfl, role, has, ?_⟩
    intro other row found shared
    obtain ⟨rfl, other⟩ := keyed other row found
    rcases shared with same | same
    · rw [same] at other ⊢
      rw [paired.unique.1 other joined]
    · rw [same] at other ⊢
      rw [paired.unique.2 other joined]
  · intro workspaceId workspace present
    obtain ⟨userId, joined⟩ := paired.workspaces workspaceId (by simp [present])
    obtain ⟨member, stored⟩ := Option.isSome_iff_exists.mp joined
    obtain ⟨rfl, rfl, role, hasUser, _⟩ := paired.members workspaceId userId member stored
    obtain ⟨user, has⟩ := Option.isSome_iff_exists.mp hasUser
    refine ⟨_, member, user, stored, rfl, role, has, ?_⟩
    intro other row found same
    obtain ⟨rfl, other⟩ := keyed other row found
    rw [same] at other ⊢
    rw [paired.unique.2 other joined]
  · intro one two first second left right same
    by_contra apart
    have quiet := sound.world.users.distinct one two first second apart left right
    simp [User.clash, same] at quiet
  · intro one two first second left right same
    by_contra apart
    have quiet := sound.world.workspaces.distinct one two first second apart left right
    simp [Workspace.clash, same] at quiet
  · exact (State.run_kept run).once
  · intro tx userId one first two second hit right shared
    obtain ⟨left, own⟩ := getWorkspaceContext_some hit
    have stranger (row : WorkspaceMember) (key : Uuid × Uuid)
      (stored : state.world.members.row key = some row) :
        (state.world.users.row row.userId).isSome = true :=
          (paired.joined (keyed key row stored).2).1
    rcases sound.seen_member left with old | ⟨call, found, written⟩
    · rcases sound.seen_member right with also | ⟨call, found, written⟩
      · obtain ⟨rfl, joined⟩ := keyed one first old
        obtain ⟨rfl, other⟩ := keyed two second also
        rw [own] at joined ⊢
        rw [shared] at other ⊢
        rw [paired.unique.1 other joined]
      · obtain ⟨_, none', _⟩ := sound.new_member drafted found written
        have known := stranger first one old
        rw [own, ← shared, none'] at known
        cases known
    · obtain ⟨_, none', only⟩ := sound.new_member drafted found written
      rcases sound.seen_member right with also | ⟨other, found', written'⟩
      · have known := stranger second two also
        rw [shared, ← own, none'] at known
        cases known
      · obtain rfl := Option.some.inj (found.symm.trans found')
        exact only two _ written'

/-- Two registrations of one verified email, the second of which finds the account of the first. -/
def registersTwice : List State.Event :=
  registers ++ .arrive (.createAccount "ann@example.com" "Ann" "Beta") :: calls 1 [⟨5, ""⟩]

theorem account_integrity_registersTwice :
    ∃ state, Run (State.system sampleConfig) Any registersTwice state ∧
    AccountIntegrity sampleConfig registersTwice state := by
  obtain ⟨state, run, _⟩ := Run.exists_of_execute (State.system sampleConfig) Any registersTwice
    (fun _ => true) (by decide)
  exact ⟨state, run, account_integrity run⟩

end Relays.Auth
