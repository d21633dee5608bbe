import Relays.Auth.OtpFlow
import Mathlib.Data.Fintype.EquivFin

/-! A fresh one-time password can always be requested for a login, and for a registration unless the
email has a consumed code: its look-up passes over such a row, the unique constraint does not. -/

namespace Relays.Auth

open ReadCommitted Transition

/-- No call holds an uncommitted version. -/
def Quiet (state : State) : Prop := ∀ index, state.writes index = {}

/-- The steps of a call that runs alone: time passes, and its statements draw new ids. -/
def AloneStep (index : Nat) (before : State) : State.Event → Prop
  | .tick _ => True
  | .call acting draw =>
    acting = index ∧ draw.id ∉ before.world.registrationOtps.keys ∧
      draw.id ∉ before.world.loginOtps.keys
  | .arrive _ | .abort _ => False

instance (index : Nat) (before : State)
    (event : State.Event) : Decidable (AloneStep index before event) :=
  match event with
  | .tick _ => inferInstanceAs (Decidable True)
  | .call acting draw =>
    inferInstanceAs (Decidable (acting = index ∧ draw.id ∉ before.world.registrationOtps.keys ∧
      draw.id ∉ before.world.loginOtps.keys))
  | .arrive _ | .abort _ => inferInstanceAs (Decidable False)

def isCall : State.Event → Bool
  | .call _ _ => true
  | _ => false

/-- The state in which a request that has just arrived has taken these steps alone. -/
def alone (config : Config) (state : State) (request : Request)
    (steps : List State.Event) : Option State :=
  (State.system config).execute (AloneStep state.calls.length)
    { state with calls := state.calls ++ [request.start config state.world.clock] } steps

/-- The committed rows of the owner are one code that is not consumed and does not expire before. -/
def OneFresh {Owner : Type} (table : OtpTable Owner) (owner : Owner) (expiry : Time) : Prop :=
  ∃ id row, table.row id = some row ∧ row.val.owner = owner ∧ row.val.consumedAt = none ∧
    expiry ≤ row.val.expiresAt ∧ ∀ key other, table.row key = some other → other.val.owner = owner →
      key = id

/-- A request that runs alone never waits, is answered after a few statements, and leaves one fresh
code of its owner. -/
structure Grants {Owner : Type} [DecidableEq Owner] (flow : Flow Owner) (config : Config)
    (state : State)
    (request : Request) (owner : Owner) : Prop where
  proceeds : ∀ steps middle call draw, alone config state request steps = some middle →
    middle.calls[state.calls.length]? = some call → call.outcome = none →
    AloneStep state.calls.length middle (.call state.calls.length draw) →
    ∃ next, State.step config middle (.call state.calls.length draw) = some next
  bounded : ∀ steps middle, alone config state request steps = some middle → steps.countP isCall ≤ 6
  answered : ∀ steps middle outcome, alone config state request steps = some middle →
    (middle.calls[state.calls.length]?).bind Call.outcome = some outcome →
    outcome = .done ∧ OneFresh (flow.table middle.world) owner (otpExpiry + state.world.clock)

/-- Only the call of this index may have uncommitted versions. -/
structure Undisturbed (index : Nat) (state : State) : Prop where
  sound : state.Sound
  quiet : ∀ other, other ≠ index → state.writes other = {}

section System

variable {Owner : Type} [DecidableEq Owner] {flow : Flow Owner} {config : Config}
    {state after : State}
variable {event : State.Event} {index : Nat} {request : Request} {owner : Owner}

theorem Undisturbed.free (undisturbed : Undisturbed index state) (lawful : flow.Lawful) :
    (flow.table state.world).Free index := by
  intro key
  rw [Cell.blocked_eq_false]
  intro holder version held
  by_contra other
  have member := (lawful.owned (undisturbed.sound.owned holder) key version).mp held
  simp [undisturbed.quiet holder other, lawful.nothing] at member

theorem Undisturbed.step (undisturbed : Undisturbed index state)
    (permitted : AloneStep index state event)
    (moves : State.Moves config state event after) : Undisturbed index after where
  sound := moves.sound undisturbed.sound
  quiet other different := by
    cases moves with
    | tick => exact undisturbed.quiet other different
    | arrive => cases permitted
    | call found taken =>
      obtain ⟨rfl, _⟩ := permitted
      simpa [State.writes, Processes.set_other different] using undisturbed.quiet other different
    | abort => cases permitted

theorem Quiet.arrive (quiet : Quiet state) (sound : state.Sound) :
    Undisturbed state.calls.length
      { state with calls := state.calls ++ [request.start config state.world.clock] } where
  sound := (show State.Moves config state (.arrive request) _ from .arrive).sound sound
  quiet other _ := by rw [State.arrive_writes, quiet other]

/-- The invariant of a call that runs alone and is answered with success: every statement brings it
nearer to its end, where its code is the only one. -/
structure Answering (flow : Flow Owner) (config : Config) (index : Nat) (owner : Owner)
    (expiry : Time)
    (holds : World → Call → Prop) (rank : Call → Nat) : Prop where
  ticks : ∀ (world : World) elapsed call, holds world call →
    holds { world with clock := world.clock + elapsed } call
  steps : ∀ current call draw, Undisturbed index current → current.calls[index]? = some call →
    holds current.world call → call.outcome = none → draw.id ∉ (flow.table current.world).keys →
    ∃ next after, call.step config index current.world draw = some (next, after) ∧
      holds next after ∧
      rank after < rank call
  ended : ∀ world call outcome, holds world call → call.outcome = some outcome →
    outcome = .done ∧ OneFresh (flow.table world) owner expiry

theorem Call.step_ended {tx : Nat} {world : World} {draw : Draw} {call : Call} {outcome : Outcome}
    (ended : call.outcome = some outcome) : call.step config tx world draw = none := by
  cases call with
  | requestRegistrationOtp _ phase | verifyRegistrationOtp _ _ phase | createAccount _ _ phase
  | requestLoginOtp _ phase | authenticateAccount _ _ phase | refreshAccessToken _ phase
  | logout _ phase =>
    cases phase <;> first | rfl | cases ended

/-- A call that runs alone advances with every statement until it is answered. -/
structure Advances (config : Config) (index : Nat) (holds : World → Call → Prop)
    (rank : Call → Nat) : Prop where
  ticks : ∀ (world : World) elapsed call, holds world call →
    holds { world with clock := world.clock + elapsed } call
  steps : ∀ current call draw, Undisturbed index current → current.calls[index]? = some call →
    holds current.world call → call.outcome = none → AloneStep index current (.call index draw) →
    ∃ next after, call.step config index current.world draw = some (next, after) ∧
      holds next after ∧
      rank after < rank call

namespace Advances

variable {holds : World → Call → Prop} {rank : Call → Nat} {steps : List State.Event}
    {middle : State}

theorem kept (advances : Advances config state.calls.length holds rank) (quiet : Quiet state)
    (sound : state.Sound)
    (begins : holds state.world (request.start config state.world.clock))
    (reached : alone config state request steps = some middle) :
    Undisturbed state.calls.length middle ∧ ∃ call, middle.calls[state.calls.length]? = some call ∧
      holds middle.world call ∧
        rank call + steps.countP isCall ≤ rank (request.start config state.world.clock) := by
  let index := state.calls.length
  let invariant (current : State) : Prop :=
    Undisturbed index current ∧ ∃ call, current.calls[index]? = some call ∧ holds current.world call
  let weight (current : State) : Nat := (current.calls[index]?).elim 0 rank
  have arrived := @List.getElem?_concat_length _ state.calls
    (request.start config state.world.clock)
  have preserved (before event after) (held : invariant before)
    (permitted : AloneStep index before event)
      (taken : (State.system config).step before event = some after) :
      invariant after ∧ weight after + (if isCall event then 1 else 0) ≤ weight before := by
    obtain ⟨undisturbed, call, found, held⟩ := held
    have moves : State.Moves config before event after := State.step_moves taken
    have next := undisturbed.step permitted moves
    cases moves with
    | tick => exact ⟨⟨next, call, found, advances.ticks _ _ _ held⟩, by simp [weight, isCall]⟩
    | arrive => cases permitted
    | abort => cases permitted
    | @call acting current _ _ _ found' moved =>
      obtain rfl : acting = index := permitted.1
      obtain rfl : current = call := Option.some.inj (found'.symm.trans found)
      have running : current.outcome = none := by
        cases ended : current.outcome with
        | none => rfl
        | some outcome => simp [Call.step_ended ended] at moved
      obtain ⟨world, last, taken', held', nearer⟩ :=
        advances.steps before current _ undisturbed found held running permitted
      obtain ⟨rfl, rfl⟩ := Prod.mk.inj (Option.some.inj (taken'.symm.trans moved))
      refine ⟨⟨next, last, Processes.set_self found, held'⟩, ?_⟩
      simp only [weight, index, Processes.set_self found, found, Option.elim_some, isCall]
      exact nearer
  obtain ⟨⟨undisturbed, call, found, held⟩, spent⟩ :=
    System.execute_keeps preserved ⟨quiet.arrive sound, _, arrived, begins⟩ reached
  refine ⟨undisturbed, call, found, held, ?_⟩
  simpa only [weight, index, found, arrived, Option.elim_some] using spent

end Advances

theorem Answering.advances {holds : World → Call → Prop} {rank : Call → Nat} {expiry : Time}
    (answering : Answering flow config index owner expiry holds rank)
    (draws : ∀ before draw, AloneStep index before (.call index draw) →
      draw.id ∉ (flow.table before.world).keys) :
    Advances config index holds rank := by
  refine ⟨answering.ticks, ?_⟩
  intro current call draw undisturbed found held running permitted
  exact answering.steps current call draw undisturbed found held running
    (draws current draw permitted)

theorem Answering.grants {holds : World → Call → Prop} {rank : Call → Nat}
    (answering : Answering flow config state.calls.length owner
      (otpExpiry + state.world.clock) holds rank)
    (draws : ∀ before draw, AloneStep state.calls.length before (.call state.calls.length draw) →
      draw.id ∉ (flow.table before.world).keys)
    (quiet : Quiet state) (sound : state.Sound)
    (begins : holds state.world (request.start config state.world.clock))
    (small : rank (request.start config state.world.clock) ≤ 6) :
      Grants flow config state request owner := by
  have advances := answering.advances draws
  constructor
  · intro steps middle call draw reached found running permitted
    obtain ⟨undisturbed, current, found', held, _⟩ := advances.kept quiet sound begins reached
    obtain rfl := Option.some.inj (found'.symm.trans found)
    obtain ⟨world, last, taken, _⟩ :=
      advances.steps middle current draw undisturbed found' held running permitted
    exact ⟨⟨world, middle.calls.set state.calls.length last⟩, by simp [State.step, found, taken]⟩
  · intro steps middle reached
    obtain ⟨_, _, _, _, spent⟩ := advances.kept quiet sound begins reached
    exact (Nat.le_add_left _ _).trans (spent.trans small)
  · intro steps middle outcome reached ended
    obtain ⟨_, current, found', held, _⟩ := advances.kept quiet sound begins reached
    rw [found', Option.bind_some] at ended
    exact answering.ended middle.world current outcome held ended

end System

section Table

variable {Owner : Type} {table next : OtpTable Owner} {tx : Nat} {owner : Owner} {id target : Uuid}
variable {expiry : Time} {otp row : StoredOtp Owner}

/-- The transaction sees no code of the owner. -/
def Vacant (table : OtpTable Owner) (tx : Nat) (owner : Owner) : Prop :=
  ∀ key row, (table.cells key).view tx = some row → row.val.owner ≠ owner

/-- The transaction sees no other code of the owner. -/
def Sole (table : OtpTable Owner) (tx : Nat) (owner : Owner) (id : Uuid) : Prop :=
  ∀ key row, (table.cells key).view tx = some row → row.val.owner = owner → key = id

/-- The transaction sees one code of the owner, a fresh one. -/
def SeesFresh (table : OtpTable Owner) (tx : Nat) (owner : Owner) (expiry : Time) : Prop :=
  ∃ id row, (table.cells id).view tx = some row ∧ row.val.owner = owner ∧
    row.val.consumedAt = none ∧
    expiry ≤ row.val.expiresAt ∧ Sole table tx owner id

theorem newOtp_some {now clock : Time} (passed : now ≤ clock) (owner : Owner) (hash : String) :
    ∃ otp, newOtp now owner hash (otpExpiry + clock) = some otp := by
  have positive : 0 < otpExpiry := by decide
  have later : now < otpExpiry + clock :=
    Nat.lt_of_le_of_lt passed (Nat.lt_add_of_pos_left positive)
  exact ⟨⟨_, ⟨by simp, later⟩⟩, admitted_eq_some.mpr rfl⟩

theorem SeesFresh.commit (sees : SeesFresh table tx owner expiry) (free : table.Free tx) :
    OneFresh (table.commit tx) owner expiry := by
  obtain ⟨id, row, seen, own, unused, late, sole⟩ := sees
  refine ⟨id, row, (free.commit id).1.trans seen, own, unused, late, ?_⟩
  intro key other found same
  exact sole key other ((free.commit key).1.symm.trans found) same

theorem Vacant.commit (vacant : Vacant table tx owner)
    (free : table.Free tx) : Vacant (table.commit tx) tx owner := by
  intro key row seen
  exact vacant key row ((free.commit key).2.symm.trans seen)

variable [DecidableEq Owner]

theorem findOtp_some (hit : findOtp table tx owner = some (id, row)) :
    (table.cells id).view tx = some row ∧ row.val.owner = owner := by
  obtain ⟨_, seen, matched⟩ := Relation.find_some hit
  exact ⟨seen, by simpa [ownedBy] using matched⟩

theorem vacant_of_findOtp (sound : Relation.Sound Otp.clash OtpChanged table)
    (missed : findOtp table tx owner = none) : Vacant table tx owner := by
  intro key row seen
  simpa [ownedBy] using Relation.find_none missed (sound.member_of_view seen) seen

/-- A look-up that finds no unconsumed code finds no code, unless there is a consumed one. -/
theorem vacant_of_getOtp (sound : Relation.Sound Otp.clash OtpChanged table)
    (missed : getOtp table tx owner = none)
    (unused : ∀ key row, (table.cells key).view tx = some row → row.val.owner = owner →
      row.val.consumedAt = none) :
    Vacant table tx owner := by
  intro key row seen own
  have passed := Relation.find_none missed (sound.member_of_view seen) seen
  simp [unconsumed, own, unused key row seen own] at passed

theorem sole_of_unwritten (sound : Relation.Sound Otp.clash OtpChanged table)
    (owned : table.Owned tx [])
    (seen : (table.cells target).view tx = some row)
    (own : row.val.owner = owner) : Sole table tx owner target := by
  intro key other found same
  rw [Relation.view_of_unwritten owned] at seen found
  by_contra apart
  have clashes := sound.distinct key target other row apart found seen
  simp [Otp.clash, same, own] at clashes

theorem deleteOtp_free (free : table.Free tx) (seen : (table.cells target).view tx = some row)
    (own : row.val.owner = owner) (sole : Sole table tx owner target) :
    ∃ next, deleteOtp table tx owner target = .returns (next, true) ∧ Vacant next tx owner := by
  refine ⟨_, free.delete seen (by simpa [ownedBy] using own), ?_⟩
  intro key other found same
  rw [Relation.view_write] at found
  split at found
  · cases found
  · rename_i apart
    exact apart (sole key other found same)

theorem createOtp_free (free : table.Free tx) (fresh : id ∉ table.keys)
    (vacant : Vacant table tx owner)
    (own : otp.val.owner = owner) (unused : otp.val.consumedAt = none)
    (late : expiry ≤ otp.val.expiresAt) :
    ∃ next, createOtp table tx id otp = .returns next ∧ SeesFresh next tx owner expiry := by
  refine ⟨_, free.insert fresh ?_, id, otp, ?_, own, unused, late, ?_⟩
  · intro key other found
    have apart := vacant key other found
    simp [Otp.clash, own, Ne.symm apart]
  · rw [Relation.view_write, if_pos rfl]
  · intro key other found same
    rw [Relation.view_write] at found
    split at found
    · assumption
    · exact absurd same (vacant key other found)

end Table

/-- The statements that a request for a code has before it at most. -/
def Call.remaining : Call → Nat
  | .requestRegistrationOtp _ (.begun _) | .requestLoginOtp _ .begun => 6
  | .requestRegistrationOtp _ (.unregistered _) | .requestLoginOtp _ (.identified _) => 5
  | .requestRegistrationOtp _ (.replacing _) | .requestLoginOtp _ (.deleting _ _) => 4
  | .requestRegistrationOtp _ (.deleting _ _) | .requestLoginOtp _ (.deleted _ _) => 3
  | .requestRegistrationOtp _ (.cleared _ _) | .requestLoginOtp _ (.cleared _) => 2
  | .requestRegistrationOtp _ (.created _ _ _) | .requestLoginOtp _ (.created _ _) => 1
  | _ => 0

/-- What a registration request that runs alone finds and leaves. -/
def RequestRegistrationOtp.Phase.Alone (index : Nat) (email : String) (expiry : Time)
    (world : World) : Phase → Prop
  | .begun now => now ≤ world.clock ∧ getUserByEmail world index email = none ∧
      ∀ key row, (world.registrationOtps.cells key).view index = some row → row.val.owner = email →
        row.val.consumedAt = none
  | .unregistered now => now ≤ world.clock ∧
      ∀ key row, (world.registrationOtps.cells key).view index = some row → row.val.owner = email →
        row.val.consumedAt = none
  | .replacing now => now ≤ world.clock
  | .deleting now target => now ≤ world.clock ∧
      ∃ row, (world.registrationOtps.cells target).view index = some row ∧ row.val.owner = email
  | .cleared now _ => now ≤ world.clock ∧ Vacant world.registrationOtps index email
  | .created _ _ _ => SeesFresh world.registrationOtps index email expiry
  | .ended outcome => outcome = .done ∧ OneFresh world.registrationOtps email expiry

/-- What a login request that runs alone finds and leaves. -/
def RequestLoginOtp.Phase.Alone (index : Nat) (email : String) (userId : Uuid) (expiry : Time)
    (world : World) : Phase → Prop
  | .begun => ∃ user, getUserByEmail world index email = some (userId, user)
  | .identified id => id = userId
  | .deleting id target => id = userId ∧
      ∃ row, (world.loginOtps.cells target).view index = some row ∧ row.val.owner = userId
  | .deleted id _ | .cleared id => id = userId ∧ Vacant world.loginOtps index userId
  | .created _ _ => SeesFresh world.loginOtps index userId expiry
  | .ended outcome => outcome = .done ∧ OneFresh world.loginOtps userId expiry

theorem RequestRegistrationOtp.step_alone (config : Config) {current : State} {index : Nat}
    {email : String}
    {since : Time} {draw : Draw} {phase : Phase} (undisturbed : Undisturbed index current)
    (found : current.calls[index]? = some (.requestRegistrationOtp email phase))
    (holds : phase.Alone index email (otpExpiry + since) current.world)
    (begun : since ≤ current.world.clock)
    (running : ∀ outcome, phase ≠ .ended outcome)
    (fresh : draw.id ∉ current.world.registrationOtps.keys) :
    ∃ next after, step config index current.world email draw phase = some (next, after) ∧
      next.clock = current.world.clock ∧ after.Alone index email (otpExpiry + since) next ∧
      Call.remaining (.requestRegistrationOtp email after) <
        Call.remaining (.requestRegistrationOtp email phase) := by
  have sound := undisturbed.sound.world.registrationOtps
  have owned := (undisturbed.sound.owned_call found).registrationOtps
  have free : current.world.registrationOtps.Free index := undisturbed.free registrationOtps_lawful
  cases phase with
  | begun now =>
    obtain ⟨passed, absent, unused⟩ := holds
    exact ⟨_, .unregistered now, by simp [step, absent], rfl, ⟨passed, unused⟩,
      by simp [Call.remaining]⟩
  | unregistered now =>
    obtain ⟨passed, unused⟩ := holds
    cases hit : getOtp current.world.registrationOtps index email with
    | none =>
      exact ⟨_, .cleared now none, by simp [step, hit], rfl,
        ⟨passed, vacant_of_getOtp sound hit unused⟩, by simp [Call.remaining]⟩
    | some pair => exact ⟨_, .replacing now, by simp [step, hit], rfl, passed,
      by simp [Call.remaining]⟩
  | replacing now =>
    cases hit : findOtp current.world.registrationOtps index email with
    | none =>
      exact ⟨_, .cleared now none, by simp [step, hit], rfl, ⟨holds, vacant_of_findOtp sound hit⟩,
        by simp [Call.remaining]⟩
    | some pair =>
      obtain ⟨target, row⟩ := pair
      exact ⟨_, .deleting now target, by simp [step, hit], rfl, ⟨holds, row, findOtp_some hit⟩,
        by simp [Call.remaining]⟩
  | deleting now target =>
    obtain ⟨passed, row, seen, own⟩ := holds
    obtain ⟨table, done, vacant⟩ :=
      deleteOtp_free free seen own (sole_of_unwritten sound owned seen own)
    exact ⟨{ current.world with registrationOtps := table }, .cleared now (some target),
      by simp [step, done], rfl,
      ⟨passed, vacant⟩, by simp [Call.remaining]⟩
  | cleared now deleted =>
    obtain ⟨passed, vacant⟩ := holds
    obtain ⟨otp, made⟩ := newOtp_some passed email (hashOtp config draw.secret)
    have stored := newOtp_val made
    obtain ⟨table, done, sees⟩ := createOtp_free free fresh vacant (by rw [stored]) (by rw [stored])
      (show otpExpiry + since ≤ otp.val.expiresAt by rw [stored]; exact Nat.add_le_add_left begun _)
    exact ⟨{ current.world with
        registrationOtps := table
        issuedRegistrationOtps :=
          current.world.issuedRegistrationOtps ++ [⟨draw.id, email, draw.secret⟩] },
      .created deleted draw.id otp, by simp [step, made, done], rfl, sees, by simp [Call.remaining]⟩
  | created deleted id otp =>
    exact ⟨_, .ended .done, rfl, rfl, ⟨rfl, holds.commit free⟩, by simp [Call.remaining]⟩
  | ended outcome => exact absurd rfl (running outcome)

theorem RequestLoginOtp.step_alone (config : Config) {current : State} {index : Nat}
    {email : String} {userId : Uuid}
    {since : Time} {draw : Draw} {phase : Phase} (undisturbed : Undisturbed index current)
    (found : current.calls[index]? = some (.requestLoginOtp email phase))
    (holds : phase.Alone index email userId (otpExpiry + since) current.world)
    (begun : since ≤ current.world.clock)
    (running : ∀ outcome, phase ≠ .ended outcome) (fresh : draw.id ∉ current.world.loginOtps.keys) :
    ∃ next after, step config index current.world email draw phase = some (next, after) ∧
      next.clock = current.world.clock ∧ after.Alone index email userId (otpExpiry + since) next ∧
      Call.remaining (.requestLoginOtp email after) <
        Call.remaining (.requestLoginOtp email phase) := by
  have sound := undisturbed.sound.world.loginOtps
  have owned := (undisturbed.sound.owned_call found).loginOtps
  have free : current.world.loginOtps.Free index := undisturbed.free loginOtps_lawful
  cases phase with
  | begun =>
    obtain ⟨user, known⟩ := holds
    exact ⟨_, .identified userId, by simp [step, known], rfl, rfl, by simp [Call.remaining]⟩
  | identified id =>
    obtain rfl : id = userId := holds
    cases hit : findOtp current.world.loginOtps index id with
    | none =>
      exact ⟨_, .cleared id, by simp [step, hit], rfl, ⟨rfl, vacant_of_findOtp sound hit⟩,
        by simp [Call.remaining]⟩
    | some pair =>
      obtain ⟨target, row⟩ := pair
      exact ⟨_, .deleting id target, by simp [step, hit], rfl, ⟨rfl, row, findOtp_some hit⟩,
        by simp [Call.remaining]⟩
  | deleting id target =>
    obtain ⟨rfl, row, seen, own⟩ := holds
    obtain ⟨table, done, vacant⟩ :=
      deleteOtp_free free seen own (sole_of_unwritten sound owned seen own)
    exact ⟨{ current.world with loginOtps := table }, .deleted id target, by simp [step, done], rfl,
      ⟨rfl, vacant⟩,
      by simp [Call.remaining]⟩
  | deleted id target =>
    obtain ⟨rfl, vacant⟩ := holds
    exact ⟨_, .cleared id, rfl, rfl, ⟨rfl, vacant.commit free⟩, by simp [Call.remaining]⟩
  | cleared id =>
    obtain ⟨rfl, vacant⟩ := holds
    obtain ⟨otp, made⟩ := newOtp_some (Nat.le_refl current.world.clock) id
      (hashOtp config draw.secret)
    have stored := newOtp_val made
    obtain ⟨table, done, sees⟩ := createOtp_free free fresh vacant (by rw [stored]) (by rw [stored])
      (show otpExpiry + since ≤ otp.val.expiresAt by rw [stored]; exact Nat.add_le_add_left begun _)
    exact ⟨{ current.world with
        loginOtps := table
        issuedLoginOtps := current.world.issuedLoginOtps ++ [⟨draw.id, id, draw.secret⟩] },
      .created draw.id otp, by simp [step, made, done], rfl, sees, by simp [Call.remaining]⟩
  | created id otp =>
    exact ⟨_, .ended .done, rfl, rfl, ⟨rfl, holds.commit free⟩, by simp [Call.remaining]⟩
  | ended outcome => exact absurd rfl (running outcome)

/-- The account of an email, as committed. -/
def Registered (state : State) (email : String) (userId : Uuid) : Prop :=
  ∃ user, state.world.users.row userId = some user ∧ user.email = email

/-- A code of the email has been consumed and is still in the table. -/
def ConsumedRow (state : State) (email : String) : Prop :=
  ∃ id row, state.world.registrationOtps.row id = some row ∧ row.val.owner = email ∧
    row.val.consumedAt ≠ none

section Requests

variable {config : Config} {state : State} {email : String} {userId : Uuid}

theorem Quiet.owned (quiet : Quiet state) (sound : state.Sound)
    (index : Nat) : state.world.Owned index {} := by
  rw [← quiet index]
  exact sound.owned index

theorem getUserByEmail_none (quiet : Quiet state) (sound : state.Sound) (index : Nat)
    (absent : ∀ userId, ¬ Registered state email userId) : getUserByEmail state.world index email =
      none := by
  cases hit : getUserByEmail state.world index email with
  | none => rfl
  | some pair =>
    obtain ⟨userId, user⟩ := pair
    obtain ⟨_, seen, matched⟩ := Relation.find_some hit
    rw [Relation.view_of_unwritten (quiet.owned sound index).users] at seen
    exact absurd ⟨user, seen, by simpa using matched⟩ (absent userId)

theorem getUserByEmail_some (quiet : Quiet state) (sound : state.Sound) (index : Nat)
    (registered : Registered state email userId) :
    ∃ user, getUserByEmail state.world index email = some (userId, user) := by
  obtain ⟨user, present, same⟩ := registered
  have seen : (state.world.users.cells userId).view index = some user := by
    rw [Relation.view_of_unwritten (quiet.owned sound index).users]
    exact present
  cases hit : getUserByEmail state.world index email with
  | none =>
    have missed := Relation.find_none hit (sound.world.users.member_of_view seen) seen
    simp [same] at missed
  | some pair =>
    obtain ⟨other, found⟩ := pair
    obtain ⟨_, seen', matched⟩ := Relation.find_some hit
    rw [Relation.view_of_unwritten (quiet.owned sound index).users] at seen'
    have own : other = userId := by
      by_contra apart
      have clashes := sound.world.users.distinct other userId found user apart seen' present
      have matched : found.email = email := by simpa using matched
      simp [User.clash, same, matched] at clashes
    exact ⟨found, by rw [own]⟩

theorem registration_grants (quiet : Quiet state) (sound : state.Sound)
    (absent : ∀ userId, ¬ Registered state email userId) (unused : ¬ ConsumedRow state email) :
    Grants registrationOtps config state (.requestRegistrationOtp email true) email := by
  let holds (world : World) (call : Call) : Prop :=
    ∃ phase, call = .requestRegistrationOtp email phase ∧ state.world.clock ≤ world.clock ∧
      phase.Alone state.calls.length email (otpExpiry + state.world.clock) world
  have answering : Answering registrationOtps config state.calls.length email
    (otpExpiry + state.world.clock) holds
      Call.remaining := by
    constructor
    · rintro world elapsed call ⟨phase, rfl, since, alone⟩
      refine ⟨phase, rfl, Nat.le_add_right_of_le since, ?_⟩
      cases phase with
      | begun now => exact ⟨Nat.le_add_right_of_le alone.1, alone.2⟩
      | unregistered now => exact ⟨Nat.le_add_right_of_le alone.1, alone.2⟩
      | replacing now => exact Nat.le_add_right_of_le (show now ≤ world.clock from alone)
      | deleting now target => exact ⟨Nat.le_add_right_of_le alone.1, alone.2⟩
      | cleared now deleted => exact ⟨Nat.le_add_right_of_le alone.1, alone.2⟩
      | created => exact alone
      | ended => exact alone
    · rintro current call draw undisturbed found ⟨phase, rfl, since, alone⟩ running fresh
      obtain ⟨next, after, taken, clock, alone', nearer⟩ := RequestRegistrationOtp.step_alone config
        undisturbed found alone since (by rintro outcome rfl; cases running) fresh
      exact ⟨next, _, Processes.mapped_eq_some.mpr ⟨after, taken, rfl⟩,
        ⟨after, rfl, clock ▸ since, alone'⟩, nearer⟩
    · rintro world call outcome ⟨phase, rfl, _, alone⟩ ended
      cases phase with
      | ended result =>
        obtain rfl := Option.some.inj ended
        exact alone
      | _ => cases ended
  refine answering.grants (fun _ _ permitted => permitted.2.1) quiet sound ⟨_, rfl, Nat.le_refl _,
    ?_⟩ (Nat.le_refl _)
  refine ⟨Nat.le_refl _, getUserByEmail_none quiet sound _ absent, ?_⟩
  intro key row seen own
  rw [Relation.view_of_unwritten (quiet.owned sound _).registrationOtps] at seen
  by_contra consumed
  exact unused ⟨key, row, seen, own, consumed⟩

theorem login_answering (quiet : Quiet state) (sound : state.Sound)
    (registered : Registered state email userId) :
    ∃ holds, Answering loginOtps config state.calls.length userId
      (otpExpiry + state.world.clock) holds Call.remaining ∧
      holds state.world (.requestLoginOtp email .begun) := by
  let holds (world : World) (call : Call) : Prop :=
    ∃ phase, call = .requestLoginOtp email phase ∧ state.world.clock ≤ world.clock ∧
      phase.Alone state.calls.length email userId (otpExpiry + state.world.clock) world
  have answering : Answering loginOtps config state.calls.length userId
    (otpExpiry + state.world.clock) holds
      Call.remaining := by
    constructor
    · rintro world elapsed call ⟨phase, rfl, since, alone⟩
      refine ⟨phase, rfl, Nat.le_add_right_of_le since, ?_⟩
      cases phase <;> exact alone
    · rintro current call draw undisturbed found ⟨phase, rfl, since, alone⟩ running fresh
      obtain ⟨next, after, taken, clock, alone', nearer⟩ := RequestLoginOtp.step_alone config
        undisturbed found alone since (by rintro outcome rfl; cases running) fresh
      exact ⟨next, _, Processes.mapped_eq_some.mpr ⟨after, taken, rfl⟩,
        ⟨after, rfl, clock ▸ since, alone'⟩, nearer⟩
    · rintro world call outcome ⟨phase, rfl, _, alone⟩ ended
      cases phase with
      | ended result =>
        obtain rfl := Option.some.inj ended
        exact alone
      | _ => cases ended
  exact ⟨holds, answering, _, rfl, Nat.le_refl _, getUserByEmail_some quiet sound _ registered⟩

theorem login_grants (quiet : Quiet state) (sound : state.Sound)
    (registered : Registered state email userId) :
    Grants loginOtps config state (.requestLoginOtp email true) userId := by
  obtain ⟨holds, answering, begins⟩ :=
    @login_answering config state email userId quiet sound registered
  exact answering.grants (fun _ _ permitted => permitted.2.2) quiet sound begins (Nat.le_refl _)

theorem alone_step {request : Request} {steps : List State.Event} {middle : State} {draw : Draw}
    {call after : Call}
    {world : World} (reached : alone config state request steps = some middle)
    (found : middle.calls[state.calls.length]? = some call)
    (fresh : AloneStep state.calls.length middle (.call state.calls.length draw))
    (taken : call.step config state.calls.length middle.world draw = some (world, after)) :
    alone config state request (steps ++ [.call state.calls.length draw]) =
      some ⟨world, middle.calls.set state.calls.length after⟩ :=
  System.execute_concat reached fresh (by simp [State.system, State.step, found, taken])

/-- The look-up passes over a consumed code, and the unique constraint refuses the new one. -/
theorem registration_refused (quiet : Quiet state) (sound : state.Sound)
    (absent : ∀ userId, ¬ Registered state email userId) (consumed : ConsumedRow state email) :
    ¬ Grants registrationOtps config state (.requestRegistrationOtp email true) email := by
  intro grants
  obtain ⟨id, row, present, own, used⟩ := consumed
  let index := state.calls.length
  have owned := (quiet.owned sound index).registrationOtps
  have seen : (state.world.registrationOtps.cells id).view index = some row := by
    rw [Relation.view_of_unwritten owned]
    exact present
  have free : state.world.registrationOtps.Free index := by
    intro key
    rw [Cell.blocked_eq_false]
    intro holder version held
    have member := ((quiet.owned sound holder).registrationOtps key version).mp held
    cases member
  have missed : getOtp state.world.registrationOtps index email = none := by
    cases hit : getOtp state.world.registrationOtps index email with
    | none => rfl
    | some pair =>
      obtain ⟨other, found⟩ := pair
      obtain ⟨there, same, unused⟩ := OtpVerification.getOtp_some hit
      obtain rfl := sole_of_unwritten sound.world.registrationOtps owned seen own other found
        there same
      obtain rfl := Option.some.inj (there.symm.trans seen)
      exact absurd unused used
  obtain ⟨fresh, unseen⟩ := Infinite.exists_notMem_finset
    (state.world.registrationOtps.keys ++ state.world.loginOtps.keys).toFinset
  simp only [List.mem_toFinset, List.mem_append, not_or] at unseen
  have permitted (middle : State) (same : middle.world = state.world) :
      AloneStep index middle (.call index ⟨fresh, ""⟩) := ⟨rfl, same ▸ unseen.1, same ▸ unseen.2⟩
  obtain ⟨otp, made⟩ := newOtp_some (Nat.le_refl state.world.clock) email (hashOtp config "")
  have violates : createOtp state.world.registrationOtps index fresh otp = .violates :=
    free.insert_violates (sound.world.registrationOtps.member_of_view seen) seen
      (by simp [Otp.clash, newOtp_val made, own])
  have unknown := getUserByEmail_none quiet sound index absent
  have looksUp : RequestRegistrationOtp.step config index state.world email ⟨fresh,
    ""⟩ (.begun state.world.clock) =
      some (state.world, .unregistered state.world.clock) := by
        simp only [RequestRegistrationOtp.step, unknown]
  have passesOver : RequestRegistrationOtp.step config index state.world email ⟨fresh, ""⟩
      (.unregistered state.world.clock) = some (state.world, .cleared state.world.clock none) := by
    simp only [RequestRegistrationOtp.step, missed]
  have refuses : RequestRegistrationOtp.step config index state.world email ⟨fresh, ""⟩
      (.cleared state.world.clock none) =
        some (state.world.rollback index, .ended (.error unableToGenerate)) := by
    simp only [RequestRegistrationOtp.step, made, violates]
  have arrived := @List.getElem?_concat_length _ state.calls
    (Call.requestRegistrationOtp email (.begun state.world.clock))
  have begun : alone config state (.requestRegistrationOtp email true) [] = some _ := rfl
  have first := alone_step begun arrived (permitted _ rfl)
    (Processes.mapped_eq_some.mpr ⟨_, looksUp, rfl⟩)
  have second := alone_step first (Processes.set_self arrived) (permitted _ rfl)
    (Processes.mapped_eq_some.mpr ⟨_, passesOver, rfl⟩)
  have third := alone_step second (Processes.set_self (Processes.set_self arrived))
    (permitted _ rfl)
    (Processes.mapped_eq_some.mpr ⟨_, refuses, rfl⟩)
  have answer := grants.answered _ _ (.error unableToGenerate) third
    (Option.bind_eq_some_iff.mpr ⟨_,
      Processes.set_self (Processes.set_self (Processes.set_self arrived)), rfl⟩)
  cases answer.1

end Requests

/-- Alone, a registration request for an email without an account and a login request for one with
an account are granted. -/
structure FreshOtps (config : Config) (state : State) (email : String) : Prop where
  registration : (∀ userId, ¬ Registered state email userId) →
    Grants registrationOtps config state (.requestRegistrationOtp email true) email
  login : ∀ userId, Registered state email userId →
    Grants loginOtps config state (.requestLoginOtp email true) userId

theorem fresh_otps_iff {config : Config} {allowed : State → State.Event → Prop}
    {events : List State.Event}
    {state : State} (run : Run (State.system config) allowed events state) (quiet : Quiet state)
    (email : String) :
    FreshOtps config state email ↔
      (ConsumedRow state email → ∃ userId, Registered state email userId) := by
  have sound := State.run_sound run
  constructor
  · intro grants consumed
    by_contra absent
    have absent : ∀ userId, ¬ Registered state email userId :=
      fun userId registered => absent ⟨userId, registered⟩
    exact registration_refused quiet sound absent consumed (grants.registration absent)
  · intro unused
    constructor
    · intro absent
      refine registration_grants quiet sound absent ?_
      intro consumed
      obtain ⟨userId, registered⟩ := unused consumed
      exact absent userId registered
    · intro userId registered
      exact login_grants quiet sound registered

/-- A code is requested and verified, and the registration token is left to expire. -/
def verifies : List State.Event :=
  .arrive (.requestRegistrationOtp "ann@example.com" true) :: calls 0 [⟨0, ""⟩, ⟨0, ""⟩,
    ⟨10, "111111"⟩, ⟨0, ""⟩] ++
    .arrive (.verifyRegistrationOtp "ann@example.com" "111111") ::
    calls 1 [⟨0, ""⟩, ⟨0, ""⟩, ⟨0, ""⟩, ⟨0, ""⟩, ⟨0, ""⟩] ++
      [.tick (seconds registrationTokenTtlSeconds)]

/-- All calls have ended, and there is no account. -/
private def verified (state : State) : Bool :=
  state.calls.all (fun call => call.outcome.isSome) && state.world.users.keys.isEmpty

theorem Call.ended_writes {call : Call}
    (ended : call.outcome.isSome = true) : call.writes = {} := by
  cases call with
  | requestRegistrationOtp _ phase | verifyRegistrationOtp _ _ phase | createAccount _ _ phase
  | requestLoginOtp _ phase | authenticateAccount _ _ phase | refreshAccessToken _ phase
  | logout _ phase =>
    cases phase <;> first | rfl | cases ended

theorem quiet_of_ended {state : State} (ended : ∀ call ∈ state.calls, call.outcome.isSome = true) :
    Quiet state := by
  intro index
  unfold State.writes
  cases found : state.calls[index]? with
  | none => rfl
  | some call => exact Call.ended_writes (ended call (List.mem_of_getElem? found))

theorem fresh_otps_iff_verified : ∃ state, Run (State.system sampleConfig) Any verifies state ∧
    Quiet state ∧
    (FreshOtps sampleConfig state "ann@example.com" ↔
      (ConsumedRow state "ann@example.com" → ∃ userId,
        Registered state "ann@example.com" userId)) := by
  obtain ⟨state, run, observed⟩ :=
    Run.exists_of_execute (State.system sampleConfig) Any verifies verified (by decide)
  simp only [verified, Bool.and_eq_true, List.all_eq_true] at observed
  have quiet := quiet_of_ended observed.1
  exact ⟨state, run, quiet, fresh_otps_iff run quiet "ann@example.com"⟩

/-- The next request for a code, alone, is answered 409. -/
private def refused (state : State) : Bool :=
  (alone sampleConfig state (.requestRegistrationOtp "ann@example.com" true)
    (calls 2 [⟨12, ""⟩, ⟨12, ""⟩, ⟨12, "222222"⟩])).any
      fun last => (last.calls[state.calls.length]?).bind Call.outcome =
        some (.error unableToGenerate)

theorem consumed_code_blocks : ∃ state, Run (State.system sampleConfig) Any verifies state ∧
    Quiet state ∧
    ¬ FreshOtps sampleConfig state "ann@example.com" := by
  obtain ⟨state, run, observed⟩ := Run.exists_of_execute (State.system sampleConfig) Any verifies
    (fun state => verified state && refused state) (by decide)
  simp only [verified, refused, Bool.and_eq_true, List.all_eq_true, Option.any_eq_true,
    decide_eq_true_eq] at observed
  obtain ⟨⟨ended, empty⟩, last, reached, answered⟩ := observed
  refine ⟨state, run, quiet_of_ended ended, ?_⟩
  intro grants
  have absent : ∀ userId, ¬ Registered state "ann@example.com" userId := by
    rintro userId ⟨user, present, _⟩
    have nothing := (State.run_sound run).world.users.known userId
      (by simp [List.isEmpty_iff.mp empty])
    simp [Relation.row, nothing] at present
  cases ((grants.registration absent).answered _ last _ reached answered).1

end Relays.Auth
