import Relays.Auth.Disclosure
import Relays.Auth.Rollback

/-! The replacement of a one-time password. A registration deletes and inserts in one transaction. A
login has left its transaction by then: its DELETE is committed before the INSERT can fail. -/

namespace Relays.Auth

open ReadCommitted Transition

/-- The committed codes of both flows are the same. -/
structure World.SameOtps (world next : World) : Prop where
  registrationOtps : next.registrationOtps.row = world.registrationOtps.row
  loginOtps : next.loginOtps.row = world.loginOtps.row

theorem World.SameRows.otps {world next : World}
    (same : world.SameRows next) : world.SameOtps next :=
  ⟨same.registrationOtps, same.loginOtps⟩

/-- The calls that replace a code. -/
def Call.requestsOtp : Call → Bool
  | .requestRegistrationOtp _ _ | .requestLoginOtp _ _ => true
  | _ => false

/-- The row whose DELETE the next step of the call commits, with the INSERT still to come. -/
def Call.deletes : Call → Option Uuid
  | .requestLoginOtp _ (.deleted _ target) => some target
  | _ => none

/-- The step is one of the call of this index. -/
def State.Event.of (index : Nat) : State.Event → Prop
  | .call acting _ | .abort acting => acting = index
  | .tick _ | .arrive _ => False

/-- The call of this index has ended in an error. -/
def State.Failed (state : State) (index : Nat) : Prop :=
  ∃ call outcome, state.calls[index]? = some call ∧ call.outcome = some outcome ∧
    outcome.failed = true

/-- No step of a request that fails changes the codes. -/
def AllOrNothing (config : Config) (events : List State.Event) (state : State) : Prop :=
  ∀ index, state.Failed index → ∀ front before event after call,
    Takes (State.system config) events front before event after → event.of index →
    before.calls[index]? = some call → call.requestsOtp = true → before.world.SameOtps after.world

/-- No request that fails has committed its DELETE. -/
def NoDeleteCommitted (config : Config) (events : List State.Event) (state : State) : Prop :=
  ∀ index, state.Failed index → ∀ front before draw after call,
    Takes (State.system config) events front before (.call index draw) after →
    before.calls[index]? = some call → call.deletes = none

section Runs

variable {config : Config} {events front : List State.Event} {state before after : State}
    {event : State.Event}
variable {world next : World} {call last : Call} {tx index : Nat} {draw : Draw} {outcome : Outcome}

/-- Before its end, a request changes codes with the commit of its DELETE only. -/
theorem Call.step_running (sound : world.Sound) (owned : world.Owned tx call.writes)
    (requests : call.requestsOtp = true)
    (kept : call.deletes = none) (taken : call.step config tx world draw = some (next, last))
    (running : last.outcome = none) : world.SameOtps next := by
  have moves := Call.step_moves sound taken
  cases call with
  | requestRegistrationOtp email phase =>
    obtain ⟨after, moved, rfl⟩ := Processes.mapped_eq_some.mp taken
    cases phase with
    | begun | unregistered | replacing | deleting => exact (moves.sameRows owned).otps
    | cleared now deleted =>
      cases after with
      | created =>
        refine ⟨funext fun key => ?_, funext fun key => ?_⟩
        · exact moves.registrationOtps.row_of_written owned.registrationOtps
            (List.append_ne_nil_of_right_ne_nil _ (by simp)) key
        · rcases moves.loginOtps.row_cases owned.loginOtps key with same | ⟨_, member, _⟩
          · exact same
          · cases member
      | ended => cases running
      | _ =>
        simp only [RequestRegistrationOtp.step] at moved
        repeat' split at moved
        all_goals cases moved
    | created =>
      cases moved
      cases running
    | ended => cases moved
  | requestLoginOtp email phase =>
    obtain ⟨after, moved, rfl⟩ := Processes.mapped_eq_some.mp taken
    cases phase with
    | begun | identified | deleting | cleared => exact (moves.sameRows owned).otps
    | deleted => cases kept
    | created =>
      cases moved
      cases running
    | ended => cases moved
  | _ => cases requests

theorem Call.writes_of_deletes {target : Uuid} (deletes : call.deletes = some target) :
    call.writes = { loginOtps := [(target, none)] } := by
  unfold Call.deletes at deletes
  split at deletes
  · cases deletes
    rfl
  · cases deletes

theorem Call.requestsOtp_of_deletes {target : Uuid}
    (deletes : call.deletes = some target) : call.requestsOtp = true := by
  unfold Call.deletes at deletes
  split at deletes
  · rfl
  · cases deletes

theorem Call.step_commits {target : Uuid}
    (taken : call.step config tx world draw = some (next, last))
    (deletes : call.deletes = some target) : next = world.commit tx := by
  unfold Call.deletes at deletes
  split at deletes
  · cases taken
    rfl
  · cases deletes

/-- What a call deletes is there. -/
theorem Call.step_deletes {target : Uuid} (sound : world.Sound) (owned : world.Owned tx call.writes)
    (taken : call.step config tx world draw = some (next, last))
    (deletes : last.deletes = some target) :
    ∃ otp, next.loginOtps.row target = some otp := by
  have moves := Call.step_moves sound taken
  cases call with
  | requestLoginOtp email phase =>
    obtain ⟨after, moved, rfl⟩ := Processes.mapped_eq_some.mp taken
    cases phase with
    | deleting userId locked =>
      have same := (moves.sameRows owned).loginOtps
      simp only [RequestLoginOtp.step] at moved
      split at moved
      · cases moved
      · cases moved
        cases deletes
      · rename_i table deleted done
        cases moved
        cases deleted with
        | false => cases deletes
        | true =>
          cases deletes
          obtain ⟨stored, _, seen, _⟩ := Relation.delete_returns done
          rw [Relation.view_of_unwritten owned.loginOtps] at seen
          exact ⟨stored, (congrFun same target).trans seen⟩
    | _ =>
      simp only [RequestLoginOtp.step] at moved
      repeat' split at moved
      all_goals first | cases moved; cases deletes | cases moved
  | _ =>
    obtain ⟨after, moved, rfl⟩ := Processes.mapped_eq_some.mp taken
    cases deletes

/-- No other transaction changes a row that a call is deleting. -/
theorem deletes_present (run : Run (State.system config) Any events state) :
    ∀ (index : Nat) (call : Call) target, state.calls[index]? = some call →
      call.deletes = some target →
      ∃ otp, state.world.loginOtps.row target = some otp := by
  apply run.invariant
  · intro index call target found
    cases found
  · intro events before event after earlier holds _ taken index call target found deletes
    have sound := State.run_sound earlier
    have moves : State.Moves config before event after := State.step_moves taken
    cases moves with
    | tick => exact holds index call target found deletes
    | @arrive request =>
      rcases Processes.append_cases found with ⟨_, rfl⟩ | there
      · cases request with
        | requestLoginOtp email permitted => cases permitted <;> cases deletes
        | _ => cases deletes
      · exact holds index call target there deletes
    | call entry moved =>
      rcases Processes.set_cases found with ⟨rfl, rfl⟩ | ⟨different, there⟩
      · exact Call.step_deletes sound.world (sound.owned_call entry) moved deletes
      · obtain ⟨otp, present⟩ := holds index call target there deletes
        have locked := (sound.owned_call there).loginOtps target none
        rw [Call.writes_of_deletes deletes] at locked
        rcases (Call.step_moves sound.world moved).loginOtps.row_cases
          (sound.owned_call entry).loginOtps target with
          same | ⟨version, written, _⟩
        · exact ⟨otp, same.trans present⟩
        · have held := ((sound.owned_call entry).loginOtps target version).mpr written
          cases (locked.mpr (List.mem_singleton.mpr rfl)).symm.trans held
          exact absurd rfl different
    | @abort _ current entry running =>
      rcases Processes.set_cases found with ⟨rfl, rfl⟩ | ⟨_, there⟩
      · cases current <;> cases deletes
      · obtain ⟨otp, present⟩ := holds index call target there deletes
        exact ⟨otp, (congrFun (World.sameRows_rollback before.world _).loginOtps target).trans
          present⟩

/-- An outcome is the final one. -/
theorem State.Moves.keeps_ended (moves : State.Moves config before event after)
    (found : before.calls[index]? = some call)
    (ended : call.outcome = some outcome) : after.calls[index]? = some call := by
  cases moves with
  | tick => exact found
  | arrive => exact Processes.append_earlier found
  | call entry taken =>
    rename_i acting _ _ _ _
    by_cases own : index = acting
    · subst own
      obtain rfl := Option.some.inj (entry.symm.trans found)
      rw [Call.step_ended ended] at taken
      cases taken
    · exact (Processes.set_other own).trans found
  | abort entry running =>
    rename_i acting _
    by_cases own : index = acting
    · subst own
      obtain rfl := Option.some.inj (entry.symm.trans found)
      rw [ended] at running
      cases running
    · exact (Processes.set_other own).trans found

theorem outcome_final (run : Run (State.system config) Any events state)
    (takes : Takes (State.system config) events front before event after)
    (found : after.calls[index]? = some call)
    (ended : call.outcome = some outcome) : state.calls[index]? = some call := by
  obtain ⟨back, split⟩ := takes.split
  rw [List.append_cons] at split
  apply run.keeps split takes.run found
  intro _ earlier _ _ _ there _ taken
  exact (State.step_moves taken).keeps_ended there ended

/-- The step that commits the DELETE has removed a code. -/
theorem not_sameOtps_of_deletes {target : Uuid}
    (takes : Takes (State.system config) events front before (.call index draw) after)
    (found : before.calls[index]? = some call)
    (deletes : call.deletes = some target) : ¬ before.world.SameOtps after.world := by
  have sound := State.run_sound takes.reached
  have moves : State.Moves config before (.call index draw) after := State.step_moves takes.taken
  obtain ⟨otp, present⟩ := deletes_present takes.reached index call target found deletes
  intro same
  cases moves with
  | call entry taken =>
    obtain rfl := Option.some.inj (entry.symm.trans found)
    obtain rfl := Call.step_commits taken deletes
    have owned := (sound.owned_call entry).loginOtps
    rw [Call.writes_of_deletes deletes] at owned
    have gone : (before.world.loginOtps.commit index).row target = none := by
      rw [owned.commit_row, Function.update_self]
    cases present.symm.trans ((congrFun same.loginOtps target).symm.trans gone)

theorem all_or_nothing_iff (run : Run (State.system config) Any events state) :
    AllOrNothing config events state ↔ NoDeleteCommitted config events state := by
  constructor
  · intro all index failed front before draw after call takes found
    cases deletes : call.deletes with
    | none => rfl
    | some target =>
      exact absurd (all index failed front before _ after call takes rfl found
        (Call.requestsOtp_of_deletes deletes))
        (not_sameOtps_of_deletes takes found deletes)
  · intro kept index failed front before event after call takes own found requests
    have sound := State.run_sound takes.reached
    have moves : State.Moves config before event after := State.step_moves takes.taken
    cases moves with
    | tick | arrive => cases own
    | abort entry running => exact (World.sameRows_rollback _ _).otps
    | @call _ _ _ last _ entry taken =>
      obtain rfl := own
      obtain rfl := Option.some.inj (entry.symm.trans found)
      cases ended : last.outcome with
      | none =>
        exact Call.step_running sound.world (sound.owned_call entry) requests
          (kept _ failed _ _ _ _ _ takes found) taken ended
      | some outcome =>
        have final := outcome_final run takes (Processes.set_self entry) ended
        obtain ⟨call, answer, there, answered, failing⟩ := failed
        obtain rfl := Option.some.inj (there.symm.trans final)
        obtain rfl := Option.some.inj (answered.symm.trans ended)
        obtain rfl := Call.step_failed sound.world taken ended failing
        exact (World.sameRows_rollback _ _).otps

end Runs

/-- A second code is requested; the DELETE of the first one is about to be committed. -/
def deletesLoginCode : List State.Event :=
  requestsLogin ++ .arrive (.requestLoginOtp "ann@example.com" true) :: calls 2 [⟨0, ""⟩, ⟨0, ""⟩,
    ⟨0, ""⟩]

/-- The connection is lost before the INSERT. -/
def losesConnection : List State.Event := deletesLoginCode ++ [.call 2 ⟨0, ""⟩, .abort 2]

private def deletesCode (state : State) : Bool := (state.calls[2]?).bind Call.deletes = some 10

private def endsUnhandled (state : State) : Bool :=
    (state.calls[2]?).bind Call.outcome = some .unhandled

theorem all_or_nothing_iff_losesConnection :
    ∃ state, Run (State.system sampleConfig) Any losesConnection state ∧
    (AllOrNothing sampleConfig losesConnection state ↔
      NoDeleteCommitted sampleConfig losesConnection state) := by
  obtain ⟨state, run, _⟩ :=
    Run.exists_of_execute (State.system sampleConfig) Any losesConnection endsUnhandled (by decide)
  exact ⟨state, run, all_or_nothing_iff run⟩

theorem login_code_lost : ∃ state, Run (State.system sampleConfig) Any losesConnection state ∧
    ¬ AllOrNothing sampleConfig losesConnection state := by
  obtain ⟨state, run, unhandled⟩ :=
    Run.exists_of_execute (State.system sampleConfig) Any losesConnection endsUnhandled (by decide)
  refine ⟨state, run, ?_⟩
  intro all
  obtain ⟨replacing, reached, deleting⟩ :=
    Run.exists_of_execute (State.system sampleConfig) Any deletesLoginCode deletesCode (by decide)
  have split : losesConnection = deletesLoginCode ++ .call 2 ⟨0, ""⟩ :: [.abort 2] := rfl
  obtain ⟨before, after, takes⟩ := run.takes split
  obtain rfl := takes.reached.unique reached
  obtain ⟨ended, found, answer⟩ := Option.bind_eq_some_iff.mp (of_decide_eq_true unhandled)
  obtain ⟨call, current, deletes⟩ := Option.bind_eq_some_iff.mp (of_decide_eq_true deleting)
  have same := all 2 ⟨ended, _, found, answer, rfl⟩ _ _ _ _ call takes rfl current
    (Call.requestsOtp_of_deletes deletes)
  exact not_sameOtps_of_deletes takes current deletes same

end Relays.Auth
