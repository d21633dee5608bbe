import Relays.Auth.Queries

/-! The statements that `verify_registration_otp` and `authenticate_account` have in common:
from the look-up of the code of an email or a user to its consumption. -/

namespace Relays.Auth.OtpVerification

open ReadCommitted

inductive Phase (Owner : Type) where
  | reading
  | read (id : Uuid) (otp : StoredOtp Owner)
  | expired
  | deleting (target : Uuid)
  | matched (id : Uuid) (otp : StoredOtp Owner)
  | consuming (id : Uuid) (otp : StoredOtp Owner) (target : Uuid)

inductive Progress (Owner : Type) where
  | continues (phase : Phase Owner)
  | raises (error : APIException)
  | fails
  | consumed (id : Uuid) (otp : StoredOtp Owner) (target : Uuid) (result : StoredOtp Owner)

def invalidOtp : APIException where
  statusCode := 401
  code := .invalidOtp
  message := "Invalid OTP"

/-- The checks of the row between its look-up and its consumption. -/
def check {Owner : Type} (config : Config) (clock : Time) (code : String) (id : Uuid)
    (otp : StoredOtp Owner) :
    Progress Owner :=
  if otp.val.expiresAt ≤ clock then .continues .expired
  else if hashOtp config code ≠ otp.val.otpHash then .raises invalidOtp
  else .continues (.matched id otp)

/-- One statement, of a transaction that began at `now`. -/
def step {Owner : Type} [DecidableEq Owner] (config : Config) (clock now : Time) (tx : Nat)
    (owner : Owner)
    (code : String) (table : OtpTable Owner) : Phase Owner →
      Option (OtpTable Owner × Progress Owner)
  | .reading =>
    match getOtp table tx owner with
    | none => some (table, .raises invalidOtp)
    | some (id, otp) => some (table, .continues (.read id otp))
  | .read id otp => some (table, check config clock code id otp)
  | .expired =>
    match findOtp table tx owner with
    | none => some (table, .raises invalidOtp)
    | some (target, _) => some (table, .continues (.deleting target))
  | .deleting target =>
    match deleteOtp table tx owner target with
    | .waits => none
    | .violates => some (table, .fails)
    | .returns (next, _) => some (next, .raises invalidOtp)
  | .matched id otp =>
    match getOtp table tx owner with
    | none => some (table, .raises invalidOtp)
    | some (target, _) => some (table, .continues (.consuming id otp target))
  | .consuming id otp target =>
    match consumeOtp table tx now owner target with
    | .waits => none
    | .violates => some (table, .fails)
    | .returns (next, none) => some (next, .raises invalidOtp)
    | .returns (next, some result) => some (next, .consumed id otp target result)

end Relays.Auth.OtpVerification
