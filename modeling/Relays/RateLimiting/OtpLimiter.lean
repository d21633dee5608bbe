import Mathlib.Data.List.Induction
import Relays.RateLimiting.Sequential

/-! `otp_rate_limit` asks three limiters one after the other. Each records the request before the
next is asked, so a request that a later limiter rejects has used the quota of the earlier ones. -/

namespace Relays.RateLimiting

open Redis Transition

inductive OtpFlow where
  | login
  | registration
  deriving DecidableEq

inductive Window where
  | cooldown
  | hourly
  | daily
  deriving DecidableEq

def otpCooldownLimit : Nat := 1
def otpCooldownWindowSeconds : Nat := 30

def otpHourlyLimit : Nat := 5
def otpHourlyWindowSeconds : Nat := 60 * 60

def otpDailyLimit : Nat := 20
def otpDailyWindowSeconds : Nat := 24 * 60 * 60

def otpLoginCooldownKey (email : String) : String := "otp:login:cooldown:" ++ email
def otpLoginHourKey (email : String) : String := "otp:login:hour:" ++ email
def otpLoginDayKey (email : String) : String := "otp:login:day:" ++ email
def otpRegistrationCooldownKey (email : String) : String := "otp:register:cooldown:" ++ email
def otpRegistrationHourKey (email : String) : String := "otp:register:hour:" ++ email
def otpRegistrationDayKey (email : String) : String := "otp:register:day:" ++ email

/-- What `otp_rate_limit` passes to the limiter. -/
def otpArguments (email : String) : OtpFlow → Window → Arguments
  | .login, .cooldown => ⟨otpLoginCooldownKey email, otpCooldownLimit, otpCooldownWindowSeconds⟩
  | .login, .hourly => ⟨otpLoginHourKey email, otpHourlyLimit, otpHourlyWindowSeconds⟩
  | .login, .daily => ⟨otpLoginDayKey email, otpDailyLimit, otpDailyWindowSeconds⟩
  | .registration, .cooldown => ⟨otpRegistrationCooldownKey email, otpCooldownLimit,
    otpCooldownWindowSeconds⟩
  | .registration, .hourly => ⟨otpRegistrationHourKey email, otpHourlyLimit, otpHourlyWindowSeconds⟩
  | .registration, .daily => ⟨otpRegistrationDayKey email, otpDailyLimit, otpDailyWindowSeconds⟩

/-- Every limiter reads the clock itself, and sends its own commands. -/
abbrev Attempt := Window → Reading

def consult (redis : Database) (email : String) (flow : OtpFlow) (attempt : Attempt)
    (window : Window) : Database × Bool :=
  slidingWindowLimiter redis (attempt window) (otpArguments email flow window)

def otpRateLimit (redis : Database) (email : String) (flow : OtpFlow) (attempt : Attempt) :
    Database × Bool :=
  let cooldown := consult redis email flow attempt .cooldown
  if !cooldown.2 then (cooldown.1, false)
  else
    let hourly := consult cooldown.1 email flow attempt .hourly
    if !hourly.2 then (hourly.1, false)
    else
      let daily := consult hourly.1 email flow attempt .daily
      if !daily.2 then (daily.1, false)
      else (daily.1, true)

structure Rated where
  redis : Database
  permitted : List Attempt

def Rated.call (email : String) (flow : OtpFlow) (rated : Rated) (attempt : Attempt) : Rated :=
  let (redis, allowed) := otpRateLimit rated.redis email flow attempt
  ⟨redis, if allowed then rated.permitted ++ [attempt] else rated.permitted⟩

/-- The calls for an email and flow, one after the other. -/
def rate (email : String) (flow : OtpFlow) (attempts : List Attempt) : Rated :=
  attempts.foldl (Rated.call email flow) ⟨fun _ => none, []⟩

/-- What these calls record in a window when they pass the three limiters. -/
def readings (attempts : List Attempt) (window : Window) : List Reading :=
  attempts.map fun attempt => attempt window

/-- Fewer than the limit of these calls are inside the window that this call looks at. -/
def otpRoom (email : String) (flow : OtpFlow) (earlier : List Attempt) (attempt : Attempt)
    (window : Window) : Bool :=
  room (otpArguments email flow window) (readings earlier window) (attempt window)

def Attempt.all (attempt : Attempt) : List Reading :=
  [attempt .cooldown, attempt .hourly, attempt .daily]

/-- The limiters are asked one after the other, and members are unique. -/
structure Attempts (attempts : List Attempt) : Prop where
  times : ∀ reading ∈ attempts.flatMap Attempt.all, reading.Ordered
  apart : (attempts.flatMap Attempt.all).Pairwise (·.expires ≤ ·.now)
  unique : ((attempts.flatMap Attempt.all).map Reading.member).Nodup

/-- The requests of a key that are found inside the window of a call. -/
def recorded (redis : Database) (clock : Seconds) (arguments : Arguments) (reading : Reading) :
    List (Uuid × Seconds) :=
  since (reading.windowStart arguments) (content redis clock arguments.key)

/-- A rejected call leaves the requests that the three windows hold, and only permitted calls
count. -/
structure ConsumesNoQuota (email : String) (flow : OtpFlow) (attempts : List Attempt) : Prop where
  rejected : ∀ front attempt back, attempts = front ++ attempt :: back →
    (otpRateLimit (rate email flow front).redis email flow attempt).2 = false →
    ∀ window clock, (attempt .cooldown).counts ≤ clock →
    recorded (otpRateLimit (rate email flow front).redis email flow attempt).1 clock
        (otpArguments email flow window) (attempt window) =
      recorded (rate email flow front).redis clock (otpArguments email flow window) (attempt window)
  permitted : ∀ front attempt back, attempts = front ++ attempt :: back →
    ((otpRateLimit (rate email flow front).redis email flow attempt).2 = true ↔
      ∀ window, otpRoom email flow (rate email flow front).permitted attempt window = true)

/-- The calls that keep the cooldown since the last such call. -/
def spaced (email : String) (flow : OtpFlow) (attempts : List Attempt) : List Attempt :=
  attempts.foldl (fun earlier attempt =>
    if otpRoom email flow earlier attempt .cooldown then earlier ++ [attempt] else earlier) []

/-- No call that keeps the cooldown comes when the hour or the day is full of such calls. -/
def NeverFull (email : String) (flow : OtpFlow) (attempts : List Attempt) : Prop :=
  ∀ front attempt back, attempts = front ++ attempt :: back →
    otpRoom email flow (spaced email flow front) attempt .cooldown = true → ∀ window,
    otpRoom email flow (spaced email flow front) attempt window = true

/-- No limiter is asked so late that a key has expired that holds a request inside its window. -/
def NeverLate (email : String) (flow : OtpFlow) (attempts : List Attempt) : Prop :=
  ∀ front attempt back, attempts = front ++ attempt :: back → ∀ window,
    InTime (otpArguments email flow window) (readings (spaced email flow front) window)
      (attempt window)

section Otp

variable {email : String} {flow : OtpFlow} {attempts front : List Attempt} {attempt : Attempt}
variable {window other : Window} {redis : Database} {clock now : Seconds}
variable {marks : Window → List Reading}

theorem otpArguments_apart (apart : window ≠ other) :
    (otpArguments email flow window).key ≠ (otpArguments email flow other).key := by
  intro same
  apply apart
  cases flow <;> cases window <;> cases other <;>
    first
      | rfl
      | exact absurd ((String.append_left_inj email).mp same) (by decide)

theorem otpArguments_window_pos : 0 < (otpArguments email flow window).windowSeconds := by
  cases flow <;> cases window <;> exact Nat.zero_lt_succ _

/-- A call that is permitted has passed the three limiters. -/
theorem otpRateLimit_passes (permitted : (otpRateLimit redis email flow attempt).2 = true) :
    (consult redis email flow attempt .cooldown).2 = true ∧
    (consult (consult redis email flow attempt .cooldown).1 email flow attempt .hourly).2 = true ∧
    (consult (consult (consult redis email flow attempt .cooldown).1 email flow attempt .hourly).1
      email flow attempt .daily).2 = true := by
  unfold otpRateLimit at permitted
  dsimp only at permitted
  split at permitted
  · cases permitted
  · rename_i cooldown
    split at permitted
    · cases permitted
    · rename_i hourly
      split at permitted
      · cases permitted
      · rename_i daily
        exact ⟨by simpa using cooldown, by simpa using hourly, by simpa using daily⟩

theorem rate_concat (attempts : List Attempt) (attempt : Attempt) :
    rate email flow (attempts ++ [attempt]) =
      (rate email flow attempts).call email flow attempt := by
  simp [rate]

theorem spaced_concat (attempts : List Attempt)
    (attempt : Attempt) : spaced email flow (attempts ++ [attempt]) =
    if otpRoom email flow (spaced email flow attempts) attempt .cooldown then
      spaced email flow attempts ++ [attempt]
    else spaced email flow attempts := by
  rw [spaced, List.foldl_append]
  rfl

/-- What the keys of the three limiters hold from this time on. -/
def Keep (email : String) (flow : OtpFlow) (redis : Database) (clock : Seconds)
    (marks : Window → List Reading) : Prop :=
  ∀ window, Holds redis (otpArguments email flow window) clock (marks window)

theorem readings_concat :
    readings (attempts ++ [attempt]) window = readings attempts window ++ [attempt window] := by
  simp [readings]

namespace Keep

theorem mono (keep : Keep email flow redis clock marks) (passed : clock ≤ now) :
    Keep email flow redis now marks :=
  fun window => (keep window).mono passed

/-- A limiter that is asked in time lets a call pass when these calls leave room in its window. -/
theorem allowed (keep : Keep email flow redis (attempt window).now marks)
    (ordered : (attempt window).Ordered)
    (inTime : InTime (otpArguments email flow window) (marks window) (attempt window)) :
    (consult redis email flow attempt window).2 =
      room (otpArguments email flow window) (marks window) (attempt window) :=
  ((keep window).counted ordered inTime).allowed ordered

/-- What the limiter of a window does is not seen in the other windows. -/
theorem elsewhere (keep : Keep email flow redis clock marks) (apart : other ≠ window) :
    Holds (consult redis email flow attempt window).1 (otpArguments email flow other) clock
      (marks other) :=
  (keep other).congr (limiter_other (otpArguments_apart apart))

theorem rejects (keep : Keep email flow redis (attempt window).now marks)
    (ordered : (attempt window).Ordered)
    (inTime : InTime (otpArguments email flow window) (marks window) (attempt window))
    (rejected : (consult redis email flow attempt window).2 = false) :
    Keep email flow (consult redis email flow attempt window).1 (attempt window).now marks := by
  intro other
  by_cases own : other = window
  · subst own
    exact (keep other).rejects ordered inTime rejected
  · exact keep.elsewhere own

/-- It then adds the mark of this call. -/
theorem adds (keep : Keep email flow redis (attempt window).now marks)
    (ordered : (attempt window).Ordered) (own : marks window = readings attempts window)
    (inTime : InTime (otpArguments email flow window) (readings attempts window) (attempt window))
    (fresh : ∀ one ∈ attempts, (one window).member ≠ (attempt window).member)
    (open' : otpRoom email flow attempts attempt window = true) :
    Keep email flow (consult redis email flow attempt window).1 (attempt window).expires
      (Function.update marks window (readings (attempts ++ [attempt]) window)) := by
  have unmarked : ∀ mark ∈ marks window, mark.member ≠ (attempt window).member := by
    rw [own]
    intro mark known
    obtain ⟨one, answered, rfl⟩ := List.mem_map.mp known
    exact fresh one answered
  rw [← own] at inTime
  have space : room (otpArguments email flow window) (marks window) (attempt window) = true :=
    own ▸ open'
  have allowed := (keep.allowed ordered inTime).trans space
  intro other
  by_cases same : other = window
  · subst same
    rw [Function.update_self, readings_concat, ← own]
    exact (keep other).records ordered (Nat.ne_of_gt otpArguments_window_pos) inTime space unmarked
      allowed
  · rw [Function.update_of_ne same]
    exact (keep.elsewhere same).mono ordered.ended

end Keep

/-- A call that comes after these calls, in time. -/
structure Follows (email : String) (flow : OtpFlow) (earlier : List Attempt) (attempt : Attempt) :
    Prop where
  times : ∀ window, (attempt window).Ordered
  hourly : (attempt .cooldown).expires ≤ (attempt .hourly).now
  daily : (attempt .hourly).expires ≤ (attempt .daily).now
  fresh : ∀ one ∈ earlier, ∀ window, (one window).member ≠ (attempt window).member
  inTime : ∀ window,
    InTime (otpArguments email flow window) (readings earlier window) (attempt window)

section Next

variable (keep : Keep email flow redis (attempt .cooldown).now (readings attempts))
variable (follows : Follows email flow attempts attempt)

include keep follows

/-- The cooldown limiter answers whether the call keeps the cooldown. -/
theorem consult_cooldown : (consult redis email flow attempt .cooldown).2 =
    otpRoom email flow attempts attempt .cooldown :=
  keep.allowed (follows.times .cooldown) (follows.inTime .cooldown)

/-- When it does, the call is recorded before the hourly limiter is asked. -/
theorem keep_cooldown (open' : otpRoom email flow attempts attempt .cooldown = true) :
    Keep email flow (consult redis email flow attempt .cooldown).1 (attempt .hourly).now
      (Function.update (readings attempts) .cooldown
        (readings (attempts ++ [attempt]) .cooldown)) :=
  (keep.adds (follows.times .cooldown) rfl (follows.inTime .cooldown)
    (fun one answered => follows.fresh one answered .cooldown) open').mono follows.hourly

theorem consult_hourly (open' : otpRoom email flow attempts attempt .cooldown = true) :
    (consult (consult redis email flow attempt .cooldown).1 email flow attempt .hourly).2 =
      otpRoom email flow attempts attempt .hourly :=
  (keep_cooldown keep follows open').allowed (follows.times .hourly) (follows.inTime .hourly)

theorem keep_hourly (open' : otpRoom email flow attempts attempt .cooldown = true)
    (hourly : otpRoom email flow attempts attempt .hourly = true) :
    Keep email flow (consult (consult redis email flow attempt .cooldown).1 email flow attempt
        .hourly).1 (attempt .daily).now
      (Function.update (Function.update (readings attempts) .cooldown
        (readings (attempts ++ [attempt]) .cooldown)) .hourly
        (readings (attempts ++ [attempt]) .hourly)) :=
  ((keep_cooldown keep follows open').adds (follows.times .hourly) rfl (follows.inTime .hourly)
    (fun one answered => follows.fresh one answered .hourly) hourly).mono follows.daily

theorem consult_daily (open' : otpRoom email flow attempts attempt .cooldown = true)
    (hourly : otpRoom email flow attempts attempt .hourly = true) :
    (consult (consult (consult redis email flow attempt .cooldown).1 email flow attempt .hourly).1
      email flow attempt .daily).2 = otpRoom email flow attempts attempt .daily :=
  (keep_hourly keep follows open' hourly).allowed (follows.times .daily) (follows.inTime .daily)

/-- A call that comes in time is permitted when it finds room in all windows. -/
theorem otpRateLimit_allowed : (otpRateLimit redis email flow attempt).2 = true ↔
    ∀ window, otpRoom email flow attempts attempt window = true := by
  have cooldown := consult_cooldown keep follows
  constructor
  · intro permitted
    obtain ⟨first, second, third⟩ := otpRateLimit_passes permitted
    have open' := cooldown.symm.trans first
    have hourly := (consult_hourly keep follows open').symm.trans second
    have daily := (consult_daily keep follows open' hourly).symm.trans third
    intro window
    cases window with
    | cooldown => exact open'
    | hourly => exact hourly
    | daily => exact daily
  · intro open'
    have hourly := consult_hourly keep follows (open' .cooldown)
    have daily := consult_daily keep follows (open' .cooldown) (open' .hourly)
    simp [otpRateLimit, cooldown, hourly, daily, open']

/-- A call that does not keep the cooldown is rejected, and nothing is recorded. -/
theorem otpRateLimit_early (early : otpRoom email flow attempts attempt .cooldown = false) :
    Keep email flow (otpRateLimit redis email flow attempt).1 (attempt .cooldown).now
      (readings attempts) := by
  have rejected := (consult_cooldown keep follows).trans early
  have answer : otpRateLimit redis email flow attempt =
      ((consult redis email flow attempt .cooldown).1, false) := by
    simp [otpRateLimit, rejected]
  rw [answer]
  exact keep.rejects (follows.times .cooldown) (follows.inTime .cooldown) rejected

/-- Nothing that is inside a window has been removed. -/
theorem otpRateLimit_early_recorded
    (early : otpRoom email flow attempts attempt .cooldown = false) (window : Window)
    (passed : (attempt .cooldown).counts ≤ clock) :
    recorded (otpRateLimit redis email flow attempt).1 clock (otpArguments email flow window)
        (attempt window) =
      recorded redis clock (otpArguments email flow window) (attempt window) := by
  have rejected := (consult_cooldown keep follows).trans early
  have answer : (otpRateLimit redis email flow attempt).1 =
      (consult redis email flow attempt .cooldown).1 := by
    simp [otpRateLimit, rejected]
  rw [answer]
  by_cases own : window = .cooldown
  · subst own
    rw [consult, limiter_rejects rejected, recorded,
      content_prune ((follows.times .cooldown).counts.trans passed)]
    exact since_since le_rfl
  · rw [recorded, consult, content_congr (limiter_other (otpArguments_apart own)), recorded]

/-- A call that finds room in all windows is recorded in each. -/
theorem otpRateLimit_open
    (open' : ∀ window, otpRoom email flow attempts attempt window = true) :
    Keep email flow (otpRateLimit redis email flow attempt).1 (attempt .daily).expires
      (readings (attempts ++ [attempt])) := by
  have third := (keep_hourly keep follows (open' .cooldown) (open' .hourly)).adds
    (follows.times .daily) rfl (follows.inTime .daily)
    (fun one answered => follows.fresh one answered .daily) (open' .daily)
  have answer : otpRateLimit redis email flow attempt = ((consult (consult (consult redis email flow
      attempt .cooldown).1 email flow attempt .hourly).1 email flow attempt .daily).1, true) := by
    simp [otpRateLimit, consult_cooldown keep follows,
      consult_hourly keep follows (open' .cooldown),
      consult_daily keep follows (open' .cooldown) (open' .hourly), open']
  rw [answer]
  intro window
  cases window with
  | cooldown => exact third .cooldown
  | hourly => exact third .hourly
  | daily => exact third .daily

/-- A call that keeps the cooldown leaves a mark in its window, whatever the other limiters say. -/
theorem otpRateLimit_marks (open' : otpRoom email flow attempts attempt .cooldown = true) :
    recorded (otpRateLimit redis email flow attempt).1 (attempt .cooldown).expires
        (otpArguments email flow .cooldown) (attempt .cooldown) ≠
      recorded redis (attempt .cooldown).expires (otpArguments email flow .cooldown)
        (attempt .cooldown) := by
  have ordered := follows.times .cooldown
  have inTime := follows.inTime .cooldown
  have kept : (otpRateLimit redis email flow attempt).1 (otpArguments email flow .cooldown).key =
      (consult redis email flow attempt .cooldown).1 (otpArguments email flow .cooldown).key := by
    unfold otpRateLimit
    dsimp only
    split
    · rfl
    · split
      · exact limiter_other (otpArguments_apart (by decide))
      · split <;>
        exact (limiter_other (otpArguments_apart (by decide))).trans
          (limiter_other (otpArguments_apart (by decide)))
  have fresh : ∀ mark ∈ readings attempts .cooldown,
      mark.member ≠ (attempt .cooldown).member := by
    intro mark known
    obtain ⟨one, answered, rfl⟩ := List.mem_map.mp known
    exact follows.fresh one answered .cooldown
  have before : Found redis (attempt .cooldown).expires (otpArguments email flow .cooldown)
      (attempt .cooldown) (readings attempts .cooldown) :=
    (keep .cooldown).found (inTime.expires open')
  have after : Found (consult redis email flow attempt .cooldown).1 (attempt .cooldown).expires
      (otpArguments email flow .cooldown) (attempt .cooldown)
      (readings attempts .cooldown ++ [attempt .cooldown]) :=
    (keep .cooldown).found_records ordered (Nat.ne_of_gt otpArguments_window_pos) inTime open' fresh
      ((consult_cooldown keep follows).trans open')
  rw [recorded, content_congr kept, recorded, after, before, List.map_append, since_append]
  intro same
  have nothing := List.append_right_eq_self.mp same
  have inside : (attempt .cooldown).windowStart (otpArguments email flow .cooldown) <
      (attempt .cooldown).now :=
    sub_lt_self _ (Nat.cast_pos.mpr otpArguments_window_pos)
  simp [since, Reading.mark, inside] at nothing

end Next

theorem spaced_subset (attempts : List Attempt) : spaced email flow attempts ⊆ attempts := by
  induction attempts using List.reverseRecOn with
  | nil => exact List.Subset.refl []
  | append_singleton front attempt ih =>
    rw [spaced_concat]
    split
    · exact List.append_subset.mpr
        ⟨List.Subset.trans ih (List.subset_append_left _ _), List.subset_append_right _ _⟩
    · exact List.Subset.trans ih (List.subset_append_left _ _)

theorem mem_all (attempt : Attempt) (window : Window) : attempt window ∈ attempt.all := by
  cases window <;> simp [Attempt.all]

namespace Attempts

theorem initial {back : List Attempt} (sequence : Attempts (front ++ back)) : Attempts front := by
  obtain ⟨times, apart, unique⟩ := sequence
  rw [List.flatMap_append] at times apart unique
  rw [List.map_append] at unique
  exact ⟨fun reading known => times reading (List.mem_append_left _ known),
    (List.pairwise_append.mp apart).1, (List.nodup_append.mp unique).1⟩

theorem before (sequence : Attempts (front ++ [attempt])) :
    ∀ one ∈ front, ∀ window, (one window).expires ≤ (attempt .cooldown).now := by
  intro one answered window
  have apart := sequence.apart
  rw [List.flatMap_append] at apart
  exact (List.pairwise_append.mp apart).2.2 _
    (List.mem_flatMap.mpr ⟨one, answered, mem_all one window⟩) _
    (List.mem_flatMap.mpr ⟨attempt, List.mem_singleton_self attempt, mem_all attempt .cooldown⟩)

theorem times_last (sequence : Attempts (front ++ [attempt])) (window : Window) :
    (attempt window).Ordered :=
  sequence.times _ (List.mem_flatMap.mpr ⟨attempt, List.mem_concat_self, mem_all attempt window⟩)

theorem follows (sequence : Attempts (front ++ [attempt]))
    (inTime : ∀ window, InTime (otpArguments email flow window)
      (readings (spaced email flow front) window) (attempt window)) :
    Follows email flow (spaced email flow front) attempt := by
  have last := sequence.times_last
  obtain ⟨_, apart, unique⟩ := sequence
  rw [List.flatMap_append] at apart unique
  rw [List.map_append] at unique
  have own : attempt.all.Pairwise (·.expires ≤ ·.now) := by
    simpa using (List.pairwise_append.mp apart).2.1
  obtain ⟨⟨hourly, _⟩, daily, _⟩ :
      ((attempt .cooldown).expires ≤ (attempt .hourly).now ∧
        (attempt .cooldown).expires ≤ (attempt .daily).now) ∧
      (attempt .hourly).expires ≤ (attempt .daily).now ∧ True := by
    simpa [Attempt.all] using own
  refine ⟨last, hourly, daily, ?_, inTime⟩
  intro one known window
  exact (List.nodup_append.mp unique).2.2 _
    (List.mem_map_of_mem
      (List.mem_flatMap.mpr ⟨one, spaced_subset front known, mem_all one window⟩)) _
    (List.mem_map_of_mem
      (List.mem_flatMap.mpr ⟨attempt, List.mem_singleton_self attempt, mem_all attempt window⟩))

end Attempts

/-- As long as no window is full when the cooldown has passed, only permitted calls leave marks. -/
theorem rate_keeps (sequence : Attempts attempts) (prompt : NeverLate email flow attempts)
    (never : NeverFull email flow attempts) :
    (rate email flow attempts).permitted = spaced email flow attempts ∧
      ∀ clock, (∀ one ∈ attempts, ∀ window, (one window).expires ≤ clock) →
        Keep email flow (rate email flow attempts).redis clock
          (readings (spaced email flow attempts)) := by
  induction attempts using List.reverseRecOn with
  | nil =>
    refine ⟨rfl, ?_⟩
    intro clock _ window
    exact Holds.empty
  | append_singleton front attempt ih =>
    obtain ⟨earlier, now⟩ := forall_split_concat.mp never
    obtain ⟨before, inTime⟩ := forall_split_concat.mp prompt
    obtain ⟨permitted, keep⟩ := ih sequence.initial before earlier
    have kept := keep _ sequence.before
    have follows := sequence.follows inTime
    have own : attempt ∈ front ++ [attempt] := List.mem_concat_self
    rw [rate_concat, spaced_concat, Rated.call]
    dsimp only
    cases cooldown : otpRoom email flow (spaced email flow front) attempt .cooldown with
    | false =>
      have rejected : (otpRateLimit (rate email flow front).redis email flow attempt).2 =
          false := by
        apply Bool.eq_false_of_not_eq_true
        intro allowed
        cases cooldown.symm.trans ((otpRateLimit_allowed kept follows).mp allowed .cooldown)
      rw [rejected]
      refine ⟨permitted, fun clock past => (otpRateLimit_early kept follows cooldown).mono ?_⟩
      exact (sequence.times_last .cooldown).ended.trans (past attempt own .cooldown)
    | true =>
      rw [(otpRateLimit_allowed kept follows).mpr (now cooldown), permitted]
      exact ⟨rfl, fun clock past =>
        (otpRateLimit_open kept follows (now cooldown)).mono (past attempt own .daily)⟩

/-- Before the call, the windows hold what the calls so far that keep the cooldown have recorded. -/
theorem rate_keeps_before (sequence : Attempts (front ++ [attempt]))
    (prompt : NeverLate email flow front) (never : NeverFull email flow front) :
    (rate email flow front).permitted = spaced email flow front ∧
      Keep email flow (rate email flow front).redis (attempt .cooldown).now
        (readings (spaced email flow front)) :=
  ⟨(rate_keeps sequence.initial prompt never).1,
    (rate_keeps sequence.initial prompt never).2 _ sequence.before⟩

/-- Once the cooldown lets a call pass when another window is full, a rejected call has left its
mark. -/
theorem neverFull_of_consumesNoQuota (sequence : Attempts attempts)
    (prompt : NeverLate email flow attempts) (frugal : ConsumesNoQuota email flow attempts) :
    NeverFull email flow attempts := by
  induction attempts using List.reverseRecOn with
  | nil =>
    intro front attempt back split
    simp at split
  | append_singleton front attempt ih =>
    obtain ⟨earlierRejected, rejected⟩ := forall_split_concat.mp frugal.rejected
    obtain ⟨earlierPermitted, _⟩ := forall_split_concat.mp frugal.permitted
    obtain ⟨before, inTime⟩ := forall_split_concat.mp prompt
    have never := ih sequence.initial before ⟨earlierRejected, earlierPermitted⟩
    obtain ⟨_, keep⟩ := rate_keeps_before sequence before never
    have follows := sequence.follows inTime
    refine forall_split_concat.mpr ⟨never, ?_⟩
    intro cooldown window
    by_contra full
    have answer : (otpRateLimit (rate email flow front).redis email flow attempt).2 = false := by
      apply Bool.eq_false_of_not_eq_true
      intro allowed
      exact full ((otpRateLimit_allowed keep follows).mp allowed window)
    have ordered := sequence.times_last .cooldown
    exact otpRateLimit_marks keep follows cooldown
      (rejected answer .cooldown _ (ordered.adds.trans ordered.expires))

theorem consumesNoQuota_of_neverFull (sequence : Attempts attempts)
    (prompt : NeverLate email flow attempts) (never : NeverFull email flow attempts) :
    ConsumesNoQuota email flow attempts := by
  have known : ∀ front attempt back, attempts = front ++ attempt :: back →
      (rate email flow front).permitted = spaced email flow front ∧
      Keep email flow (rate email flow front).redis (attempt .cooldown).now
        (readings (spaced email flow front)) ∧
      Follows email flow (spaced email flow front) attempt := by
    intro front attempt back split
    have inTime := prompt front attempt back split
    rw [split, List.append_cons] at sequence
    have earlier : NeverFull email flow front := by
      intro start one rest part
      exact never start one (rest ++ attempt :: back) (by simp [split, part])
    have before : NeverLate email flow front := by
      intro start one rest part
      exact prompt start one (rest ++ attempt :: back) (by simp [split, part])
    obtain ⟨permitted, keep⟩ := rate_keeps_before sequence.initial before earlier
    exact ⟨permitted, keep, sequence.initial.follows inTime⟩
  refine ⟨?_, ?_⟩
  · intro front attempt back split rejected window clock passed
    obtain ⟨_, keep, follows⟩ := known front attempt back split
    cases cooldown : otpRoom email flow (spaced email flow front) attempt .cooldown with
    | true =>
      have open' := (otpRateLimit_allowed keep follows).mpr
        (never front attempt back split cooldown)
      cases rejected.symm.trans open'
    | false => exact otpRateLimit_early_recorded keep follows cooldown window passed
  · intro front attempt back split
    obtain ⟨permitted, keep, follows⟩ := known front attempt back split
    rw [permitted]
    exact otpRateLimit_allowed keep follows

theorem consumes_no_quota_iff (sequence : Attempts attempts)
    (prompt : NeverLate email flow attempts) :
    ConsumesNoQuota email flow attempts ↔ NeverFull email flow attempts :=
  ⟨neverFull_of_consumesNoQuota sequence prompt, consumesNoQuota_of_neverFull sequence prompt⟩

/-- Commands that take no time are never late. -/
theorem neverLate_of_swift (sequence : Attempts attempts)
    (swift : ∀ reading ∈ attempts.flatMap Attempt.all, reading.expires = reading.now) :
    NeverLate email flow attempts := by
  intro front attempt back split window
  have every : ∀ one ∈ attempts, one window ∈ attempts.flatMap Attempt.all :=
    fun one known => List.mem_flatMap.mpr ⟨one, known, mem_all one window⟩
  have own := every attempt (by simp [split])
  apply InTime.of_swift (sequence.times _ own) (swift _ own)
  intro mark known
  obtain ⟨one, earlier, rfl⟩ := List.mem_map.mp known
  have answered : one ∈ attempts := by
    rw [split]
    exact List.mem_append_left _ (spaced_subset front earlier)
  exact (sequence.times _ (every one answered)).ended

end Otp

/-- A limiter that is asked and answers at one time. -/
def readingAt (now : Seconds) (member : Uuid) : Reading := ⟨now, now, now, now, now, member⟩

/-- A call all of whose commands run at one time. -/
def attemptAt (now : Seconds) (index : Nat) : Attempt
  | .cooldown => readingAt now (3 * index)
  | .hourly => readingAt now (3 * index + 1)
  | .daily => readingAt now (3 * index + 2)

/-- A call every forty seconds. -/
def everyFortySeconds (calls : Nat) : List Attempt :=
  (List.range calls).map fun index => attemptAt ((40 * index : Nat) : Seconds) index

theorem consumes_no_quota_iff_five :
    ConsumesNoQuota "ann@example.com" .login (everyFortySeconds 5) ↔
    NeverFull "ann@example.com" .login (everyFortySeconds 5) := by
  have sequence : Attempts (everyFortySeconds 5) :=
    ⟨by decide +kernel, by decide +kernel, by decide +kernel⟩
  exact consumes_no_quota_iff sequence (neverLate_of_swift sequence (by decide +kernel))

/-- The hour is full at the sixth call, which is rejected but has the cooldown begin again. -/
theorem rejected_call_consumes_quota : Attempts (everyFortySeconds 6) ∧
    ¬ ConsumesNoQuota "ann@example.com" .login (everyFortySeconds 6) := by
  refine ⟨⟨by decide +kernel, by decide +kernel, by decide +kernel⟩, ?_⟩
  intro frugal
  have same := frugal.rejected (everyFortySeconds 5) (attemptAt 200 5) [] rfl (by decide +kernel)
    .cooldown 200 (by decide +kernel)
  exact absurd same (by decide +kernel)

end Relays.RateLimiting
