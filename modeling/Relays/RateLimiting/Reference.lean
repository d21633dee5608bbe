import Mathlib.Data.List.Induction
import Relays.RateLimiting.Sequential

/-! The limiter against its reference, which looks at the whole history of answers: a call is let
through when fewer than `limit` calls of its key have been inside the window. -/

namespace Relays.RateLimiting

open Redis Transition

structure Request where
  arguments : Arguments
  reading : Reading

structure Served where
  redis : Database
  answers : List (Request × Bool)

def Served.call (served : Served) (request : Request) : Served :=
  let (redis, allowed) := slidingWindowLimiter served.redis request.reading request.arguments
  ⟨redis, served.answers ++ [(request, allowed)]⟩

/-- One call after the other. -/
def serve (requests : List Request) : Served := requests.foldl Served.call ⟨fun _ => none, []⟩

def Request.within (request earlier : Request) : Bool :=
  request.reading.windowStart request.arguments < earlier.reading.now &&
    earlier.reading.now ≤ request.reading.now

/-- The calls of the key that have returned `True` inside the window. -/
def permitted (answers : List (Request × Bool)) (request : Request) : Nat :=
  answers.countP fun (earlier, allowed) =>
    allowed && earlier.arguments.key = request.arguments.key && request.within earlier

def answer (answers : List (Request × Bool)) (request : Request) : List (Request × Bool) :=
  answers ++ [(request, decide (permitted answers request < request.arguments.limit))]

def reference (requests : List Request) : List (Request × Bool) := requests.foldl answer []

/-- The calls of a key that have been recorded. -/
def marks (key : String) (answers : List (Request × Bool)) : List Reading :=
  (answers.filter fun (earlier, allowed) => allowed && earlier.arguments.key = key).map
    fun (earlier, _) => earlier.reading

/-- The calls come one after the other, at times from the start of the clock on. -/
structure Timed (requests : List Request) : Prop where
  times : ∀ request ∈ requests, request.reading.Ordered
  apart : requests.Pairwise (·.reading.expires ≤ ·.reading.now)
  started : ∀ request ∈ requests, 0 ≤ request.reading.now

/-- The arguments of a key are fixed, and members are unique. -/
structure Sequence (requests : List Request) : Prop extends Timed requests where
  fixed : ∀ one ∈ requests, ∀ two ∈ requests,
    one.arguments.key = two.arguments.key → one.arguments = two.arguments
  positive : ∀ request ∈ requests, request.arguments.windowSeconds ≠ 0
  unique : (requests.map fun request => request.reading.member).Nodup

/-- The calls of a key, with their answers. -/
def ofKey (key : String) (answers : List (Request × Bool)) : List (Request × Bool) :=
  answers.filter (·.1.arguments.key = key)

/-- The limiter answers as its reference; calls on other keys never matter; and no key that expires
takes an entry with it that is inside the window of a call, when it counts or when it ends. -/
structure MatchesReference (requests : List Request) : Prop where
  answers : (serve requests).answers = reference requests
  keys : ∀ key, ofKey key (serve requests).answers =
    (serve (requests.filter (·.arguments.key = key))).answers
  kept : ∀ front request back, requests = front ++ request :: back →
    Found (serve front).redis request.reading.counts request.arguments request.reading
        (marks request.arguments.key (reference front)) ∧
      Found (serve (front ++ [request])).redis
        (request.reading.ends (decide (permitted (reference front) request <
          request.arguments.limit)))
        request.arguments request.reading
        (marks request.arguments.key (reference (front ++ [request])))

/-- As long as a call that the reference has let through is inside the window of the next call of
the key, that call ends at most a window after the last `EXPIRE` of the key. -/
def Prompt (requests : List Request) : Prop :=
  ∀ front request back, requests = front ++ request :: back →
    InTime request.arguments (marks request.arguments.key (reference front)) request.reading

section Reference

variable {requests front back : List Request} {request earlier : Request}
variable {answers : List (Request × Bool)} {key : String} {allowed : Bool}

theorem Served.call_eq (served : Served) (request : Request) : served.call request =
    ⟨(slidingWindowLimiter served.redis request.reading request.arguments).1, served.answers ++
      [(request, (slidingWindowLimiter served.redis request.reading request.arguments).2)]⟩ := rfl

theorem serve_concat (requests : List Request) (request : Request) :
    serve (requests ++ [request]) = (serve requests).call request := by
  simp [serve]

theorem reference_concat (requests : List Request) (request : Request) :
    reference (requests ++ [request]) = answer (reference requests) request := by
  simp [reference]

theorem reference_requests (requests : List Request) :
    (reference requests).map Prod.fst = requests := by
  induction requests using List.reverseRecOn with
  | nil => rfl
  | append_singleton requests request ih =>
    rw [reference_concat, answer, List.map_append, ih]
    rfl

theorem marks_concat : marks key (answers ++ [(request, allowed)]) = marks key answers ++
    if allowed && request.arguments.key = key then [request.reading] else [] := by
  rw [marks, List.filter_append, List.map_append, marks]
  congr 1
  by_cases own : request.arguments.key = key <;> cases allowed <;> simp [own]

/-- The reference counts the recorded calls of the key that are inside the window. -/
theorem permitted_eq
    (past : ∀ mark ∈ marks request.arguments.key answers, mark.now ≤ request.reading.now) :
    decide (permitted answers request < request.arguments.limit) =
      room request.arguments (marks request.arguments.key answers) request.reading := by
  have counted : permitted answers request = (marks request.arguments.key answers).countP
      (request.reading.windowStart request.arguments < ·.now) := by
    rw [marks, List.countP_map, List.countP_filter]
    apply List.countP_congr
    rintro ⟨earlier, allowed⟩ member
    by_cases counts : (allowed && decide (earlier.arguments.key = request.arguments.key)) = true
    · have before : earlier.reading.now ≤ request.reading.now :=
        past earlier.reading (List.mem_map.mpr ⟨_, List.mem_filter.mpr ⟨member, counts⟩, rfl⟩)
      simp [Request.within, before, and_comm, and_assoc]
    · simp [counts]
  rw [counted, room]

/-- What a key has recorded comes from its calls. -/
theorem mem_marks {mark : Reading} (known : mark ∈ marks key (reference requests)) :
    ∃ request ∈ requests, request.reading = mark := by
  obtain ⟨⟨earlier, allowed⟩, counted, rfl⟩ := List.mem_map.mp known
  have answered := List.mem_map_of_mem (f := Prod.fst) (List.mem_of_mem_filter counted)
  rw [reference_requests] at answered
  exact ⟨earlier, answered, rfl⟩

namespace Sequence

theorem initial (sequence : Sequence (front ++ back)) : Sequence front := by
  refine ⟨⟨?_, (List.pairwise_append.mp sequence.apart).1, ?_⟩, ?_, ?_, ?_⟩
  · intro one first
    exact sequence.times one (List.mem_append_left back first)
  · intro one first
    exact sequence.started one (List.mem_append_left back first)
  · intro one first two second
    exact sequence.fixed one (List.mem_append_left back first) two
      (List.mem_append_left back second)
  · intro one first
    exact sequence.positive one (List.mem_append_left back first)
  · have unique := sequence.unique
    rw [List.map_append] at unique
    exact (List.nodup_append.mp unique).1

theorem before (sequence : Sequence (front ++ [request])) (answered : earlier ∈ front) :
    earlier.reading.expires ≤ request.reading.now :=
  (List.pairwise_append.mp sequence.apart).2.2 earlier answered request
    (List.mem_singleton_self request)

theorem fresh (sequence : Sequence (front ++ [request])) (answered : earlier ∈ front) :
    earlier.reading.member ≠ request.reading.member := by
  have unique := sequence.unique
  rw [List.map_append] at unique
  exact (List.nodup_append.mp unique).2.2 _ (List.mem_map_of_mem answered) _
    (List.mem_singleton_self _)

theorem last (sequence : Sequence (front ++ [request])) : request.reading.Ordered :=
  sequence.times request List.mem_concat_self

/-- The reference lets the next call through when its marks leave room. -/
theorem decides (sequence : Sequence (front ++ [request])) :
    decide (permitted (reference front) request < request.arguments.limit) =
      room request.arguments (marks request.arguments.key (reference front)) request.reading := by
  apply permitted_eq
  intro mark known
  obtain ⟨one, answered, rfl⟩ := mem_marks known
  have ended := (sequence.times one (List.mem_append_left _ answered)).ended
  exact ended.trans (sequence.before answered)

theorem unmarked (sequence : Sequence (front ++ [request])) :
    ∀ mark ∈ marks request.arguments.key (reference front),
      mark.member ≠ request.reading.member := by
  intro mark known
  obtain ⟨one, answered, rfl⟩ := mem_marks known
  exact sequence.fresh answered

theorem marks_answer (sequence : Sequence (front ++ [request])) :
    marks request.arguments.key (reference (front ++ [request])) =
      if room request.arguments (marks request.arguments.key (reference front)) request.reading
      then marks request.arguments.key (reference front) ++ [request.reading]
      else marks request.arguments.key (reference front) := by
  rw [reference_concat, answer, marks_concat, sequence.decides]
  cases room request.arguments (marks request.arguments.key (reference front)) request.reading <;>
    simp

end Sequence

/-- The limiter has answered as the reference, and stores what the reference counts. -/
structure Served.Agrees (served : Served) (requests : List Request) : Prop where
  answers : served.answers = reference requests
  holds : ∀ arguments now, (∀ request ∈ requests, request.reading.expires ≤ now) →
    (∀ request ∈ requests, request.arguments.key = arguments.key → request.arguments = arguments) →
    Holds served.redis arguments now (marks arguments.key (reference requests))

namespace Served.Agrees

variable {served : Served}

/-- What the key of the next call stores. -/
theorem own (agrees : served.Agrees front) (sequence : Sequence (front ++ [request])) :
    Holds served.redis request.arguments request.reading.now
      (marks request.arguments.key (reference front)) := by
  apply agrees.holds
  · intro earlier answered
    exact sequence.before answered
  · intro earlier answered
    exact sequence.fixed earlier (List.mem_append_left _ answered) request List.mem_concat_self

/-- The next call, in time. -/
theorem call (agrees : served.Agrees front) (sequence : Sequence (front ++ [request]))
    (inTime : InTime request.arguments (marks request.arguments.key (reference front))
      request.reading) : (served.call request).Agrees (front ++ [request]) := by
  have own := agrees.own sequence
  have ordered := sequence.last
  have positive := sequence.positive request List.mem_concat_self
  have allowed : (slidingWindowLimiter served.redis request.reading request.arguments).2 =
      decide (permitted (reference front) request < request.arguments.limit) := by
    rw [(own.counted ordered inTime).allowed ordered, sequence.decides]
  refine ⟨?_, ?_⟩
  · rw [Served.call_eq, agrees.answers, allowed, reference_concat, answer]
  · intro arguments now past fixed
    have passed : request.reading.expires ≤ now := past request List.mem_concat_self
    by_cases key : request.arguments.key = arguments.key
    · obtain rfl : request.arguments = arguments := fixed request List.mem_concat_self key
      rw [Served.call_eq, sequence.marks_answer]
      rw [sequence.decides] at allowed
      cases space : room request.arguments (marks request.arguments.key (reference front))
          request.reading with
      | false =>
        rw [if_neg Bool.false_ne_true]
        exact (own.rejects ordered inTime (allowed.trans space)).mono (ordered.ended.trans passed)
      | true =>
        rw [if_pos rfl]
        exact (own.records ordered positive inTime space sequence.unmarked
          (allowed.trans space)).mono passed
    · have earlier : Holds served.redis arguments now (marks arguments.key (reference front)) := by
        apply agrees.holds
        · intro one answered
          exact past one (List.mem_append_left _ answered)
        · intro one answered
          exact fixed one (List.mem_append_left _ answered)
      rw [reference_concat, answer, marks_concat, decide_eq_false key, Bool.and_false,
        if_neg Bool.false_ne_true, List.append_nil]
      exact earlier.congr (limiter_other (Ne.symm key))

/-- What the next call finds, in time. -/
theorem found (agrees : served.Agrees front) (sequence : Sequence (front ++ [request]))
    (inTime : InTime request.arguments (marks request.arguments.key (reference front))
      request.reading) :
    Found served.redis request.reading.counts request.arguments request.reading
        (marks request.arguments.key (reference front)) ∧
      Found (served.call request).redis
        (request.reading.ends (decide (permitted (reference front) request <
          request.arguments.limit)))
        request.arguments request.reading
        (marks request.arguments.key (reference (front ++ [request]))) := by
  have own := agrees.own sequence
  have ordered := sequence.last
  have counted := own.counted ordered inTime
  refine ⟨counted, ?_⟩
  rw [Served.call_eq, sequence.decides, sequence.marks_answer]
  cases space : room request.arguments (marks request.arguments.key (reference front))
      request.reading with
  | false =>
    rw [if_neg Bool.false_ne_true, Reading.ends, if_neg Bool.false_ne_true, Found,
      limiter_rejects ((counted.allowed ordered).trans space), content_prune ordered.counts]
    exact (since_since le_rfl).trans counted
  | true =>
    rw [if_pos rfl]
    exact own.found_records ordered (sequence.positive request List.mem_concat_self) inTime space
      sequence.unmarked ((counted.allowed ordered).trans space)

end Served.Agrees

theorem Prompt.initial (prompt : Prompt (front ++ [request])) : Prompt front ∧
    InTime request.arguments (marks request.arguments.key (reference front)) request.reading :=
  forall_split_concat.mp prompt

/-- After every sequence of calls that come in time. -/
theorem serve_agrees (sequence : Sequence requests) (prompt : Prompt requests) :
    (serve requests).Agrees requests := by
  induction requests using List.reverseRecOn with
  | nil =>
    refine ⟨rfl, ?_⟩
    intro arguments now _ _
    exact Holds.empty
  | append_singleton front request ih =>
    obtain ⟨earlier, inTime⟩ := prompt.initial
    rw [serve_concat]
    exact (ih sequence.initial earlier).call sequence inTime

/-- Calls that find what they should have come in time. -/
theorem prompt_of_kept (sequence : Sequence requests)
    (kept : ∀ front request back, requests = front ++ request :: back →
      Found (serve front).redis request.reading.counts request.arguments request.reading
          (marks request.arguments.key (reference front)) ∧
        Found (serve (front ++ [request])).redis (request.reading.ends
            (decide (permitted (reference front) request < request.arguments.limit)))
          request.arguments request.reading
          (marks request.arguments.key (reference (front ++ [request])))) : Prompt requests := by
  induction requests using List.reverseRecOn with
  | nil =>
    intro front request back split
    simp at split
  | append_singleton front request ih =>
    obtain ⟨earlier, counted, ended⟩ := forall_split_concat.mp kept
    have prompt := ih sequence.initial earlier
    have agrees := serve_agrees sequence.initial prompt
    refine forall_split_concat.mpr ⟨prompt, ?_⟩
    apply (agrees.own sequence).inTime sequence.last
      (sequence.positive request List.mem_concat_self) counted
    intro space
    rw [sequence.decides, sequence.marks_answer, if_pos space, space, serve_concat,
      Reading.ends, if_pos rfl] at ended
    exact ended

/-- The calls of a key are answered as if there were no others. -/
theorem ofKey_serve (key : String) (requests : List Request) :
    ofKey key (serve requests).answers = (serve (requests.filter (·.arguments.key = key))).answers ∧
      (serve requests).redis key = (serve (requests.filter (·.arguments.key = key))).redis key := by
  induction requests using List.reverseRecOn with
  | nil => exact ⟨rfl, rfl⟩
  | append_singleton front request ih =>
    obtain ⟨answers, redis⟩ := ih
    rw [serve_concat, List.filter_append]
    by_cases own : request.arguments.key = key
    · subst own
      obtain ⟨allowed, stored⟩ := limiter_congr request.reading redis
      rw [List.filter_cons_of_pos (by simp), List.filter_nil, serve_concat, Served.call_eq,
        Served.call_eq]
      refine ⟨?_, stored⟩
      rw [← answers, allowed, ofKey, List.filter_append, ofKey]
      simp
    · rw [List.filter_cons_of_neg (by simpa using own), List.filter_nil, List.append_nil]
      refine ⟨?_, (limiter_other (Ne.symm own)).trans redis⟩
      rw [Served.call_eq, ← answers, ofKey, List.filter_append, ofKey]
      simp [own]

theorem matches_reference (sequence : Sequence requests) :
    MatchesReference requests ↔ Prompt requests := by
  constructor
  · intro agreed
    exact prompt_of_kept sequence agreed.kept
  · intro prompt
    refine ⟨(serve_agrees sequence prompt).answers, fun key => (ofKey_serve key requests).1, ?_⟩
    intro front request back split
    rw [split, List.append_cons] at sequence
    have earlier : Prompt front := by
      intro start one rest part
      exact prompt start one (rest ++ request :: back) (by simp [split, part])
    rw [serve_concat]
    exact (serve_agrees sequence.initial.initial earlier).found sequence.initial
      (prompt front request back split)

end Reference

end Relays.RateLimiting
