import Relays.Library.Composition
import Mathlib.Data.List.Nodup

/-! Linearizability. The clients of a concurrent system call operations of one object. Where each
call takes effect in one step between its invocation and its answer, the calls might as well have
been served one after the other. -/

namespace Transition

/-- An object that serves one operation at a time. -/
structure Object (Store Operation Answer : Type) where
  init : Store
  serves : Store → Operation → Answer → Store → Prop

/-- One operation, served to one client. -/
structure Entry (Client Operation Answer : Type) where
  client : Client
  operation : Operation
  answer : Answer

/-- What the clients of a system have called, and what they have been answered. -/
structure Interface (State Client Operation Answer : Type) where
  invoked : State → Client → Option Operation
  answered : State → Client → Option Answer

variable {State Event Store Client Operation Answer : Type}

/-- The object serves these operations in this order. -/
inductive Object.Serial (object : Object Store Operation Answer) :
    List (Entry Client Operation Answer) → Store → Prop where
  | start : Serial object [] object.init
  | serve (earlier : Serial object entries store)
      (served : object.serves store entry.operation entry.answer next) :
        Serial object (entries ++ [entry]) next

variable {system : System State Event} {interface : Interface State Client Operation Answer}
variable {object : Object Store Operation Answer} {events front back : List Event} {event : Event}
variable {state before after middle : State} {entries : List (Entry Client Operation Answer)}
    {client : Client}
variable {answer : Answer} {operation : Operation}

/-- A serial order of the calls of a run that no client can tell from the run. -/
structure Linearized (system : System State Event)
    (interface : Interface State Client Operation Answer)
    (object : Object Store Operation Answer) (events : List Event) (state : State)
    (entries : List (Entry Client Operation Answer)) : Prop where
  legal : ∃ store, object.Serial entries store
  /-- No call is served twice. -/
  once : (entries.map Entry.client).Nodup
  /-- Only what has been called is served. -/
  invoked : ∀ entry ∈ entries, interface.invoked state entry.client = some entry.operation
  /-- Every answer is that of the object. -/
  answered : ∀ client answer, interface.answered state client = some answer →
    ∃ entry ∈ entries, entry.client = client ∧ entry.answer = answer
  /-- A call that was answered before another was made is served before it. -/
  realTime : ∀ front back middle first second, events = front ++ back →
    Run system Any front middle →
    first ∈ entries → second ∈ entries → (interface.answered middle first.client).isSome = true →
    interface.invoked middle second.client = none →
    ∃ early late, entries = early ++ late ∧ first ∈ early ∧ second ∈ late

/-- Where each call takes effect, and what the object holds meanwhile. -/
structure Linearization (system : System State Event)
    (interface : Interface State Client Operation Answer)
    (object : Object Store Operation Answer) where
  view : State → Store
  point : State → Event → Option (Entry Client Operation Answer)
  /-- The call has not taken effect. -/
  pending : State → Client → Prop
  /-- The call has taken effect, with this answer. -/
  effect : State → Client → Option Answer
  initial : view system.init = object.init
  unserved : ∀ client, effect system.init client = none
  told : ∀ state client answer, interface.answered state client = some answer →
    effect state client = some answer
  called : ∀ before event after client operation, system.step before event = some after →
    interface.invoked before client = some operation →
      interface.invoked after client = some operation
  quiet : ∀ events before event after, Run system Any events before →
    system.step before event = some after →
    point before event = none → view after = view before
  serves : ∀ events before event after entry, Run system Any events before →
    system.step before event = some after →
    point before event = some entry →
      object.serves (view before) entry.operation entry.answer (view after) ∧
      interface.invoked before entry.client = some entry.operation ∧ pending before entry.client ∧
      ¬ pending after entry.client
  spent : ∀ before event after client, system.step before event = some after →
    pending after client →
    pending before client
  effective : ∀ events before event after client answer, Run system Any events before →
    system.step before event = some after → effect after client = some answer →
    effect before client = some answer ∨
      ∃ entry, point before event = some entry ∧ entry.client = client ∧ entry.answer = answer

namespace Linearization

variable (method : Linearization system interface object)

/-- The calls of a run in the order in which they take effect. -/
def order (events : List Event) : List (Entry Client Operation Answer) :=
  system.points method.point system.init events

theorem order_concat (run : Run system Any events before)
    (taken : system.step before event = some after) :
    method.order (events ++ [event]) = method.order events ++ (method.point before event).toList :=
  System.points_concat run.execute taken

/-- The order of a run begins with that of every prefix. -/
theorem order_grows (run : Run system Any events state) (split : events = front ++ back) :
    method.order front <+: method.order events := by
  induction run generalizing back with
  | start =>
    obtain ⟨rfl, _⟩ := List.append_eq_nil_iff.mp split.symm
    exact List.prefix_rfl
  | @step events before event after earlier permitted taken ih =>
    rcases List.eq_nil_or_concat back with rfl | ⟨rest, last, rfl⟩
    · have same : front = events ++ [event] := by simpa using split.symm
      exact same ▸ List.prefix_rfl
    · rw [List.concat_eq_append, ← List.append_assoc] at split
      obtain ⟨shorter, _⟩ := List.append_inj' split rfl
      rw [method.order_concat earlier taken]
      exact (ih shorter).trans (List.prefix_append _ _)

/-- What the calls served so far have in common with the state. -/
structure Held (state : State) (entries : List (Entry Client Operation Answer)) : Prop where
  serial : object.Serial entries (method.view state)
  once : (entries.map Entry.client).Nodup
  spent : ∀ entry ∈ entries, ¬ method.pending state entry.client
  invoked : ∀ entry ∈ entries, interface.invoked state entry.client = some entry.operation
  effective : ∀ client answer, method.effect state client = some answer →
    ∃ entry ∈ entries, entry.client = client ∧ entry.answer = answer

variable {method}

theorem Held.step (held : method.Held before entries) (run : Run system Any events before)
    (taken : system.step before event = some after) :
    method.Held after (entries ++ (method.point before event).toList) := by
  cases pointed : method.point before event with
  | none =>
    rw [Option.toList_none, List.append_nil]
    refine ⟨?_, held.once, ?_, ?_, ?_⟩
    · rw [method.quiet events before event after run taken pointed]
      exact held.serial
    · intro entry member pending
      exact held.spent entry member (method.spent before event after entry.client taken pending)
    · intro entry member
      exact method.called before event after _ _ taken (held.invoked entry member)
    · intro client answer served
      rcases method.effective events before event after client answer run taken served with earlier
        | ⟨_, now, _⟩
      · exact held.effective client answer earlier
      · rw [pointed] at now
        cases now
  | some entry =>
    obtain ⟨served, invoked, open', closed⟩ :=
      method.serves events before event after entry run taken pointed
    rw [Option.toList_some]
    refine ⟨.serve held.serial served, ?_, ?_, ?_, ?_⟩
    · rw [List.map_append, List.map_singleton, List.nodup_append]
      refine ⟨held.once, by simp, ?_⟩
      intro client earlier other now same
      obtain ⟨old, member, rfl⟩ := List.mem_map.mp earlier
      rw [List.mem_singleton.mp now] at same
      exact held.spent old member (same ▸ open')
    · intro other member pending
      rcases List.mem_append.mp member with earlier | now
      · exact held.spent other earlier (method.spent before event after other.client taken pending)
      · rw [List.mem_singleton.mp now] at pending
        exact closed pending
    · intro other member
      apply method.called before event after _ _ taken
      rcases List.mem_append.mp member with earlier | now
      · exact held.invoked other earlier
      · rw [List.mem_singleton.mp now]
        exact invoked
    · intro client answer served
      rcases method.effective events before event after client answer run taken served with earlier
        | ⟨next, now, rest⟩
      · obtain ⟨old, member, rest⟩ := held.effective client answer earlier
        exact ⟨old, List.mem_append_left _ member, rest⟩
      · obtain rfl := Option.some.inj (pointed.symm.trans now)
        exact ⟨entry, by simp, rest⟩

variable (method)

theorem held (run : Run system Any events state) : method.Held state (method.order events) := by
  induction run with
  | start =>
    refine ⟨?_, List.nodup_nil, ?_, ?_, ?_⟩
    · rw [method.initial]
      exact .start
    · exact fun entry member => absurd member List.not_mem_nil
    · exact fun entry member => absurd member List.not_mem_nil
    · intro client answer served
      rw [method.unserved] at served
      cases served
  | step earlier permitted taken ih =>
    rw [method.order_concat earlier taken]
    exact ih.step earlier taken

/-- Every run is linearized by the order in which its calls take effect. -/
theorem linearized (run : Run system Any events state) :
    Linearized system interface object events state (method.order events) := by
  have held := method.held run
  refine ⟨⟨_, held.serial⟩, held.once, held.invoked, ?_, ?_⟩
  · exact fun client answer answered =>
      held.effective client answer (method.told state client answer answered)
  · intro front back middle first second split reached one two answered absent
    obtain ⟨late, whole⟩ := method.order_grows run split
    have earlier := method.held reached
    refine ⟨method.order front, late, whole.symm, ?_, ?_⟩
    · obtain ⟨answer, told⟩ := Option.isSome_iff_exists.mp answered
      obtain ⟨entry, member, same, _⟩ :=
        earlier.effective _ answer (method.told middle _ answer told)
      have listed : entry ∈ method.order events := whole ▸ List.mem_append_left _ member
      rw [← List.inj_on_of_nodup_map held.once listed one same]
      exact member
    · rw [← whole] at two
      rcases List.mem_append.mp two with before | after
      · have called := earlier.invoked second before
        rw [absent] at called
        cases called
      · exact after

end Linearization

end Transition
