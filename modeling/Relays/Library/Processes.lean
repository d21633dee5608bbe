import Mathlib.Data.List.Perm.Basic

/-! A list of processes, one of which takes a step or joins at the end. -/

namespace Processes

variable {α : Type} {processes : List α} {index other : Nat} {old new found : α}

/-- After a step of one process, a process is that one or untouched. -/
theorem set_cases (present : (processes.set index new)[other]? = some found) :
    (other = index ∧ found = new) ∨ (other ≠ index ∧ processes[other]? = some found) := by
  by_cases same : index = other
  · subst same
    rw [List.getElem?_set_self'] at present
    cases entry : processes[index]? with
    | none => simp [entry] at present
    | some earlier =>
      simp only [entry, Option.map_eq_map, Option.map_some, Function.const_apply, Option.some.injEq]
        at present
      exact .inl ⟨rfl, present.symm⟩
  · rw [List.getElem?_set_ne same] at present
    exact .inr ⟨Ne.symm same, present⟩

theorem set_self (present : processes[index]? = some old) : (processes.set index new)[index]? =
    some new :=
  List.getElem?_set_self (List.getElem?_eq_some_iff.mp present).1

theorem set_other (different : other ≠ index) : (processes.set index new)[other]? =
    processes[other]? :=
  List.getElem?_set_ne (Ne.symm different)

/-- A process of a longer list is an earlier one or the one that joined. -/
theorem append_cases (present : (processes ++ [new])[other]? = some found) :
    (other = processes.length ∧ found = new) ∨ processes[other]? = some found := by
  rcases Nat.lt_trichotomy other processes.length with before | last | beyond
  · rw [List.getElem?_append_left before] at present
    exact .inr present
  · subst last
    rw [List.getElem?_concat_length] at present
    exact .inl ⟨rfl, (Option.some.inj present).symm⟩
  · rw [List.getElem?_eq_none (by simp; omega)] at present
    cases present

theorem append_earlier (present : processes[other]? = some found) :
    (processes ++ [new])[other]? = some found := by
  rw [List.getElem?_append_left (List.getElem?_eq_some_iff.mp present).1]
  exact present

/-- A process that joins with nothing to read reads as one that has not joined. -/
theorem elim_concat {β : Type} {empty : β} {read : α → β} (silent : read new = empty) :
    ((processes ++ [new])[index]?).elim empty read = (processes[index]?).elim empty read := by
  rcases Nat.lt_trichotomy index processes.length with before | rfl | beyond
  · rw [List.getElem?_append_left before]
  · simp [silent]
  · rw [List.getElem?_eq_none (by simp; omega), List.getElem?_eq_none (by omega)]

/-- A step of one activity of a process, told of the process. -/
theorem mapped_eq_some {World Phase Process : Type} {taken : Option (World × Phase)}
    {wrap : Phase → Process}
    {next : World} {after : Process} :
    taken.map (Prod.map id wrap) = some (next, after) ↔ ∃ phase, taken = some (next, phase) ∧
      after = wrap phase := by
  rw [Option.map_eq_some_iff]
  constructor
  · rintro ⟨⟨world, phase⟩, done, same⟩
    obtain ⟨rfl, rfl⟩ := Prod.mk.inj same
    exact ⟨phase, done, rfl⟩
  · rintro ⟨phase, done, rfl⟩
    exact ⟨(next, phase), done, rfl⟩

/-- A test of all processes, when one has changed in nothing that is tested. -/
theorem all_set {test : α → Bool} (present : processes[index]? = some old)
    (same : test new = test old) : (processes.set index new).all test = processes.all test := by
  induction processes generalizing index with
  | nil => simp at present
  | cons first rest ih =>
    cases index with
    | zero =>
      obtain rfl : first = old := by simpa using present
      simp [same]
    | succ index =>
      have entry : rest[index]? = some old := by simpa using present
      simp [ih entry]

section Totals

variable {weight : α → Nat}

/-- A quantity summed over the processes. -/
def total (weight : α → Nat) : List α → Nat
  | [] => 0
  | process :: rest => weight process + total weight rest

theorem total_concat (weight : α → Nat) (processes : List α) (new : α) :
    total weight (processes ++ [new]) = total weight processes + weight new := by
  induction processes with
  | nil => simp [total]
  | cons first rest ih =>
    rw [List.cons_append, total, total, ih]
    omega

theorem total_eq_zero (nothing : ∀ process ∈ processes, weight process = 0) :
    total weight processes = 0 := by
  induction processes with
  | nil => rfl
  | cons first rest ih =>
    rw [total, nothing first (by simp), ih fun process member => nothing process (by simp [member])]

/-- The sum after one of the processes has changed. -/
theorem total_set (weight : α → Nat) (new : α) (present : processes[index]? = some old) :
    total weight (processes.set index new) + weight old = total weight processes + weight new := by
  induction processes generalizing index with
  | nil => simp at present
  | cons first rest ih =>
    cases index with
    | zero =>
      obtain rfl : first = old := by simpa using present
      simp only [List.set_cons_zero, total]
      omega
    | succ index =>
      have entry : rest[index]? = some old := by simpa using present
      have later := ih entry
      simp only [List.set_cons_succ, total]
      omega

theorem countP_eq_total (counted : α → Bool) (processes : List α) :
    processes.countP counted =
      total (fun process => if counted process then 1 else 0) processes := by
  induction processes with
  | nil => rfl
  | cons first rest ih =>
    rw [List.countP_cons, ih, total]
    omega

/-- The count of a list after one of its processes has changed. -/
theorem countP_set (counted : α → Bool) (new : α) (present : processes[index]? = some old) :
    (processes.set index new).countP counted + (if counted old then 1 else 0) =
      processes.countP counted + (if counted new then 1 else 0) := by
  rw [countP_eq_total, countP_eq_total]
  exact total_set _ new present

/-- The count of a list after one of its entries has been taken out. -/
theorem countP_eraseIdx (counted : α → Bool) (present : processes[index]? = some found) :
    (processes.eraseIdx index).countP counted + (if counted found then 1 else 0) =
      processes.countP counted := by
  obtain ⟨bound, rfl⟩ := List.getElem?_eq_some_iff.mp present
  rw [← (List.getElem_cons_eraseIdx_perm bound).countP_eq counted, List.countP_cons]

end Totals

section Counts

variable {β : Type} {entries : List α} {counted : α → Bool} {label : α → β} {first second : α}

theorem two_le_countP (left : first ∈ entries) (right : second ∈ entries)
    (different : first ≠ second)
    (one : counted first = true) (two : counted second = true) : 2 ≤ entries.countP counted := by
  have inFirst : first ∈ entries.filter counted := List.mem_filter.mpr ⟨left, one⟩
  have inSecond : second ∈ entries.filter counted := List.mem_filter.mpr ⟨right, two⟩
  rw [List.countP_eq_length_filter]
  cases kept : entries.filter counted with
  | nil => simp [kept] at inFirst
  | cons head tail =>
    cases tail with
    | nil =>
      rw [kept, List.mem_singleton] at inFirst inSecond
      exact absurd (inFirst.trans inSecond.symm) different
    | cons next rest => simp

/-- Two counted entries of a log without repeated labels have different labels. -/
theorem pair_of_two_le_countP (distinct : (entries.map label).Nodup)
    (two : 2 ≤ entries.countP counted) :
    ∃ first ∈ entries, ∃ second ∈ entries, counted first = true ∧ counted second = true ∧
      label first ≠ label second := by
  rw [List.countP_eq_length_filter] at two
  have apart : ((entries.filter counted).map label).Nodup :=
    distinct.sublist (List.filter_sublist.map label)
  cases kept : entries.filter counted with
  | nil => simp [kept] at two
  | cons head tail =>
    cases tail with
    | nil => simp [kept] at two
    | cons next rest =>
      have inFirst : head ∈ entries.filter counted := by simp [kept]
      have inSecond : next ∈ entries.filter counted := by simp [kept]
      obtain ⟨left, one⟩ := List.mem_filter.mp inFirst
      obtain ⟨right, also⟩ := List.mem_filter.mp inSecond
      refine ⟨head, left, next, right, one, also, ?_⟩
      rw [kept] at apart
      simp only [List.map_cons, List.nodup_cons, List.mem_cons, not_or] at apart
      exact apart.1.1

end Counts

end Processes
