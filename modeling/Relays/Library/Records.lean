import Mathlib.Order.Lattice
import Mathlib.Data.List.Pairwise

/-! The records of a list: the entries that rank above a bound and above every entry before
them, as a scan with a running maximum picks them. -/

namespace Records

variable {α β : Type} [LinearOrder β] (rank : α → β)

def records : β → List α → List α
  | _, [] => []
  | bound, entry :: rest =>
    if rank entry ≤ bound then records bound rest else entry :: records (rank entry) rest

variable {rank} {bound : β} {entry : α} {front back entries : List α}

theorem records_sublist : (records rank bound entries).Sublist entries := by
  induction entries generalizing bound with
  | nil => exact .slnil
  | cons first rest ih =>
    rw [records]
    split
    · exact ih.cons first
    · exact ih.cons_cons first

theorem lt_of_mem_records (member : entry ∈ records rank bound entries) : bound < rank entry := by
  induction entries generalizing bound with
  | nil => cases member
  | cons first rest ih =>
    rw [records] at member
    split at member
    · exact ih member
    · rename_i above
      have higher : bound < rank first := not_le.mp above
      rcases List.mem_cons.mp member with rfl | later
      · exact higher
      · exact higher.trans (ih later)

/-- Records come in increasing rank. -/
theorem records_pairwise :
    (records rank bound entries).Pairwise (fun first second => rank first < rank second) := by
  induction entries generalizing bound with
  | nil => exact .nil
  | cons first rest ih =>
    rw [records]
    split
    · exact ih
    · apply List.pairwise_cons.mpr
      exact ⟨fun other member => lt_of_mem_records member, ih⟩

/-- An entry of a list without repetitions is a record if nothing before it reaches its rank. -/
theorem mem_records_iff (distinct : (front ++ entry :: back).Nodup) :
    entry ∈ records rank bound (front ++ entry :: back) ↔
      bound < rank entry ∧ ∀ earlier ∈ front, rank earlier < rank entry := by
  induction front generalizing bound with
  | nil =>
    have once : entry ∉ back := (List.nodup_cons.mp distinct).1
    rw [List.nil_append, records]
    split
    · rename_i below
      constructor
      · intro member
        exact absurd (records_sublist.subset member) once
      · rintro ⟨above, _⟩
        exact absurd above (not_lt.mpr below)
    · rename_i above
      simpa using above
  | cons first rest ih =>
    obtain ⟨absent, distinct⟩ := List.nodup_cons.mp distinct
    have apart : entry ≠ first := by
      rintro rfl
      exact absent (by simp)
    rw [List.cons_append, records]
    split
    · rename_i below
      rw [ih distinct]
      constructor
      · rintro ⟨above, higher⟩
        refine ⟨above, ?_⟩
        intro earlier member
        rcases List.mem_cons.mp member with rfl | later
        · exact below.trans_lt above
        · exact higher earlier later
      · rintro ⟨above, higher⟩
        exact ⟨above, fun earlier member => higher earlier (List.mem_cons_of_mem _ member)⟩
    · rename_i above
      rw [List.mem_cons, or_iff_right apart, ih distinct]
      constructor
      · rintro ⟨higher, others⟩
        refine ⟨(not_le.mp above).trans higher, ?_⟩
        intro earlier member
        rcases List.mem_cons.mp member with rfl | later
        · exact higher
        · exact others earlier later
      · rintro ⟨_, higher⟩
        exact ⟨higher first List.mem_cons_self,
          fun earlier member => higher earlier (List.mem_cons_of_mem _ member)⟩

end Records
