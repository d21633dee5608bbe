import Mathlib.Data.Fintype.EquivFin
import Mathlib.Data.List.Nodup

/-! Tables as lists of rows in storage order, with columns whose values are not repeated. -/

namespace Keyed

variable {Row Key : Type} [DecidableEq Key]

/-- `SELECT … WHERE column = value`: the first row with that value. -/
def get (column : Row → Key) (rows : List Row) (value : Key) : Option Row :=
  rows.find? fun row => column row = value

variable {column : Row → Key} {rows : List Row} {row : Row} {value : Key} {change : Row → Row}

theorem get_eq_some (distinct : (rows.map column).Nodup) :
    get column rows value = some row ↔ row ∈ rows ∧ column row = value := by
  constructor
  · intro found
    exact ⟨List.mem_of_find?_eq_some found, by simpa using List.find?_some found⟩
  · rintro ⟨member, rfl⟩
    cases found : get column rows (column row) with
    | none => exact absurd (List.find?_eq_none.mp found row member) (by simp)
    | some other =>
      have same : column other = column row := by simpa using List.find?_some found
      rw [List.inj_on_of_nodup_map distinct (List.mem_of_find?_eq_some found) member same]

theorem get_eq_none : get column rows value = none ↔ value ∉ rows.map column := by
  unfold get
  rw [List.find?_eq_none]
  simp [List.mem_map]

/-- A selection answers as the whole table does, for the rows that it keeps. -/
theorem get_filter (distinct : (rows.map column).Nodup) (kept : Row → Bool) :
    get column (rows.filter kept) value = (get column rows value).filter kept := by
  have apart : ((rows.filter kept).map column).Nodup :=
    distinct.sublist (List.filter_sublist.map column)
  ext row
  rw [get_eq_some apart, Option.filter_eq_some_iff, get_eq_some distinct, List.mem_filter]
  constructor
  · rintro ⟨⟨member, chosen⟩, same⟩
    exact ⟨⟨member, same⟩, chosen⟩
  · rintro ⟨⟨member, same⟩, chosen⟩
    exact ⟨⟨member, chosen⟩, same⟩

/-- Rows change in other columns. -/
theorem get_map (keeps : ∀ row, column (change row) = column row) :
    get column (rows.map change) value = (get column rows value).map change := by
  unfold get
  rw [List.find?_map]
  congr 2
  funext row
  simp [keeps]

omit [DecidableEq Key] in
theorem map_column (keeps : ∀ row, column (change row) = column row) :
    (rows.map change).map column = rows.map column := by
  rw [List.map_map]
  exact List.map_congr_left fun row _ => keeps row

omit [DecidableEq Key] in
/-- A selection of rows that do not change. -/
theorem filter_map {chosen : Row → Bool} (same : ∀ row, chosen (change row) = chosen row)
    (kept : ∀ row ∈ rows, chosen row = true → change row = row) : (rows.map change).filter chosen =
      rows.filter chosen := by
  rw [List.filter_map, show chosen ∘ change = chosen from funext same]
  conv_rhs => rw [← List.map_id (rows.filter chosen)]
  apply List.map_congr_left
  intro row listed
  obtain ⟨member, picked⟩ := List.mem_filter.mp listed
  exact kept row member picked

theorem get_concat : get column (rows ++ [row]) value =
    (get column rows value).or (if column row = value then some row else none) := by
  unfold get
  rw [List.find?_append, List.find?_singleton]
  simp

omit [DecidableEq Key] in
theorem nodup_concat (distinct : (rows.map column).Nodup) (fresh : column row ∉ rows.map column) :
    ((rows ++ [row]).map column).Nodup := by
  rw [List.map_append, List.map_singleton, ← List.concat_eq_append]
  exact distinct.concat fresh

theorem exists_fresh [Infinite Key] (values : List Key) : ∃ value, value ∉ values := by
  obtain ⟨value, fresh⟩ := Infinite.exists_notMem_finset values.toFinset
  exact ⟨value, by simpa using fresh⟩

end Keyed
