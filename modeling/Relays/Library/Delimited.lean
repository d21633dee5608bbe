import Mathlib.Data.List.Basic
import Mathlib.Data.List.Forall2

/-! Words that can be told apart from what follows them, and lists of such words between
separators. -/

namespace Delimited

variable {Symbol : Type} {ends : List Symbol → Prop}

/-- Where each of the two words is followed by an end, neither is read for the other. -/
def Delimits (ends : List Symbol → Prop) (first second : List Symbol) : Prop :=
  ∀ front back, ends front → ends back → first ++ front = second ++ back → first = second

variable {first second front back : List Symbol}

theorem Delimits.rest (delimits : Delimits ends first second) (here : ends front)
    (there : ends back)
    (same : first ++ front = second ++ back) : first = second ∧ front = back := by
  obtain rfl := delimits front back here there same
  exact ⟨rfl, List.append_cancel_left same⟩

/-- Words of letters from an alphabet that what follows does not begin with. -/
theorem delimits_of_alphabet {alphabet : Symbol → Bool}
    (one : ∀ letter ∈ first, alphabet letter = true)
    (two : ∀ letter ∈ second, alphabet letter = true)
    (excluded : ∀ rest, ends rest → ∀ letter ∈ rest.head?, alphabet letter = false) :
      Delimits ends first second := by
  have taken {word rest : List Symbol} (letters : ∀ letter ∈ word,
    alphabet letter = true) (after : ends rest) :
      (word ++ rest).takeWhile alphabet = word := by
    rw [List.takeWhile_append_of_pos letters]
    cases rest with
    | nil => simp
    | cons letter rest => simp [excluded _ after letter (by simp)]
  intro front back here there same
  rw [← taken one here, same, taken two there]

/-- The words with the separator between them. -/
def joined (separator : Symbol) : List (List Symbol) → List Symbol
  | [] => []
  | [word] => word
  | word :: next :: rest => word ++ separator :: joined separator (next :: rest)

variable {separator close : Symbol} {words others : List (List Symbol)}

/-- Lists of words that are told apart one by one are told apart as a whole. -/
theorem joined_inj (delimits : ∀ word ∈ words, ∀ other ∈ others, Delimits ends word other)
    (separates : ∀ rest, ends (separator :: rest)) (closes : ∀ rest, ends (close :: rest))
    (apart : separator ≠ close)
    (starts : ∀ word ∈ words, ∀ front back, word ++ front ≠ close :: back)
    (begins : ∀ word ∈ others, ∀ front back, word ++ front ≠ close :: back)
    (same : joined separator words ++ close :: front = joined separator others ++ close :: back) :
    words = others ∧ front = back := by
  induction words generalizing others with
  | nil =>
    cases others with
    | nil => exact ⟨rfl, (List.cons.inj same).2⟩
    | cons other rest =>
      cases rest with
      | nil => exact absurd same.symm (begins other (by simp) _ _)
      | cons next rest =>
        rw [joined, joined, List.append_assoc] at same
        exact absurd same.symm (begins other (by simp) _ _)
  | cons word words ih =>
    cases others with
    | nil =>
      cases words with
      | nil => exact absurd same (starts word (by simp) _ _)
      | cons next rest =>
        rw [joined, joined, List.append_assoc] at same
        exact absurd same (starts word (by simp) _ _)
    | cons other others =>
      have here := delimits word (by simp) other (by simp)
      cases words with
      | nil =>
        cases others with
        | nil =>
          obtain ⟨rfl, rest⟩ := here.rest (closes _) (closes _) same
          exact ⟨rfl, (List.cons.inj rest).2⟩
        | cons next rest =>
          rw [joined, joined, List.append_assoc] at same
          obtain ⟨_, rest⟩ := here.rest (closes _) (separates _) same
          exact absurd (List.cons.inj rest).1.symm apart
      | cons next rest =>
        cases others with
        | nil =>
          rw [joined, joined, List.append_assoc] at same
          obtain ⟨_, rest⟩ := here.rest (separates _) (closes _) same
          exact absurd (List.cons.inj rest).1 apart
        | cons following others =>
          rw [joined, joined, List.append_assoc, List.append_assoc] at same
          obtain ⟨rfl, tails⟩ := here.rest (separates _) (separates _) same
          obtain ⟨words, rest⟩ := ih
            (fun word member other listed => delimits word (List.mem_cons_of_mem _ member) other
              (List.mem_cons_of_mem _ listed))
            (fun word member => starts word (List.mem_cons_of_mem _ member))
            (fun other member => begins other (List.mem_cons_of_mem _ member))
              (List.cons.inj tails).2
          exact ⟨by rw [words], rest⟩

end Delimited
