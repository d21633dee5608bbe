import Mathlib.Data.List.Chain
import Mathlib.Data.List.DropRight
import Relays.Library.Delimited

/-! The words of a text: its longest runs without a separator. A text is tidy when it is its words
with single separators between them. -/

namespace Delimited

variable {Symbol : Type}

/-- A word that has ended, unless no symbol of it has been read. -/
def closed (word : List Symbol) : List (List Symbol) := if word.isEmpty then [] else [word]

/-- The words of a text after these symbols of its first word. -/
def splitFrom (separates : Symbol → Bool) (word : List Symbol) : List Symbol → List (List Symbol)
  | [] => closed word
  | symbol :: rest =>
    if separates symbol then closed word ++ splitFrom separates [] rest
    else splitFrom separates (word ++ [symbol]) rest

def split (separates : Symbol → Bool) (text : List Symbol) : List (List Symbol) :=
    splitFrom separates [] text

/-- A run without separators. -/
structure Word (separates : Symbol → Bool) (word : List Symbol) : Prop where
  nonempty : word ≠ []
  letters : ∀ symbol ∈ word, separates symbol = false

/-- No separator begins, ends or follows another. -/
structure Tidy (separates : Symbol → Bool) (text : List Symbol) : Prop where
  leading : ∀ symbol ∈ text.head?, separates symbol = false
  trailing : ∀ symbol ∈ text.getLast?, separates symbol = false
  repeated : text.IsChain fun first second => separates first = false ∨ separates second = false

variable {separates : Symbol → Bool} {word text rest letters : List Symbol}
    {symbol separator : Symbol}
variable {words : List (List Symbol)}

@[simp] theorem closed_nil : closed ([] : List Symbol) = [] := rfl

theorem closed_of_ne_nil (nonempty : word ≠ []) : closed word = [word] := by
  simp [closed, nonempty]

@[simp] theorem splitFrom_nil : splitFrom separates word [] = closed word := rfl

theorem splitFrom_separator (ends : separates symbol = true) :
    splitFrom separates word (symbol :: rest) = closed word ++ splitFrom separates [] rest := by
  simp [splitFrom, ends]

theorem splitFrom_letter (letter : separates symbol = false) :
    splitFrom separates word (symbol :: rest) = splitFrom separates (word ++ [symbol]) rest := by
  simp [splitFrom, letter]

theorem splitFrom_letters (plain : ∀ symbol ∈ letters, separates symbol = false) :
    splitFrom separates word (letters ++ rest) = splitFrom separates (word ++ letters) rest := by
  induction letters generalizing word with
  | nil => simp
  | cons letter letters ih =>
    obtain ⟨first, others⟩ := List.forall_mem_cons.mp plain
    rw [List.cons_append, splitFrom_letter first, ih others, List.append_assoc,
      List.singleton_append]

theorem splitFrom_ne_nil (begun : word ≠ []) : splitFrom separates word text ≠ [] := by
  induction text generalizing word with
  | nil => simp [closed_of_ne_nil begun]
  | cons symbol rest ih =>
    cases kind : separates symbol with
    | true => simp [splitFrom_separator kind, closed_of_ne_nil begun]
    | false =>
      rw [splitFrom_letter kind]
      exact ih (by simp)

/-- The words are runs without separators. -/
theorem splitFrom_words (plain : ∀ symbol ∈ word, separates symbol = false) :
    ∀ found ∈ splitFrom separates word text, Word separates found := by
  have ended (word : List Symbol) (plain : ∀ symbol ∈ word, separates symbol = false) :
      ∀ found ∈ closed word, Word separates found := by
    intro found member
    by_cases nothing : word = []
    · simp [nothing] at member
    · rw [closed_of_ne_nil nothing] at member
      obtain rfl := List.mem_singleton.mp member
      exact ⟨nothing, plain⟩
  induction text generalizing word with
  | nil => exact ended word plain
  | cons symbol rest ih =>
    cases kind : separates symbol with
    | true =>
      rw [splitFrom_separator kind]
      intro found member
      rcases List.mem_append.mp member with first | later
      · exact ended word plain found first
      · exact ih (by simp) found later
    | false =>
      rw [splitFrom_letter kind]
      apply ih
      simpa [or_imp, forall_and, kind] using plain

theorem split_words (text : List Symbol) : ∀ found ∈ split separates text, Word separates found :=
  splitFrom_words (by simp)

/-- The words have no symbols but those of the text. -/
theorem mem_of_mem_splitFrom {found : List Symbol} (member : found ∈ splitFrom separates word text)
    (inside : symbol ∈ found) : symbol ∈ word ++ text := by
  have ended (word : List Symbol) (member : found ∈ closed word) : symbol ∈ word := by
    by_cases nothing : word = []
    · simp [nothing] at member
    · rw [closed_of_ne_nil nothing] at member
      exact List.mem_singleton.mp member ▸ inside
  induction text generalizing word with
  | nil => simpa using ended word member
  | cons first rest ih =>
    cases kind : separates first with
    | true =>
      rw [splitFrom_separator kind] at member
      rcases List.mem_append.mp member with here | later
      · exact List.mem_append_left _ (ended word here)
      · exact List.mem_append_right _ (List.mem_cons_of_mem _ (by simpa using ih later))
    | false =>
      rw [splitFrom_letter kind] at member
      simpa using ih member

/-- Separators before a text and after it are not part of its words. -/
theorem split_dropWhile (text : List Symbol) : split separates (text.dropWhile separates) =
    split separates text := by
  induction text with
  | nil => rfl
  | cons symbol rest ih =>
    cases kind : separates symbol with
    | true =>
      rw [List.dropWhile_cons_of_pos kind, ih, split, split, splitFrom_separator kind]
      rfl
    | false => rw [List.dropWhile_cons_of_neg (by simp [kind])]

theorem splitFrom_concat (ends : separates symbol = true) :
    splitFrom separates word (text ++ [symbol]) = splitFrom separates word text := by
  induction text generalizing word with
  | nil => simp [splitFrom_separator ends]
  | cons first rest ih =>
    cases kind : separates first with
    | true => rw [List.cons_append, splitFrom_separator kind, splitFrom_separator kind, ih]
    | false => rw [List.cons_append, splitFrom_letter kind, splitFrom_letter kind, ih]

theorem split_rdropWhile (text : List Symbol) : split separates (text.rdropWhile separates) =
    split separates text := by
  induction text using List.reverseRecOn with
  | nil => rfl
  | append_singleton text symbol ih =>
    cases kind : separates symbol with
    | true => rw [List.rdropWhile_concat_pos _ _ _ kind, ih, split, split, splitFrom_concat kind]
    | false => rw [List.rdropWhile_concat_neg _ _ _ (by simp [kind])]

/-- Reading back the words of a text that has been joined from them. -/
theorem split_joined (ends : separates separator = true)
    (runs : ∀ word ∈ words, Word separates word) :
    split separates (joined separator words) = words := by
  induction words with
  | nil => rfl
  | cons word words ih =>
    obtain ⟨run, others⟩ := List.forall_mem_cons.mp runs
    cases words with
    | nil =>
      have whole : splitFrom separates [] (word ++ []) = splitFrom separates ([] ++ word) [] :=
        splitFrom_letters run.letters
      rw [List.append_nil, List.nil_append, splitFrom_nil, closed_of_ne_nil run.nonempty] at whole
      exact whole
    | cons next words =>
      have read := ih others
      rw [split] at read
      rw [joined, split, splitFrom_letters run.letters, splitFrom_separator ends, List.nil_append,
        closed_of_ne_nil run.nonempty, read]
      rfl

theorem joined_cons_cons (separator : Symbol) (word next : List Symbol)
    (words : List (List Symbol)) :
    joined separator (word :: next :: words) =
      word ++ separator :: joined separator (next :: words) := rfl

theorem joined_ne_nil (nonempty : words ≠ []) (runs : ∀ word ∈ words, Word separates word) :
    joined separator words ≠ [] := by
  cases words with
  | nil => exact absurd rfl nonempty
  | cons word words =>
    have first := (runs word (by simp)).nonempty
    cases words with
    | nil => exact first
    | cons next words => simp [joined_cons_cons]

theorem mem_joined (member : symbol ∈ joined separator words) : symbol = separator ∨
    ∃ word ∈ words, symbol ∈ word := by
  induction words with
  | nil => cases member
  | cons word words ih =>
    cases words with
    | nil => exact .inr ⟨word, by simp, member⟩
    | cons next words =>
      rw [joined_cons_cons] at member
      rcases List.mem_append.mp member with here | later
      · exact .inr ⟨word, by simp, here⟩
      · rcases List.mem_cons.mp later with rfl | later
        · exact .inl rfl
        · rcases ih later with same | ⟨found, known, inside⟩
          · exact .inl same
          · exact .inr ⟨found, List.mem_cons_of_mem _ known, inside⟩

@[simp] theorem joined_closed (separator : Symbol)
    (word : List Symbol) : joined separator (closed word) = word := by
  cases word <;> rfl

/-- Joining the words of a text again leaves out separators and puts in no more of them. -/
theorem joined_splitFrom_length (separator : Symbol) (word text : List Symbol) :
    (joined separator (splitFrom separates word text)).length ≤ word.length + text.length := by
  induction text generalizing word with
  | nil => simp
  | cons symbol rest ih =>
    cases kind : separates symbol with
    | true =>
      rw [splitFrom_separator kind]
      have later := ih []
      by_cases nothing : word = []
      · subst nothing
        simp only [closed_nil, List.nil_append, List.length_nil, List.length_cons] at later ⊢
        omega
      · rw [closed_of_ne_nil nothing]
        cases found : splitFrom separates [] rest with
        | nil => simp [joined]
        | cons next words =>
          rw [found] at later
          rw [List.singleton_append, joined_cons_cons]
          simp only [List.length_append, List.length_nil, List.length_cons] at later ⊢
          omega
    | false =>
      rw [splitFrom_letter kind]
      have later := ih (word ++ [symbol])
      simp only [List.length_append, List.length_cons, List.length_nil] at later ⊢
      omega

theorem Word.tidy (run : Word separates word) : Tidy separates word where
  leading symbol first := run.letters symbol (List.mem_of_mem_head? first)
  trailing symbol last := run.letters symbol (List.mem_of_getLast? last)
  repeated := by
    apply List.Pairwise.isChain
    apply List.pairwise_of_forall_mem_list
    intro first known _ _
    exact .inl (run.letters first known)

/-- Words with single separators between them are tidy. -/
theorem tidy_joined (runs : ∀ word ∈ words, Word separates word) :
    Tidy separates (joined separator words) := by
  induction words with
  | nil => exact ⟨by simp [joined], by simp [joined], .nil⟩
  | cons word words ih =>
    obtain ⟨run, others⟩ := List.forall_mem_cons.mp runs
    have own := run.tidy
    cases words with
    | nil => exact own
    | cons next words =>
      have tidy := ih others
      have nonempty : joined separator (next :: words) ≠ [] := joined_ne_nil (by simp) others
      rw [joined_cons_cons]
      constructor
      · rw [List.head?_append_of_ne_nil _ run.nonempty]
        exact own.leading
      · rw [List.getLast?_append, List.getLast?_cons, List.getLast?_eq_some_getLast nonempty]
        simpa [List.getLast?_eq_some_getLast nonempty] using tidy.trailing
      · apply List.isChain_append.mpr
        refine ⟨own.repeated, List.isChain_cons.mpr ⟨?_, tidy.repeated⟩, ?_⟩
        · intro symbol first
          exact .inr (tidy.leading symbol first)
        · intro symbol last _ _
          exact .inl (own.trailing symbol last)

end Delimited
