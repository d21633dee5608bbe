import Mathlib.Computability.RegularExpressions
import Relays.Library.Words
import Relays.Workspaces.Slugs

/-! What a slug is: the words of lower-case letters and digits of a text, with single hyphens
between them. -/

namespace Relays

open Delimited

def isSlugLetter (c : Char) : Bool := ('a' ≤ c && c ≤ 'z') || ('0' ≤ c && c ≤ '9')

def isHyphen (c : Char) : Bool := c = '-'

/-- What `slugify` turns into hyphens. -/
def isBlank (c : Char) : Bool := isSpace c || c = '_'

def isSeparator (c : Char) : Bool := isBlank c || isHyphen c

/-- The words that the letters and digits of a text spell when everything else but separators is
left out. -/
def slugWords (value : String) : List (List Char) :=
  split isSeparator ((value.toList.flatMap lower).filter fun c => isSeparator c || isSlugLetter c)

section Hyphens

variable {matching : Char → Bool} {c d : Char} {rest word letters chars : List Char}

theorem hyphenate_other (other : matching c = false) : hyphenate matching (c :: rest) =
    c :: hyphenate matching rest := by
  rw [hyphenate, if_neg (by simp [other])]

theorem hyphenate_ne_nil : hyphenate matching (c :: rest) ≠ [] := by
  rw [hyphenate]
  split
  · split
    · simp
    · split <;> simp
  · simp

/-- A matching character before another one is swallowed. -/
theorem hyphenate_run (matched : matching c = true) (following : matching d = true) :
    hyphenate matching (c :: d :: rest) = hyphenate matching (d :: rest) := by
  rw [hyphenate, if_pos matched]
  split
  · rename_i nothing
    exact absurd nothing hyphenate_ne_nil
  · rename_i next later written
    rw [if_pos (by simpa using following), written]

/-- The last of a run becomes the hyphen. -/
theorem hyphenate_last (matched : matching c = true)
    (ended : ∀ next ∈ rest.head?, matching next = false) :
    hyphenate matching (c :: rest) = '-' :: hyphenate matching rest := by
  rw [hyphenate, if_pos matched]
  split
  · rename_i nothing
    rw [nothing]
  · rename_i next later written
    rw [if_neg (by simpa [Option.any_eq_true] using ended), written]

/-- Dropping at the end of a text whose last part does not vanish is dropping there. -/
theorem rdropWhile_append (front : List Char) (remains : chars.rdropWhile matching ≠ []) :
    (front ++ chars).rdropWhile matching = front ++ chars.rdropWhile matching := by
  have kept : (chars.reverse.dropWhile matching).isEmpty = false := by
    simpa [List.rdropWhile] using remains
  simp [List.rdropWhile, List.dropWhile_append, kept]

theorem rdropWhile_letters (plain : ∀ c ∈ letters, matching c = false) :
    letters.rdropWhile matching = letters := by
  rw [List.rdropWhile_eq_self_iff]
  intro nonempty
  simp [plain _ (List.getLast_mem nonempty)]

/-- Between the words of a text every run becomes one hyphen, and at its end it is dropped. -/
theorem rdropWhile_hyphenate (hyphen : matching '-' = true) (plain : ∀ c ∈ word, matching c = false)
    (starts : word ≠ [] ∨ ∀ c ∈ chars.head?, matching c = false) :
    (word ++ hyphenate matching chars).rdropWhile matching =
      joined '-' (splitFrom matching word chars) := by
  induction chars generalizing word with
  | nil => simpa [hyphenate] using rdropWhile_letters plain
  | cons c rest ih =>
    cases kind : matching c with
    | false =>
      have longer : ∀ letter ∈ word ++ [c], matching letter = false := by
        simpa [or_imp, forall_and, kind] using plain
      rw [hyphenate_other kind, splitFrom_letter kind, ← ih longer (.inl (by simp)),
        List.append_assoc, List.singleton_append]
    | true =>
      have begun : word ≠ [] :=
        starts.resolve_right fun letter => by simpa [kind] using letter c rfl
      cases rest with
      | nil =>
        have dropped : (word ++ ['-']).rdropWhile matching = word := by
          rw [List.rdropWhile_concat_pos _ _ _ hyphen, rdropWhile_letters plain]
        rw [hyphenate_last kind (by simp), splitFrom_separator kind]
        simpa [hyphenate] using dropped
      | cons next rest =>
        cases following : matching next with
        | true =>
          rw [hyphenate_run kind following, ih plain (.inl begun), splitFrom_separator following,
            splitFrom_separator kind,
            splitFrom_separator following]
          rfl
        | false =>
          have later := @ih [] (by simp) (.inr (by simpa using following))
          have words : splitFrom matching [] (next :: rest) ≠ [] := by
            rw [splitFrom_letter following]
            exact splitFrom_ne_nil (by simp)
          have remains : (hyphenate matching (next :: rest)).rdropWhile matching ≠ [] := by
            rw [List.nil_append] at later
            rw [later]
            exact joined_ne_nil words (splitFrom_words (by simp))
          rw [hyphenate_last kind (by simpa using following), splitFrom_separator kind,
            closed_of_ne_nil begun,
            ← List.singleton_append, ← List.append_assoc, rdropWhile_append _ remains,
              ← List.nil_append (hyphenate _ _),
            later]
          cases found : splitFrom matching [] (next :: rest) with
          | nil => exact absurd found words
          | cons first others => simp [joined_cons_cons]

/-- A text whose runs have become hyphens, without those at its ends, is its words. -/
theorem strip_hyphenate (hyphen : matching '-' = true) (chars : List Char) :
    strip matching (hyphenate matching chars) = joined '-' (split matching chars) := by
  induction chars with
  | nil => rfl
  | cons c rest ih =>
    cases kind : matching c with
    | false =>
      have whole := @rdropWhile_hyphenate _ [] (c :: rest) hyphen (by simp)
        (.inr (by simpa using kind))
      rw [List.nil_append, hyphenate_other kind] at whole
      rw [hyphenate_other kind, split, ← whole, strip, List.dropWhile_cons_of_neg (by simp [kind])]
      rfl
    | true =>
      have words : split matching (c :: rest) = split matching rest := by
        rw [split, split, splitFrom_separator kind]; rfl
      rw [words, ← ih]
      cases rest with
      | nil =>
        rw [hyphenate_last kind (by simp)]
        simp [hyphenate, strip, hyphen]
      | cons next rest =>
        cases following : matching next with
        | true => rw [hyphenate_run kind following]
        | false =>
          rw [hyphenate_last kind (by simpa using following), strip, strip,
            List.dropWhile_cons_of_pos hyphen]

end Hyphens

section Letters

variable {c : Char} {word chars : List Char}

theorem char_le_iff {first second : Char} : first ≤ second ↔ first.toNat ≤ second.toNat := by
  rw [Char.le_def, UInt32.le_iff_toNat_le]
  rfl

theorem isSlugLetter_iff : isSlugLetter c = true ↔ 97 ≤ c.toNat ∧ c.toNat ≤ 122 ∨ 48 ≤ c.toNat ∧
    c.toNat ≤ 57 := by
  simp only [isSlugLetter, char_le_iff, Bool.or_eq_true, Bool.and_eq_true, decide_eq_true_eq]
  rfl

theorem isSlugChar_eq (c : Char) : isSlugChar c = (isSlugLetter c || isHyphen c) := rfl

theorem isSeparator_of_letter (letter : isSlugLetter c = true) : isSeparator c = false := by
  have code := isSlugLetter_iff.mp letter
  have underscore : c ≠ '_' := by
    rintro rfl
    cases letter
  have hyphen : c ≠ '-' := by
    rintro rfl
    cases letter
  simp only [isSeparator, isBlank, isHyphen, isSpace, underscore, hyphen, decide_false,
    Bool.or_false,
    Bool.or_eq_false_iff, Bool.and_eq_false_iff, decide_eq_false_iff_not]
  omega

theorem isSeparator_of_blank (blank : isBlank c = true) : isSeparator c = true := by
    simp [isSeparator, blank]

theorem isSeparator_of_space (space : isSpace c = true) : isSeparator c = true :=
  isSeparator_of_blank (by simp [isBlank, space])

theorem isSeparator_of_hyphen (hyphen : isHyphen c = true) : isSeparator c = true := by
    simp [isSeparator, hyphen]

/-- Characters that have no other lower case as far as ASCII text comes out of it. -/
theorem lower_other (capital : c.toNat < 65 ∨ 90 < c.toNat) (dotted : c.toNat ≠ 0x130)
    (kelvin : c.toNat ≠ 0x212A) :
    lower c = [c] := by
  have small : ('A' ≤ c && c ≤ 'Z') = false := by
    simp only [char_le_iff, Bool.and_eq_false_iff, decide_eq_false_iff_not, Nat.not_le]
    exact capital
  simp [lower, small, dotted, kelvin]

theorem lower_space (space : isSpace c = true) : lower c = [c] := by
  simp only [isSpace, Bool.or_eq_true, Bool.and_eq_true, decide_eq_true_eq] at space
  apply lower_other <;> omega

theorem lower_letter (letter : isSlugLetter c = true) : lower c = [c] := by
  have code := isSlugLetter_iff.mp letter
  apply lower_other <;> omega

/-- At most one character of what a character is lowered to is kept. -/
theorem lower_kept_length (c : Char) :
    ((lower c).filter fun c => isSeparator c || isSlugLetter c).length ≤ 1 := by
  have single (d : Char) : ([d].filter fun c => isSeparator c || isSlugLetter c).length ≤ 1 :=
    (List.length_filter_le _ _).trans (by simp)
  unfold lower
  split
  · exact single _
  · split
    · decide
    · split <;> exact single _

end Letters

section Slugs

variable {c : Char} {word chars : List Char} {value : String}

/-- Blanks at the ends of a text are not part of its words. -/
theorem slugWords_strip (chars : List Char) :
    split isSeparator (((strip isSpace chars).flatMap lower).filter fun c => isSeparator c ||
      isSlugLetter c) =
      split isSeparator ((chars.flatMap lower).filter fun c => isSeparator c ||
        isSlugLetter c) := by
  have front (chars : List Char) :
      split isSeparator (((chars.dropWhile isSpace).flatMap lower).filter fun c => isSeparator c ||
        isSlugLetter c) =
        split isSeparator ((chars.flatMap lower).filter fun c => isSeparator c ||
          isSlugLetter c) := by
    induction chars with
    | nil => rfl
    | cons c rest ih =>
      cases space : isSpace c with
      | true =>
        have ends := isSeparator_of_space space
        rw [List.dropWhile_cons_of_pos space, ih, List.flatMap_cons, lower_space space,
          List.singleton_append,
          List.filter_cons_of_pos (by simp [ends]), split, split, splitFrom_separator ends]
        rfl
      | false => rw [List.dropWhile_cons_of_neg (by simp [space])]
  have back (chars : List Char) :
      split isSeparator (((chars.rdropWhile isSpace).flatMap lower).filter fun c => isSeparator c ||
        isSlugLetter c) =
        split isSeparator ((chars.flatMap lower).filter fun c => isSeparator c ||
          isSlugLetter c) := by
    induction chars using List.reverseRecOn with
    | nil => rfl
    | append_singleton chars c ih =>
      cases space : isSpace c with
      | true =>
        have ends := isSeparator_of_space space
        rw [List.rdropWhile_concat_pos _ _ _ space, ih, List.flatMap_append, List.flatMap_singleton,
          lower_space space,
          List.filter_append, List.filter_cons_of_pos (by simp [ends]), List.filter_nil, split,
            split,
          splitFrom_concat ends]
      | false => rw [List.rdropWhile_concat_neg _ _ _ (by simp [space])]
  exact (back _).trans (front chars)

/-- Hyphens stand for the separators between the words, whatever else is left out. -/
theorem splitFrom_hyphenate (word chars : List Char) :
    splitFrom isHyphen word ((hyphenate isBlank chars).filter isSlugChar) =
      splitFrom isSeparator word (chars.filter fun c => isSeparator c || isSlugLetter c) := by
  induction chars generalizing word with
  | nil => rfl
  | cons c rest ih =>
    cases kind : isBlank c with
    | true =>
      have ends := isSeparator_of_blank kind
      rw [List.filter_cons_of_pos (by simp [ends]), splitFrom_separator ends, ← ih []]
      cases rest with
      | nil =>
        rw [hyphenate_last kind (by simp), List.filter_cons_of_pos (by decide),
          splitFrom_separator (show isHyphen '-' = true by decide)]
      | cons next rest =>
        cases following : isBlank next with
        | true =>
          have ends' := isSeparator_of_blank following
          rw [hyphenate_run kind following, ih word, ih [],
            List.filter_cons_of_pos (by simp [ends']),
            splitFrom_separator ends', splitFrom_separator ends']
          rfl
        | false =>
          rw [hyphenate_last kind (by simpa using following), List.filter_cons_of_pos (by decide),
            splitFrom_separator (show isHyphen '-' = true by decide)]
    | false =>
      rw [hyphenate_other kind]
      cases letter : isSlugLetter c with
      | true =>
        have plain := isSeparator_of_letter letter
        have apart : isHyphen c = false := (Bool.or_eq_false_iff.mp plain).2
        rw [List.filter_cons_of_pos (by simp [isSlugChar_eq, letter]),
          List.filter_cons_of_pos (by simp [letter]),
          splitFrom_letter apart, splitFrom_letter plain, ih]
      | false =>
        cases hyphen : isHyphen c with
        | true =>
          have ends := isSeparator_of_hyphen hyphen
          rw [List.filter_cons_of_pos (by simp [isSlugChar_eq, hyphen]),
            List.filter_cons_of_pos (by simp [ends]), splitFrom_separator hyphen,
              splitFrom_separator ends, ih]
        | false =>
          have other : isSeparator c = false := by simp [isSeparator, kind, hyphen]
          rw [List.filter_cons_of_neg (by simp [isSlugChar_eq, letter, hyphen]),
            List.filter_cons_of_neg (by simp [other, letter]), ih]

/-- A slug is the words of its text with single hyphens between them. -/
theorem slugify_eq (value : String) :
    slugify value = String.ofList (joined '-' (slugWords value)) := by
  have collapsed : slugify value = String.ofList (strip isHyphen (hyphenate isHyphen
      ((hyphenate isBlank ((strip isSpace value.toList).flatMap lower)).filter isSlugChar))) := rfl
  rw [collapsed, strip_hyphenate (by decide), split, splitFrom_hyphenate, ← split, slugWords_strip]
  rfl

theorem slugWords_words (value : String) : ∀ word ∈ slugWords value, word ≠ [] ∧
    ∀ c ∈ word, isSlugLetter c = true := by
  intro word member
  refine ⟨(split_words _ word member).nonempty, ?_⟩
  intro c inside
  have plain := (split_words _ word member).letters c inside
  have kept := List.of_mem_filter (mem_of_mem_splitFrom member inside)
  simpa [plain] using kept

theorem slugWords_joined {words : List (List Char)}
    (letters : ∀ word ∈ words, word ≠ [] ∧ ∀ c ∈ word, isSlugLetter c = true) :
    slugWords (String.ofList (joined '-' words)) = words := by
  have kinds (c : Char) (member : c ∈ joined '-' words) : c = '-' ∨ isSlugLetter c = true := by
    rcases mem_joined member with hyphen | ⟨word, known, inside⟩
    · exact .inl hyphen
    · exact .inr ((letters word known).2 c inside)
  have lowered : (joined '-' words).flatMap lower = joined '-' words := by
    calc (joined '-' words).flatMap lower
        _ = (joined '-' words).flatMap fun c => [c] := by
          apply List.flatMap_congr
          intro c member
          rcases kinds c member with rfl | letter
          · decide
          · exact lower_letter letter
        _ = joined '-' words := List.flatMap_singleton' _
  have kept : ((joined '-' words).filter fun c => isSeparator c || isSlugLetter c) =
      joined '-' words := by
    apply List.filter_eq_self.mpr
    intro c member
    rcases kinds c member with rfl | letter
    · decide
    · simp [letter]
  rw [slugWords, String.toList_ofList, lowered, kept]
  apply split_joined (by decide)
  intro word known
  obtain ⟨nonempty, plain⟩ := letters word known
  exact ⟨nonempty, fun c inside => isSeparator_of_letter (plain c inside)⟩

/-- `[a-z0-9]` -/
def slugLetter : RegularExpression Char :=
  ("abcdefghijklmnopqrstuvwxyz0123456789".toList.map .char).foldr (· + ·) 0

/-- `[a-z0-9]+(-[a-z0-9]+)*` -/
def slugPattern : RegularExpression Char :=
  let word := slugLetter * slugLetter.star
  word * (RegularExpression.char '-' * word).star

theorem mem_oneOf (chars : List Char) (member : c ∈ chars) :
    [c] ∈ ((chars.map RegularExpression.char).foldr (· + ·) 0).matches' := by
  induction chars with
  | nil => cases member
  | cons first rest ih =>
    rw [List.map_cons, List.foldr_cons, RegularExpression.matches'_add, Language.mem_add]
    rcases List.mem_cons.mp member with rfl | later
    · exact .inl rfl
    · exact .inr (ih later)

theorem slugLetter_matches (letter : isSlugLetter c = true) : [c] ∈ slugLetter.matches' := by
  have small : ∀ index < 26,
    Char.ofNat (97 + index) ∈ "abcdefghijklmnopqrstuvwxyz0123456789".toList := by decide
  have digit : ∀ index < 10,
    Char.ofNat (48 + index) ∈ "abcdefghijklmnopqrstuvwxyz0123456789".toList := by decide
  apply mem_oneOf
  rw [← Char.ofNat_toNat c]
  rcases isSlugLetter_iff.mp letter with ⟨low, high⟩ | ⟨low, high⟩
  · rw [show c.toNat = 97 + (c.toNat - 97) by omega]
    exact small _ (by omega)
  · rw [show c.toNat = 48 + (c.toNat - 48) by omega]
    exact digit _ (by omega)

theorem letters_match (letters : ∀ c ∈ word, isSlugLetter c = true) :
    word ∈ slugLetter.star.matches' := by
  rw [RegularExpression.matches'_star, Language.mem_kstar]
  refine ⟨word.map fun c => [c], (List.flatMap_singleton' word).symm, ?_⟩
  intro one member
  obtain ⟨c, known, rfl⟩ := List.mem_map.mp member
  exact slugLetter_matches (letters c known)

theorem word_matches (nonempty : word ≠ []) (letters : ∀ c ∈ word, isSlugLetter c = true) :
    word ∈ (slugLetter * slugLetter.star).matches' := by
  cases word with
  | nil => exact absurd rfl nonempty
  | cons c rest =>
    obtain ⟨first, others⟩ := List.forall_mem_cons.mp letters
    rw [RegularExpression.matches'_mul]
    exact Language.append_mem_mul (slugLetter_matches first) (letters_match others)

/-- The words after the first, each with the hyphen before it. -/
theorem joined_matches {words : List (List Char)} (nonempty : words ≠ [])
    (letters : ∀ word ∈ words, word ≠ [] ∧ ∀ c ∈ word, isSlugLetter c = true) :
    joined '-' words ∈ slugPattern.matches' := by
  have whole (first : List Char) (rest : List (List Char)) :
      joined '-' (first :: rest) = first ++ (rest.map ('-' :: ·)).flatten := by
    induction rest generalizing first with
    | nil => simp [joined]
    | cons next rest ih => rw [joined_cons_cons, ih]; simp
  cases words with
  | nil => exact absurd rfl nonempty
  | cons first rest =>
    obtain ⟨⟨some', plain⟩, others⟩ := List.forall_mem_cons.mp letters
    rw [whole, slugPattern, RegularExpression.matches'_mul]
    apply Language.append_mem_mul (word_matches some' plain)
    rw [RegularExpression.matches'_star]
    apply Language.join_mem_kstar
    intro part member
    obtain ⟨word, known, rfl⟩ := List.mem_map.mp member
    obtain ⟨some', plain⟩ := others word known
    rw [RegularExpression.matches'_mul]
    have hyphen : ['-'] ∈ (RegularExpression.char '-').matches' := rfl
    exact Language.append_mem_mul hyphen (word_matches some' plain)

theorem slugify_length (value : String) : (slugify value).length ≤ value.length := by
  have kept (chars : List Char) :
      ((chars.flatMap lower).filter fun c => isSeparator c || isSlugLetter c).length ≤
        chars.length := by
    induction chars with
    | nil => simp
    | cons c rest ih =>
      have first := lower_kept_length c
      rw [List.flatMap_cons, List.filter_append, List.length_append, List.length_cons]
      omega
  rw [slugify_eq, String.length_ofList]
  calc (joined '-' (slugWords value)).length
      _ ≤ ((value.toList.flatMap lower).filter fun c => isSeparator c ||
        isSlugLetter c).length := by
        exact (joined_splitFrom_length '-' [] _).trans (Nat.le_of_eq (Nat.zero_add _))
      _ ≤ value.toList.length := kept value.toList
      _ = value.length := String.length_toList

theorem slugify_slugify (value : String) : slugify (slugify value) = slugify value := by
  rw [slugify_eq (slugify value), slugify_eq value, slugWords_joined (slugWords_words value)]

theorem slugify_matches (nonempty : slugify value ≠ "") :
    (slugify value).toList ∈ slugPattern.matches' := by
  rw [slugify_eq] at nonempty ⊢
  rw [String.toList_ofList]
  apply joined_matches _ (slugWords_words value)
  intro nothing
  exact nonempty (by rw [nothing]; rfl)

end Slugs

end Relays
