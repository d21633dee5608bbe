import Relays.Auth.Tokens
import Relays.Workspaces.Slugs
import Mathlib.Tactic.Ring

/-! `UUID(text)` reads back what `str(uuid)` has written. -/

namespace Relays.Auth

/-- `text.replace(word, "")`. -/
def without (word text : List Char) : List Char :=
  match text with
  | [] => []
  | c :: rest => if word.isPrefixOf (c :: rest) then without word (rest.drop (word.length - 1))
    else c :: without word rest
termination_by text.length
decreasing_by
  · simp only [List.length_drop, List.length_cons]
    omega
  · exact Nat.lt_succ_self _

def hexDigit? (c : Char) : Option Nat :=
  if '0' ≤ c && c ≤ '9' then some (c.toNat - 48)
  else if 'a' ≤ c && c ≤ 'f' then some (c.toNat - 87)
  else if 'A' ≤ c && c ≤ 'F' then some (c.toNat - 55)
  else none

/-- The value of these hexadecimal digits after others. -/
def ofHexDigits (value : Nat) : List Char → Option Nat
  | [] => some value
  | c :: rest =>
    match hexDigit? c with
    | none => none
    | some digit => ofHexDigits (value * 16 + digit) rest

/-- `UUID(text)`: the URN prefix, the braces and the hyphens are optional. -/
def parseUuid (text : String) : Option Uuid :=
  let hex := without "uuid:".toList (without "urn:".toList text.toList)
  let hex := (strip (fun c => c = '{' || c = '}') hex).filter (· ≠ '-')
  if hex.length = 32 then ofHexDigits 0 hex else none

variable {word text : List Char} {c : Char} {width value front digit : Nat} {id : Uuid}

theorem without_eq_self (absent : ∀ c ∈ word.head?, c ∉ text)
    (nonempty : word ≠ []) : without word text = text := by
  induction text with
  | nil => rw [without]
  | cons c rest ih =>
    rw [without, if_neg, ih fun first known inside =>
      absent first known (List.mem_cons_of_mem c inside)]
    intro begins
    obtain ⟨first, others, rfl⟩ := List.exists_cons_of_ne_nil nonempty
    obtain ⟨later, whole⟩ := List.isPrefixOf_iff_prefix.mp begins
    obtain ⟨rfl, _⟩ := List.cons.inj whole
    exact absent first rfl List.mem_cons_self

/-- The digits of a UUID are none of the characters that are taken away. -/
theorem digitChar_plain (small : digit < 16) :
    hexDigit? (Nat.digitChar digit) = some digit ∧ Nat.digitChar digit ∉ ['u', '{', '}', '-'] := by
  have checked : ∀ digit : Fin 16, hexDigit? (Nat.digitChar digit) = some digit.val ∧
      Nat.digitChar digit ∉ ['u', '{', '}', '-'] := by decide
  exact checked ⟨digit, small⟩

theorem hexDigits_succ (width value : Nat) :
    hexDigits (width + 1) value = Nat.digitChar ((value / 16 ^ width) % 16) ::
      hexDigits width value := by
  have shifted : value >>> (4 * width) = value / 16 ^ width := by
    rw [Nat.shiftRight_eq_div_pow, Nat.pow_mul]
  rw [hexDigits, List.range_succ, List.reverse_append, List.reverse_singleton,
    List.singleton_append, List.map_cons, shifted]
  rfl

theorem mem_hexDigits (known : c ∈ hexDigits width value) : ∃ digit < 16,
    c = Nat.digitChar digit := by
  obtain ⟨position, _, rfl⟩ := List.mem_map.mp known
  exact ⟨_, Nat.mod_lt _ (by decide), rfl⟩

theorem ofHexDigits_hexDigits (width value front : Nat) :
    ofHexDigits front (hexDigits width value) = some (front * 16 ^ width + value % 16 ^ width) := by
  induction width generalizing front with
  | zero => simp [hexDigits, ofHexDigits, Nat.mod_one]
  | succ width ih =>
    rw [hexDigits_succ, ofHexDigits, (digitChar_plain (Nat.mod_lt _ (by decide))).1]
    dsimp only
    rw [ih, Nat.mod_pow_succ, Nat.pow_succ]
    congr 1
    ring

/-- What `str(uuid)` writes between the hyphens. -/
theorem uuidText_toList : (uuidText id).toList =
    ((hexDigits 32 id).take 8) ++ '-' :: ((hexDigits 32 id).drop 8).take 4 ++ '-' ::
    ((hexDigits 32 id).drop 12).take 4 ++
      '-' :: ((hexDigits 32 id).drop 16).take 4 ++ '-' :: ((hexDigits 32 id).drop 20).take 12 := by
  simp [uuidText]

theorem mem_uuidText (known : c ∈ (uuidText id).toList) : c = '-' ∨ c ∈ hexDigits 32 id := by
  rw [uuidText_toList] at known
  simp only [List.mem_append, List.mem_cons] at known
  have taken {start count : Nat} (inside : c ∈ ((hexDigits 32 id).drop start).take count) :
      c ∈ hexDigits 32 id :=
    List.mem_of_mem_drop (List.mem_of_mem_take inside)
  rcases known with (((first | rfl | group) | rfl | group) | rfl | group) | rfl | group
  · exact .inr (List.mem_of_mem_take first)
  all_goals first | exact .inl rfl | exact .inr (taken group)

theorem plain_uuidText (known : c ∈ (uuidText id).toList) : c ∉ ['u', '{', '}'] := by
  rcases mem_uuidText known with rfl | digit
  · decide
  · obtain ⟨value, small, rfl⟩ := mem_hexDigits digit
    have plain := (digitChar_plain small).2
    simp only [List.mem_cons, not_or] at plain ⊢
    exact ⟨plain.1, plain.2.1, plain.2.2.1, plain.2.2.2.2⟩

theorem unhyphenated_uuidText : (uuidText id).toList.filter (· ≠ '-') = hexDigits 32 id := by
  have digits {chars : List Char} (every : ∀ c ∈ chars, c ∈ hexDigits 32 id) :
      chars.filter (· ≠ '-') = chars := by
    apply List.filter_eq_self.mpr
    intro c known
    obtain ⟨value, small, rfl⟩ := mem_hexDigits (every c known)
    have plain := (digitChar_plain small).2
    simp only [List.mem_cons, not_or] at plain
    exact decide_eq_true plain.2.2.2.1
  have group (start count : Nat) : (((hexDigits 32 id).drop start).take count).filter (· ≠ '-') =
      ((hexDigits 32 id).drop start).take count :=
    digits fun c known => List.mem_of_mem_drop (List.mem_of_mem_take known)
  have first := group 0 8
  have hyphen (chars : List Char) : ('-' :: chars).filter (· ≠ '-') = chars.filter (· ≠ '-') :=
    List.filter_cons_of_neg (by decide)
  have length : (hexDigits 32 id).length = 32 := by simp [hexDigits]
  have join (start count : Nat) :
    ((hexDigits 32 id).drop start).take count ++ (hexDigits 32 id).drop (start + count) =
      (hexDigits 32 id).drop start := by
    rw [← List.drop_drop, List.take_append_drop]
  have last : ((hexDigits 32 id).drop 20).take 12 = (hexDigits 32 id).drop 20 :=
    List.take_of_length_le (by simp [length])
  rw [List.drop_zero] at first
  rw [uuidText_toList]
  simp only [List.filter_append, List.append_assoc, List.cons_append, hyphen, group, first]
  rw [last, join 16 4, join 12 4, join 8 4, List.take_append_drop]

theorem parseUuid_uuidText (small : id < 2 ^ 128) : parseUuid (uuidText id) = some id := by
  have unprefixed {word : List Char} (urn : word.head? = some 'u') :
      without word (uuidText id).toList = (uuidText id).toList := by
    apply without_eq_self
    · rw [urn]
      intro c first known
      obtain rfl := Option.mem_some.mp first
      exact plain_uuidText known List.mem_cons_self
    · rintro rfl
      cases urn
  have unbraced : strip (fun c => c = '{' || c = '}') (uuidText id).toList =
      (uuidText id).toList := by
    apply strip_eq_self
    intro c known
    have plain := plain_uuidText known
    simp only [List.mem_cons, not_or] at plain
    simp [plain.2.1, plain.2.2.1]
  have whole : id % 16 ^ 32 = id := Nat.mod_eq_of_lt small
  rw [parseUuid, unprefixed rfl, unprefixed rfl, unbraced, unhyphenated_uuidText,
    if_pos (by simp [hexDigits]),
    ofHexDigits_hexDigits, whole, Nat.zero_mul, Nat.zero_add]

end Relays.Auth
