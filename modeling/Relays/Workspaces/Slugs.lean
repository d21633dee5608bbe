import Mathlib.Data.List.TakeWhile

namespace Relays

/-- `str.isspace`, which `\s` and `strip` follow. -/
def isSpace (c : Char) : Bool :=
  let code := c.toNat
  (0x09 ≤ code && code ≤ 0x0D) || (0x1C ≤ code && code ≤ 0x20) || code = 0x85 || code = 0xA0 ||
    code = 0x1680 || (0x2000 ≤ code && code ≤ 0x200A) || code = 0x2028 || code = 0x2029 ||
    code = 0x202F || code = 0x205F || code = 0x3000

/-- `str.lower`, as far as ASCII text comes out of it: besides the ASCII capitals these are the
dotted capital I, which leaves a combining dot behind, and the Kelvin sign. -/
def lower (c : Char) : List Char :=
  if 'A' ≤ c && c ≤ 'Z' then [Char.ofNat (c.toNat + 32)]
  else if c.toNat = 0x130 then ['i', Char.ofNat 0x307]
  else if c.toNat = 0x212A then ['k']
  else [c]

def strip (dropped : Char → Bool) (chars : List Char) : List Char :=
  ((chars.dropWhile dropped).reverse.dropWhile dropped).reverse

/-- Stripping takes away matching characters only, and all of them where there are no others. -/
theorem all_strip (dropped : Char → Bool) (chars : List Char) :
    (strip dropped chars).all dropped = chars.all dropped := by
  have trimmed (rest : List Char) : (rest.dropWhile dropped).all dropped = rest.all dropped := by
    induction rest with
    | nil => rfl
    | cons first rest ih =>
      cases kept : dropped first with
      | true => simp [kept, ih]
      | false => simp [kept]
  unfold strip
  rw [List.all_reverse, trimmed, List.all_reverse, trimmed]

theorem strip_eq_nil {dropped : Char → Bool} {chars : List Char} :
    strip dropped chars = [] ↔ chars.all dropped = true := by
  constructor
  · intro nothing
    rw [← all_strip, nothing, List.all_nil]
  · intro every
    have gone : chars.dropWhile dropped = [] :=
      List.dropWhile_eq_nil_iff.mpr (List.all_eq_true.mp every)
    rw [strip, gone]
    rfl

theorem strip_eq_self {dropped : Char → Bool} {text : List Char}
    (kept : ∀ c ∈ text, dropped c = false) :
    strip dropped text = text := by
  have trimmed {chars : List Char} (kept : ∀ c ∈ chars, dropped c = false) :
      chars.dropWhile dropped = chars := by
    cases chars with
    | nil => rfl
    | cons c rest => exact List.dropWhile_cons_of_neg (by simp [kept c List.mem_cons_self])
  have backwards : ∀ c ∈ text.reverse, dropped c = false :=
    fun c known => kept c (List.mem_reverse.mp known)
  rw [strip, trimmed kept, trimmed backwards, List.reverse_reverse]

/-- `re.sub` of every run of matching characters by one hyphen. -/
def hyphenate (matching : Char → Bool) : List Char → List Char
  | [] => []
  | c :: rest =>
    if matching c then
      match hyphenate matching rest with
      | [] => ['-']
      | next :: later =>
        -- the run goes on when the rest begins with a matching character
        if rest.head?.any matching then next :: later else '-' :: next :: later
    else c :: hyphenate matching rest

def isSlugChar (c : Char) : Bool :=
  ('a' ≤ c && c ≤ 'z') || ('0' ≤ c && c ≤ '9') || c = '-'

def slugify (value : String) : String :=
  let lowered := (strip isSpace value.toList).flatMap lower
  let spaced := hyphenate (fun c => isSpace c || c = '_') lowered
  let kept := spaced.filter isSlugChar
  let collapsed := hyphenate (· = '-') kept
  String.ofList (strip (· = '-') collapsed)

def reservedWorkspaceSlugs : List String :=
  ["admin", "administrator", "api", "app", "auth", "billing", "dashboard", "docs", "help", "login",
    "logout", "me", "register", "root", "settings", "support", "system", "www", "dev",
      "development",
    "prod", "production", "staging", "sandbox", "qa", "test", "testing"]

/-- The text of the `ValueError`, if the slug is refused. -/
def validateWorkspaceSlug (slug : String) : Except String Unit :=
  if slug = "" then .error "Workspace Name produces an invalid slug"
  else if reservedWorkspaceSlugs.contains slug then .error "The Workspace Name is reserved"
  else .ok ()

example : slugify "  Acme_ Corp--Ltd. " = "acme-corp-ltd" := by decide

end Relays
