import Relays.Auth.Names
import Relays.Workspaces.SlugForm

/-! The slugs of the workspace names that registration accepts. The reserved names are looked up in
the name as it is written, the reserved slugs in its slug, and the one list lacks some of the
other. -/

namespace Relays

open Delimited

section Slugs

variable {value name : String}

theorem validateWorkspaceSlug_eq_ok {slug : String} :
    validateWorkspaceSlug slug = .ok () ↔ slug ≠ "" ∧ slug ∉ reservedWorkspaceSlugs := by
  unfold validateWorkspaceSlug
  split
  · rename_i nothing
    simp [nothing]
  · rename_i nonempty
    split
    · rename_i reserved
      simp only [reduceCtorEq, false_iff]
      rintro ⟨_, free⟩
      exact free (by simpa using reserved)
    · rename_i free
      simpa [nonempty] using free

theorem slug_normal_form :
    (∀ value, (slugify value = "" ∨ (slugify value).toList ∈ slugPattern.matches') ∧
      slugify (slugify value) = slugify value ∧ (slugify value).length ≤ value.length) ∧
    ∀ value name, validateWorkspaceName value = .ok name →
      validateWorkspaceSlug (slugify name) = .ok () →
      (slugify name).toList ∈ slugPattern.matches' ∧ (slugify name).length ≤ 255 := by
  constructor
  · intro value
    refine ⟨?_, slugify_slugify value, slugify_length value⟩
    by_cases nothing : slugify value = ""
    · exact .inl nothing
    · exact .inr (slugify_matches nothing)
  · intro value name accepted registered
    obtain ⟨_, _, fits, _⟩ := validateWorkspaceName_eq_ok.mp accepted
    exact ⟨slugify_matches (validateWorkspaceSlug_eq_ok.mp registered).1,
      (slugify_length name).trans fits⟩

theorem slug_normal_form_acme :
    (slugify "--" = "" ∨ (slugify "--").toList ∈ slugPattern.matches') ∧
      (slugify "Acme Corp").toList ∈ slugPattern.matches' ∧ (slugify "Acme Corp").length ≤ 255 :=
  ⟨(slug_normal_form.1 "--").1,
    slug_normal_form.2 " Acme  Corp" "Acme Corp" (by decide) (by decide)⟩

/-- The slug is no reserved one, and no reserved name either. -/
structure Unreserved (slug : String) : Prop where
  nonempty : slug ≠ ""
  slugs : slug ∉ reservedWorkspaceSlugs
  names : slug ∉ reservedWorkspaceNames

/-- The reserved names that are not among the reserved slugs. -/
def overlookedNames : List String := ["owner", "member", "signup"]

theorem overlookedNames_eq :
    overlookedNames = reservedWorkspaceNames.filter (· ∉ reservedWorkspaceSlugs) := by decide

/-- A slug is this word when its text spells it. -/
theorem slugify_eq_word {word : String} (single : split isSeparator word.toList = [word.toList]) :
    slugify value = word ↔ slugWords value = [word.toList] := by
  have read : split isSeparator (joined '-' (slugWords value)) = slugWords value :=
    split_joined (by decide) (split_words _)
  rw [slugify_eq]
  constructor
  · intro same
    have letters := congrArg String.toList same
    rw [String.toList_ofList] at letters
    rw [← read, letters, single]
  · intro spelled
    rw [spelled, joined, String.ofList_toList]

theorem overlooked_iff {word : String} (overlooked : word ∈ overlookedNames) :
    slugify value = word ↔ slugWords value = [word.toList] := by
  have single : ∀ word ∈ overlookedNames, split isSeparator word.toList = [word.toList] := by decide
  exact slugify_eq_word (single word overlooked)

/-- Whether or not the name has passed its own check before. -/
theorem unreserved_iff (registered : validateWorkspaceSlug (slugify name) = .ok ()) :
    Unreserved (slugify name) ↔ slugWords name ∉ overlookedNames.map fun word => [word.toList] := by
  obtain ⟨nonempty, free⟩ := validateWorkspaceSlug_eq_ok.mp registered
  constructor
  · intro unreserved spelled
    obtain ⟨word, overlooked, same⟩ := List.mem_map.mp spelled
    have slug : slugify name = word := (overlooked_iff overlooked).mpr same.symm
    rw [overlookedNames_eq] at overlooked
    exact unreserved.names (slug ▸ (List.mem_filter.mp overlooked).1)
  · intro unspelled
    refine ⟨nonempty, free, ?_⟩
    intro reserved
    have overlooked : slugify name ∈ overlookedNames := by
      rw [overlookedNames_eq]
      exact List.mem_filter.mpr ⟨reserved, by simpa using free⟩
    apply unspelled
    exact List.mem_map.mpr ⟨_, overlooked, ((overlooked_iff overlooked).mp rfl).symm⟩

theorem unreserved_iff_acme :
    Unreserved (slugify "Acme") ↔
      slugWords "Acme" ∉ overlookedNames.map fun word => [word.toList] :=
  @unreserved_iff "Acme" (by decide)

/-- `Owner!` is not on the one list, and its slug is not on the other. -/
theorem reserved_name_accepted : validateWorkspaceName "Owner!" = .ok "Owner!" ∧
    validateWorkspaceSlug (slugify "Owner!") = .ok () ∧ ¬ Unreserved (slugify "Owner!") := by
  refine ⟨by decide, by decide, ?_⟩
  intro unreserved
  exact unreserved.names (by decide)

end Slugs

end Relays
