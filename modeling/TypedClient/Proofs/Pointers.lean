import Mathlib.Data.List.Infix
import TypedClient.Schema.Reference

/-!
# References as pointers

A name is written as one token of a pointer: a tilde and a slash are escaped. Reading a reference
undoes this for every name, since the escape of the slash is undone first. What is read is the rest
after the section, when it is a token.
-/

namespace TypedClient.Schema

namespace Pointer

variable {a b c x y : Char} {cs : List Char}

/-! ## Replacing a pair -/

theorem replacePair_pair : replacePair a b c (a :: b :: cs) = c :: replacePair a b c cs := by
  rw [replacePair, if_pos ⟨rfl, rfl⟩]

theorem replacePair_cons_of_ne (h : x ≠ a) :
    replacePair a b c (x :: cs) = x :: replacePair a b c cs := by
  cases cs with
  | nil => rfl
  | cons y cs => rw [replacePair, if_neg fun hpair => h hpair.1]

theorem replacePair_cons_cons_of_ne (h : y ≠ b) :
    replacePair a b c (x :: y :: cs) = x :: replacePair a b c (y :: cs) := by
  rw [replacePair, if_neg fun hpair => h hpair.2]

/-! ## Escaping -/

/-- Escapes the tilde only. -/
def escapeTildes : List Char → List Char
  | [] => []
  | '~' :: cs => '~' :: '0' :: escapeTildes cs
  | c :: cs => c :: escapeTildes cs

theorem escapeTildes_cons_of_ne (h : x ≠ '~') : escapeTildes (x :: cs) = x :: escapeTildes cs := by
  rw [escapeTildes]
  exact h

theorem escape_cons_of_ne (htilde : x ≠ '~') (hslash : x ≠ '/') :
    escape (x :: cs) = x :: escape cs := by
  rw [escape]
  · exact htilde
  · exact hslash

/-- Each tilde that is written is followed by what it stands for, so that no other pair is taken for
the escape of a slash. -/
theorem replacePair_escape (name : List Char) :
    replacePair '~' '1' '/' (escape name) = escapeTildes name := by
  induction name with
  | nil => rfl
  | cons x name ih =>
    by_cases htilde : x = '~'
    · subst htilde
      rw [escape, escapeTildes, replacePair_cons_cons_of_ne (by decide),
        replacePair_cons_of_ne (by decide), ih]
    · by_cases hslash : x = '/'
      · subst hslash
        rw [escape, escapeTildes_cons_of_ne htilde, replacePair_pair, ih]
      · rw [escape_cons_of_ne htilde hslash, escapeTildes_cons_of_ne htilde,
          replacePair_cons_of_ne htilde, ih]

theorem replacePair_escapeTildes (name : List Char) :
    replacePair '~' '0' '~' (escapeTildes name) = name := by
  induction name with
  | nil => rfl
  | cons x name ih =>
    by_cases htilde : x = '~'
    · subst htilde
      rw [escapeTildes, replacePair_pair, ih]
    · rw [escapeTildes_cons_of_ne htilde, replacePair_cons_of_ne htilde, ih]

theorem unescape_escape (name : List Char) : unescape (escape name) = name := by
  rw [unescape, replacePair_escape, replacePair_escapeTildes]

theorem slash_not_mem_escape (name : List Char) : '/' ∉ escape name := by
  fun_induction escape name with simp_all [eq_comm]

theorem escape_eq_nil_iff {name : List Char} : escape name = [] ↔ name = [] := by
  fun_cases escape name with simp

end Pointer

/-! ## References -/

namespace ReferenceKind

variable {kind : ReferenceKind} {reference name : String} {token : List Char}

/-- No section of a kind is the beginning of another one. -/
theorem eq_of_isPrefix : ∀ s ∈ kind.sections, ∀ t ∈ kind.sections,
    s.toList <+: t.toList → s = t := by
  cases kind <;> decide

/-- The rest after the section, whichever of the sections is written. -/
theorem findSome?_sections_iff :
    kind.sections.findSome? (fun s => s.toList.isPrefixOf? reference.toList) = some token ↔
      ∃ s ∈ kind.sections, reference.toList = s.toList ++ token := by
  constructor
  · intro h
    obtain ⟨s, hs, hrest⟩ := List.exists_of_findSome?_eq_some h
    exact ⟨s, hs, (List.isPrefixOf?_eq_some_iff_append_eq.1 hrest).symm⟩
  · rintro ⟨s, hs, hreference⟩
    have hrest : s.toList.isPrefixOf? reference.toList = some token :=
      List.isPrefixOf?_eq_some_iff_append_eq.2 hreference.symm
    -- if another section comes first, then one of the two is part of the other
    obtain ⟨token', hfound⟩ : ∃ token', kind.sections.findSome?
        (fun s => s.toList.isPrefixOf? reference.toList) = some token' := by
      rw [← Option.isSome_iff_exists, List.findSome?_isSome_iff]
      exact ⟨s, hs, Option.isSome_of_eq_some hrest⟩
    obtain ⟨t, ht, hrest'⟩ := List.exists_of_findSome?_eq_some hfound
    have hreference' := List.isPrefixOf?_eq_some_iff_append_eq.1 hrest'
    have hst : s = t := by
      rcases List.prefix_or_prefix_of_prefix ⟨token, hreference.symm⟩ ⟨token', hreference'⟩ with h | h
      · exact eq_of_isPrefix s hs t ht h
      · exact (eq_of_isPrefix t ht s hs h).symm
    rw [hfound, ← hrest', ← hst, hrest]

theorem target?_eq_some_iff : kind.target? reference = some name ↔
    ∃ s ∈ kind.sections, ∃ token, reference.toList = s.toList ++ token ∧ token ≠ [] ∧
      '/' ∉ token ∧ String.ofList (Pointer.unescape token) = name := by
  rw [target?]
  constructor
  · intro h
    split at h
    · rename_i token hfound
      obtain ⟨s, hs, hreference⟩ := findSome?_sections_iff.1 hfound
      split at h
      · cases h
      · rename_i htoken
        rw [Bool.or_eq_true, not_or, List.isEmpty_iff, List.contains_iff_mem] at htoken
        exact ⟨s, hs, token, hreference, htoken.1, htoken.2, Option.some.inj h⟩
    · cases h
  · rintro ⟨s, hs, token, hreference, hne, hslash, rfl⟩
    rw [findSome?_sections_iff.2 ⟨s, hs, hreference⟩]
    simp [hne, hslash]

theorem target_eq_ok_iff {place : Location} :
    kind.target reference place = .ok name ↔ kind.target? reference = some name := by
  rw [target]
  cases kind.target? reference <;> simp

/-- A reference is read exactly when it is a section with one token after it, and then a name is read
as it was written. -/
theorem target_pointers (kind : ReferenceKind) (place : Location) :
    (∀ s ∈ kind.sections, ∀ name, name ≠ "" →
      kind.target (s ++ String.ofList (Pointer.escape name.toList)) place = .ok name) ∧
    ∀ reference, (∃ name, kind.target reference place = .ok name) ↔
      ∃ s ∈ kind.sections, ∃ token, reference = s ++ token ∧ token ≠ "" ∧ '/' ∉ token.toList := by
  simp only [target_eq_ok_iff, target?_eq_some_iff]
  constructor
  · intro s hs name hname
    refine ⟨s, hs, Pointer.escape name.toList, ?_, ?_, Pointer.slash_not_mem_escape _, ?_⟩
    · rw [String.toList_append, String.toList_ofList]
    · rw [ne_eq, Pointer.escape_eq_nil_iff, String.toList_eq_nil_iff]
      exact hname
    · rw [Pointer.unescape_escape, String.ofList_toList]
  · intro reference
    constructor
    · rintro ⟨name, s, hs, token, hreference, hne, hslash, -⟩
      refine ⟨s, hs, String.ofList token, ?_, ?_, ?_⟩
      · rw [← String.toList_inj, hreference, String.toList_append, String.toList_ofList]
      · rwa [ne_eq, ← String.toList_eq_nil_iff, String.toList_ofList]
      · rwa [String.toList_ofList]
    · rintro ⟨s, hs, token, rfl, hne, hslash⟩
      refine ⟨_, s, hs, token.toList, String.toList_append, ?_, hslash, rfl⟩
      rwa [ne_eq, String.toList_eq_nil_iff]

/-- The name `~1` is written with its tilde escaped, and is not taken for an escaped slash. -/
theorem tilde_one_read : "#/components/schemas/" ∈ ReferenceKind.schema.sections ∧ "~1" ≠ "" ∧
    String.ofList (Pointer.escape "~1".toList) = "~01" ∧
    ReferenceKind.schema.target "#/components/schemas/~01" .root = .ok "~1" := by
  have hsection : "#/components/schemas/" ∈ ReferenceKind.schema.sections := by decide
  have hname : "~1" ≠ "" := by decide
  have hescape : String.ofList (Pointer.escape "~1".toList) = "~01" := by decide
  refine ⟨hsection, hname, hescape, ?_⟩
  have hread := (target_pointers .schema .root).1 _ hsection _ hname
  rwa [hescape] at hread

end ReferenceKind

end TypedClient.Schema
