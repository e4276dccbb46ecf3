import TypedClient.Proofs.Conversion.Catalog
import TypedClient.Proofs.Source.Names

/-!
# Naming

Hoisted definitions and the identifiers of a scope get their names in the same way, from different
candidates: a name is the first candidate that is free, and is taken from then on. So a search for a
name comes to an end, and no two names of a run are the same.
-/

namespace TypedClient

open Schema (Catalog Conversion)
open Schema.Catalog (hoistBase)
open Source (candidate distinctFrom)

theorem run_claim (c : Catalog) (place : String) :
    (Conversion.claim place).run c = (.ok (c.claim place).1, (c.claim place).2) := rfl

/-- Claiming names for several places changes nothing of the catalog but the names that are taken. -/
theorem run_mapM_claim (c : Catalog) (places : List String) : ∃ names,
    (places.mapM Conversion.claim).run c = (.ok names, { c with taken := names.reverse ++ c.taken }) ∧
    GivenNames c.taken (places.map fun place => numbered (hoistBase place)) names := by
  induction places generalizing c with
  | nil => exact ⟨[], rfl, .nil⟩
  | cons place places ih =>
    obtain ⟨names, hrun, hnames⟩ := ih (c.claim place).2
    refine ⟨(c.claim place).1 :: names, ?_, .cons (c.firstFree_claim place) hnames⟩
    rw [List.mapM_cons, run_bind_of_ok (run_claim c place), run_bind_of_ok hrun, List.reverse_cons,
      List.append_assoc]
    rfl

/-- A name is given without a change to anything but the names that are taken, to which it is added. It
is the first candidate that is free, so the base itself if that is. Names that are given one after the
other differ from each other and from those that were taken before. All this holds of the names of hoisted
definitions and of the identifiers of a scope. -/
theorem names_given_fresh :
    (∀ (c : Catalog) (place : String), ∃ name,
      c.claim place = (name, { c with taken := name :: c.taken }) ∧
      FirstFree c.taken (numbered (hoistBase place)) name ∧
      (hoistBase place ∉ c.taken → name = hoistBase place)) ∧
    (∀ (suffix : String) (taken : List String) (base : String) (bases : List String), ∃ name,
      distinctFrom suffix taken (base :: bases) = name :: distinctFrom suffix (name :: taken) bases ∧
      FirstFree taken (candidate base suffix) name ∧ (base ∉ taken → name = base)) ∧
    (∀ (c : Catalog) (places : List String), ∃ names,
      (places.mapM Conversion.claim).run c =
        (.ok names, { c with taken := names.reverse ++ c.taken }) ∧
      GivenNames c.taken (places.map fun place => numbered (hoistBase place)) names ∧
      names.Nodup ∧ ∀ name ∈ names, name ∉ c.taken) ∧
    ∀ (suffix : String) (taken bases : List String),
      GivenNames taken (bases.map (candidate · suffix)) (distinctFrom suffix taken bases) ∧
      (distinctFrom suffix taken bases).Nodup ∧ ∀ name ∈ distinctFrom suffix taken bases, name ∉ taken := by
  refine ⟨fun c place => ?_, fun suffix taken base bases => ?_, fun c places => ?_,
    fun suffix taken bases => ?_⟩
  · have hfirst := c.firstFree_claim place
    exact ⟨(c.claim place).1, rfl, hfirst, hfirst.eq_of_free⟩
  · have hfirst := firstFree_freshName taken (Source.candidate_succ_injective base suffix)
    exact ⟨_, rfl, hfirst, hfirst.eq_of_free⟩
  · obtain ⟨names, hrun, hnames⟩ := run_mapM_claim c places
    exact ⟨names, hrun, hnames, hnames.nodup, hnames.not_mem⟩
  · have hnames := Source.givenNames_distinctFrom suffix taken bases
    exact ⟨hnames, hnames.nodup, hnames.not_mem⟩

/-- The name of the definition that was declared is kept. -/
example :
    ((["Pet_tags", "PetTags", "200"].mapM Conversion.claim).run (.withNames ["PetTags"])).1 =
      .ok ["PetTags2", "PetTags3", "Inline200"] := by
  decide +kernel

end TypedClient
