import Mathlib.Data.Finset.Card
import Mathlib.Data.Finset.Range
import TypedClient.OpenApi.Conversion
import TypedClient.Proofs.OrderedMap
import TypedClient.Proofs.Run

/-!
# Chains of references

A reference may lead to a component that is a reference again. Following such a chain takes a limited
number of steps, and one that takes more is given up as endless. This is right if there are fewer
components than steps: then no chain is that long without meeting a reference twice.
-/

namespace TypedClient.OpenApi

open TypedClient.Schema (Catalog Conversion ReferenceKind)

section Chains

variable {α : Type} (components : List (String × OrReference α)) (kind : ReferenceKind)

/-- The component that a reference leads to. An item leads nowhere. -/
def OrReference.next? : OrReference α → Option (OrReference α)
  | .item _      => none
  | .reference r => (kind.target? r).bind fun name => components.lookup name

/-- What is reached in so many steps. -/
def OrReference.after? : Nat → OrReference α → Option (OrReference α)
  | 0,     x => some x
  | n + 1, x => (x.next? components kind).bind (OrReference.after? n)

/-- A reference is met twice on the way. -/
def OrReference.Revisits (x : OrReference α) : Prop :=
  ∃ r i j, i < j ∧ x.after? components kind i = some (.reference r) ∧
    x.after? components kind j = some (.reference r)

variable {components kind} {x y : OrReference α} {a : α} {m n : Nat} {l : Location} {c : Catalog}

/-! ## Steps -/

theorem after?_add : x.after? components kind (m + n) =
    (x.after? components kind m).bind (·.after? components kind n) := by
  induction m generalizing x with
  | zero => rw [Nat.zero_add, OrReference.after?, Option.bind_some]
  | succ m ih => simp only [Nat.succ_add, OrReference.after?, ih, Option.bind_assoc]

theorem isSome_after?_of_le (h : (x.after? components kind n).isSome) (hle : m ≤ n) :
    (x.after? components kind m).isSome := by
  obtain ⟨k, rfl⟩ := Nat.exists_eq_add_of_le hle
  rw [after?_add] at h
  exact Option.isSome_of_isSome_bind h

/-- A step goes from a reference to the component that it names. -/
theorem exists_step (h : (x.after? components kind (n + 1)).isSome) : ∃ r name,
    x.after? components kind n = some (.reference r) ∧ kind.target? r = some name ∧
    components.lookup name = x.after? components kind (n + 1) := by
  rw [after?_add] at h ⊢
  obtain ⟨y, hy⟩ := Option.isSome_iff_exists.1 (Option.isSome_of_isSome_bind h)
  rw [hy, Option.bind_some] at h ⊢
  cases y with
  | item a => cases h
  | reference r =>
    obtain ⟨next, hnext⟩ := Option.isSome_iff_exists.1 (Option.isSome_of_isSome_bind h)
    obtain ⟨name, htarget, hlookup⟩ := Option.bind_eq_some_iff.1 hnext
    refine ⟨r, name, rfl, htarget, ?_⟩
    rw [OrReference.after?, hnext, hlookup]
    rfl

/-- A chain stops in one place only. -/
theorem le_of_next?_eq_none (hy : x.after? components kind m = some y)
    (hnext : y.next? components kind = none) (h : (x.after? components kind n).isSome) : n ≤ m := by
  by_contra hlt
  obtain ⟨k, rfl⟩ := Nat.exists_eq_add_of_lt (Nat.lt_of_not_le hlt)
  have hstep : y.after? components kind (k + 1) = none := by rw [OrReference.after?, hnext]; rfl
  rw [Nat.add_assoc, after?_add, hy, Option.bind_some, hstep] at h
  cases h

/-! ## Endless chains -/

/-- After the first return the chain goes through the same references again. -/
theorem isSome_after?_of_revisits (h : x.Revisits components kind) (n : Nat) :
    (x.after? components kind n).isSome := by
  obtain ⟨r, i, j, hij, hi, hj⟩ := h
  induction n using Nat.strong_induction_on with
  | _ n ih =>
    rcases Nat.le_total n j with hle | hle
    · exact isSome_after?_of_le (Option.isSome_of_eq_some hj) hle
    · obtain ⟨k, rfl⟩ := Nat.exists_eq_add_of_le hle
      have hback : x.after? components kind (j + k) = x.after? components kind (i + k) := by
        rw [after?_add, after?_add, hi, hj]
      rw [hback]
      exact ih (i + k) (by omega)

/-- A chain that makes more steps than there are components goes to some component twice. -/
theorem revisits_of_isSome (h : (x.after? components kind n).isSome)
    (hlength : components.length < n) : x.Revisits components kind := by
  have hstep : ∀ i < n, ∃ name, components.lookup name = x.after? components kind (i + 1) := by
    intro i hi
    obtain ⟨-, name, -, -, hlookup⟩ := exists_step (isSome_after?_of_le h hi)
    exact ⟨name, hlookup⟩
  choose! name hlookup using hstep
  have hrepeat : ∀ i j, i < j → j < n → name i = name j → x.Revisits components kind := by
    intro i j hij hj heq
    have hsame : x.after? components kind (i + 1) = x.after? components kind (j + 1) := by
      rw [← hlookup i (by omega), heq, hlookup j hj]
    -- the chain goes on from the first of the two visits, which is therefore at a reference
    obtain ⟨r, -, hr, -⟩ := exists_step (isSome_after?_of_le h (show i + 1 + 1 ≤ n by omega))
    exact ⟨r, i + 1, j + 1, by omega, hr, hsame ▸ hr⟩
  have hmem : ∀ i ∈ Finset.range n, name i ∈ (components.map Prod.fst).toFinset := by
    intro i hi
    have hi := Finset.mem_range.1 hi
    obtain ⟨next, hnext⟩ := Option.isSome_iff_exists.1 (isSome_after?_of_le h hi)
    have hentry := OrderedMap.mem_of_lookup_eq_some ((hlookup i hi).trans hnext)
    exact List.mem_toFinset.2 (List.mem_map_of_mem hentry)
  have hcard : (components.map Prod.fst).toFinset.card < (Finset.range n).card := by
    rw [Finset.card_range]
    exact (List.toFinset_card_le _).trans_lt ((List.length_map _).trans_lt hlength)
  obtain ⟨i, hi, j, hj, hne, heq⟩ := Finset.exists_ne_map_eq_of_card_lt_of_maps_to hcard hmem
  rw [Finset.mem_range] at hi hj
  rcases Nat.lt_or_gt_of_ne hne with hlt | hlt
  · exact hrepeat i j hlt hj heq
  · exact hrepeat j i hlt hi heq.symm

/-! ## Following a chain -/

/-- What is made of the place where a chain stops. -/
def OrReference.stopped (kind : ReferenceKind) (l : Location) : OrReference α → Except Failure α
  | .item a      => .ok a
  | .reference r =>
    match kind.target? r with
    | none      => .error (.malformed l (.reference r))
    | some name => .error (.malformed l (.unknownComponent name))

/-- It ends in `o` to follow a chain for so many steps at most. -/
inductive Ends (components : List (String × OrReference α)) (kind : ReferenceKind) (l : Location)
    (n : Nat) (x : OrReference α) (o : Except Failure α) : Prop where
  | stops {m : Nat} {y : OrReference α} (hm : m < n) (hy : x.after? components kind m = some y)
      (hnext : y.next? components kind = none) (ho : y.stopped kind l = o)
  | endless (h : (x.after? components kind n).isSome)
      (ho : .error (.malformed l .endlessReferences) = o)

theorem Ends.unique {o o' : Except Failure α} (h : Ends components kind l n x o)
    (h' : Ends components kind l n x o') : o = o' := by
  cases h with
  | stops hm hy hnext ho =>
    cases h' with
    | stops hm' hy' hnext' ho' =>
      have hle := le_of_next?_eq_none hy hnext (Option.isSome_of_eq_some hy')
      have hle' := le_of_next?_eq_none hy' hnext' (Option.isSome_of_eq_some hy)
      cases Nat.le_antisymm hle hle'
      cases hy.symm.trans hy'
      exact ho.symm.trans ho'
    | endless h' => exact absurd (le_of_next?_eq_none hy hnext h') (Nat.not_le_of_lt hm)
  | endless h ho =>
    cases h' with
    | stops hm' hy' hnext' => exact absurd (le_of_next?_eq_none hy' hnext' h) (Nat.not_le_of_lt hm')
    | endless _ ho' => exact ho.symm.trans ho'

/-- With one reference before it the chain ends in the same way, one step later. -/
theorem Ends.cons {r : String} {o : Except Failure α}
    (hnext : (OrReference.reference r).next? components kind = some y)
    (h : Ends components kind l n y o) : Ends components kind l (n + 1) (.reference r) o := by
  have hafter (k : Nat) : (OrReference.reference r).after? components kind (k + 1) =
      y.after? components kind k := by
    rw [OrReference.after?, hnext, Option.bind_some]
  cases h with
  | stops hm hy hstop ho => exact .stops (Nat.succ_lt_succ hm) ((hafter _).trans hy) hstop ho
  | endless h ho => exact .endless (by rwa [hafter]) ho

/-- The catalog is left as it is. -/
theorem exists_ends (components : List (String × OrReference α)) (kind : ReferenceKind) (l : Location)
    (n : Nat) (x : OrReference α) (c : Catalog) : ∃ o,
    (followWithin components kind l n x).run c = (o, c) ∧ Ends components kind l n x o := by
  induction n generalizing x with
  | zero => exact ⟨_, by cases x <;> rfl, .endless rfl rfl⟩
  | succ n ih =>
    cases x with
    | item a => exact ⟨.ok a, rfl, .stops (Nat.succ_pos n) rfl rfl rfl⟩
    | reference r =>
      rw [followWithin, Conversion.target, ReferenceKind.target]
      cases htarget : kind.target? r with
      | none =>
        refine ⟨_, rfl, .stops (Nat.succ_pos n) rfl ?_ ?_⟩
        · rw [OrReference.next?, htarget, Option.bind_none]
        · rw [OrReference.stopped, htarget]
      | some name =>
        dsimp only [Conversion.target.liftExcept]
        rw [pure_bind]
        cases hlookup : components.lookup name with
        | none =>
          refine ⟨_, rfl, .stops (Nat.succ_pos n) rfl ?_ ?_⟩
          · rw [OrReference.next?, htarget, Option.bind_some, hlookup]
          · rw [OrReference.stopped, htarget]
        | some next =>
          obtain ⟨o, hrun, hends⟩ := ih next
          exact ⟨o, hrun, hends.cons (Option.bind_eq_some_iff.2 ⟨name, htarget, hlookup⟩)⟩

theorem run_followWithin_iff {o : Except Failure α} :
    (followWithin components kind l n x).run c = (o, c) ↔ Ends components kind l n x o := by
  obtain ⟨o', hrun, hends⟩ := exists_ends components kind l n x c
  rw [hrun]
  constructor
  · intro h
    cases h
    exact hends
  · intro h
    rw [h.unique hends]

theorem stopped_eq_ok_iff : y.stopped kind l = .ok a ↔ y = .item a := by
  cases y with
  | item b => simp [OrReference.stopped]
  | reference r =>
    rw [OrReference.stopped]
    split <;> simp

theorem stopped_ne_endless : y.stopped kind l ≠ .error (.malformed l .endlessReferences) := by
  cases y with
  | item b => simp [OrReference.stopped]
  | reference r =>
    rw [OrReference.stopped]
    split <;> simp

theorem ends_ok_iff : Ends components kind l n x (.ok a) ↔
    ∃ m < n, x.after? components kind m = some (.item a) := by
  constructor
  · rintro (⟨hm, hy, -, ho⟩ | ⟨-, ho⟩)
    · exact ⟨_, hm, stopped_eq_ok_iff.1 ho ▸ hy⟩
    · cases ho
  · rintro ⟨m, hm, ha⟩
    exact .stops hm ha rfl rfl

theorem ends_endless_iff : Ends components kind l n x (.error (.malformed l .endlessReferences)) ↔
    (x.after? components kind n).isSome := by
  constructor
  · rintro (⟨-, -, -, ho⟩ | ⟨h, -⟩)
    · exact absurd ho stopped_ne_endless
    · exact h
  · exact fun h => .endless h rfl

/-- An item that is found is what the chain ends in. -/
theorem wp_follow (components : List (String × OrReference α)) (kind : ReferenceKind) (l : Location)
    (x : OrReference α) (c : Catalog) :
    wp (follow components kind l x) c
      (fun a c' => c' = c ∧ ∃ n < stepLimit, x.after? components kind n = some (.item a))
      fun _ _ => True := by
  obtain ⟨o, hrun, hends⟩ := exists_ends components kind l stepLimit x c
  rw [wp, follow, hrun]
  cases o with
  | ok a => exact ⟨rfl, ends_ok_iff.1 hends⟩
  | error e => trivial

/-- A chain is followed to its item if it makes fewer steps than the limit, and given up as endless if
it makes that many, whether or not it ends. All chains that return to a reference are given up. Where
there are fewer components than that, no other chain is, and each one that ends in an item is
followed. -/
theorem chain_followed (components : List (String × OrReference α)) (kind : ReferenceKind)
    (l : Location) (x : OrReference α) (c : Catalog) :
    (∀ a, (follow components kind l x).run c = (.ok a, c) ↔
      ∃ n < stepLimit, x.after? components kind n = some (.item a)) ∧
    ((follow components kind l x).run c = (.error (.malformed l .endlessReferences), c) ↔
      (x.after? components kind stepLimit).isSome) ∧
    (x.Revisits components kind →
      (follow components kind l x).run c = (.error (.malformed l .endlessReferences), c)) ∧
    (components.length < stepLimit →
      (∀ n a, x.after? components kind n = some (.item a) →
        (follow components kind l x).run c = (.ok a, c)) ∧
      ((follow components kind l x).run c = (.error (.malformed l .endlessReferences), c) →
        x.Revisits components kind)) := by
  simp only [follow, run_followWithin_iff, ends_ok_iff, ends_endless_iff]
  refine ⟨fun _ => trivial, trivial, fun h => isSome_after?_of_revisits h _, fun hfew => ⟨?_, ?_⟩⟩
  · intro n a ha
    refine ⟨n, ?_, ha⟩
    -- a chain that stops after that many steps would have returned before, and so would not stop
    by_contra hlong
    have hlong := isSome_after?_of_le (Option.isSome_of_eq_some ha) (Nat.le_of_not_lt hlong)
    have hendless := isSome_after?_of_revisits (revisits_of_isSome hlong hfew) (n + 1)
    exact absurd (le_of_next?_eq_none ha rfl hendless) (Nat.not_succ_le_self n)
  · exact fun h => revisits_of_isSome h hfew

end Chains

/-! ## Rows of responses -/

/-- Responses under the names given, each of which is a reference to the next one but for the last. -/
def rowOfResponses : List String → List (String × OrReference Response)
  | []                   => []
  | [name]               => [(name, .item ⟨[]⟩)]
  | name :: next :: rest =>
    (name, .reference ("#/components/responses/" ++ next)) :: rowOfResponses (next :: rest)

def shortRow : List (String × OrReference Response) := rowOfResponses ["a", "b", "c"]

def longRow : List (String × OrReference Response) :=
  rowOfResponses ["a", "b", "c", "d", "e", "f", "g", "h"]

/-- A response that is a reference to itself. -/
def ring : List (String × OrReference Response) := [("a", .reference "#/components/responses/a")]

def firstOfRow : OrReference Response := .reference "#/components/responses/a"

/-- A short row is followed to its last response, and a ring is endless. -/
theorem shortRow_followed : shortRow.length < stepLimit ∧
    firstOfRow.after? shortRow .response 3 = some (.item ⟨[]⟩) ∧
    (follow shortRow .response .root firstOfRow).run (.withNames []) = (.ok ⟨[]⟩, .withNames []) ∧
    firstOfRow.Revisits ring .response ∧
    (follow ring .response .root firstOfRow).run (.withNames []) =
      (.error (.malformed .root .endlessReferences), .withNames []) := by
  have hfew : shortRow.length < stepLimit := by decide
  have hends : firstOfRow.after? shortRow .response 3 = some (.item ⟨[]⟩) := rfl
  have hrevisits : firstOfRow.Revisits ring .response :=
    ⟨"#/components/responses/a", 0, 1, Nat.zero_lt_one, rfl, rfl⟩
  obtain ⟨-, -, -, hfollowed⟩ :=
    chain_followed shortRow .response .root firstOfRow (Catalog.withNames [])
  obtain ⟨-, -, hendless, -⟩ := chain_followed ring .response .root firstOfRow (Catalog.withNames [])
  exact ⟨hfew, hends, (hfollowed hfew).1 3 _ hends, hrevisits, hendless hrevisits⟩

/-- A row of eight responses ends and returns nowhere, and yet is given up as endless. -/
theorem longRow_not_followed : firstOfRow.after? longRow .response 8 = some (.item ⟨[]⟩) ∧
    ¬ firstOfRow.Revisits longRow .response ∧
    (follow longRow .response .root firstOfRow).run (.withNames []) =
      (.error (.malformed .root .endlessReferences), .withNames []) := by
  have hends : firstOfRow.after? longRow .response 8 = some (.item ⟨[]⟩) := rfl
  refine ⟨hends, fun hrevisits => ?_, ?_⟩
  · exact absurd (isSome_after?_of_revisits hrevisits 9) (by decide)
  · exact run_followWithin_iff.2 (.endless (Option.isSome_of_eq_some hends) rfl)

end TypedClient.OpenApi
