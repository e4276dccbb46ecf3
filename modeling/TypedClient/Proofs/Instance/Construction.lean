import Mathlib.Data.List.Nodup
import TypedClient.Model.Instance
import TypedClient.Proofs.Data.Entries
import TypedClient.Proofs.OrderedMap
import TypedClient.Proofs.Run

/-!
# Making instances

Arguments go to fields by their position. An instance is made when there is an argument for each field
and no field that needs a value is left without one; it holds the values that were given, each under
the name of its field.
-/

namespace TypedClient

/-! ## Entries under texts -/

namespace Data

variable {entries : List (String × Data)}

/-- Values under texts, as a mapping has them. -/
def textEntries (entries : List (String × Data)) : List (Data × Data) :=
  entries.map fun e => (.text e.1, e.2)

theorem lookup_textEntries (key : String) (entries : List (String × Data)) :
    lookup key (textEntries entries) = entries.lookup key := by
  induction entries with
  | nil => rfl
  | cons e entries ih =>
    simp only [textEntries, List.map_cons, lookup, OrderedMap.lookup_cons_eq_if, eq_comm (a := key)]
    split
    · rfl
    · exact ih

theorem distinct_textEntries (h : (entries.map Prod.fst).Nodup) : Distinct (textEntries entries) := by
  rw [List.Nodup, List.pairwise_map] at h
  refine List.pairwise_map.2 (h.imp fun hne => ?_)
  simpa [sameKey] using hne

/-- Entries under distinct names are put one after the other. -/
theorem putAll_textEntries (h : (entries.map Prod.fst).Nodup) :
    putAll [] (textEntries entries) = textEntries entries :=
  putAll_of_distinct (distinct_textEntries h)

end Data

/-! ## Arguments -/

namespace Model

variable {m : Model} {args : List (Option Data)} {pairs : List (Field × Option Data)} {f : Field}
  {value instance_ : Data} {e : ConstructFault} {key : String}

/-- The fields that have a value, each with its value, in the order of their declaration. -/
def given (pairs : List (Field × Option Data)) : List (Field × Data) :=
  pairs.filterMap fun p => p.2.map (p.1, ·)

/-- The values that are given, each under the name of its field. -/
def namedValues (pairs : List (Field × Option Data)) : List (String × Data) :=
  (given pairs).map fun g => (g.1.name, g.2)

/-- The field needs a value and has none. -/
def lacksValue (p : Field × Option Data) : Bool := p.2.isNone && !p.1.isOptional

theorem mem_given_iff : (f, value) ∈ given pairs ↔ (f, some value) ∈ pairs := by
  simp only [given, List.mem_filterMap, Option.map_eq_some_iff, Prod.mk.injEq, Prod.exists]
  constructor
  · rintro ⟨_, _, hmem, _, rfl, rfl, rfl⟩
    exact hmem
  · intro hmem
    exact ⟨f, some value, hmem, value, rfl, rfl, rfl⟩

theorem find?_lacksValue_eq_none_iff : pairs.find? lacksValue = none ↔
    ∀ f, (f, none) ∈ pairs → f.type.isNullable = true := by
  rw [List.find?_eq_none]
  constructor
  · intro h f hmem
    simpa [lacksValue, Field.isOptional] using h _ hmem
  · rintro h ⟨f, arg⟩ hmem
    cases arg with
    | none => simpa [lacksValue, Field.isOptional] using h f hmem
    | some value => simp [lacksValue]

theorem entries_eq (model : String) (pairs : List (Field × Option Data)) :
    entries model pairs =
      match pairs.find? lacksValue with
      | some p => .error (.missing model p.1.name)
      | none   => .ok (namedValues pairs) := by
  induction pairs with
  | nil => rfl
  | cons p pairs ih =>
    obtain ⟨f, arg⟩ := p
    cases arg with
    | some value =>
      have hgiven : namedValues ((f, some value) :: pairs) = (f.name, value) :: namedValues pairs := rfl
      simp only [entries, ih, List.find?_cons, lacksValue, Option.isNone_some, Bool.false_and, hgiven]
      cases pairs.find? lacksValue <;> rfl
    | none =>
      have hgiven : namedValues ((f, none) :: pairs) = namedValues pairs := rfl
      simp only [entries, ih, List.find?_cons, lacksValue, Option.isNone_none, Bool.true_and, hgiven]
      cases f.isOptional <;> rfl

/-! ## Instances -/

/-- What the fields hold that are given a value. -/
def instanceOf (m : Model) (args : List (Option Data)) : Data :=
  .mapping (Data.textEntries (namedValues (m.fields.zip args)))

theorem names_namedValues_sublist (pairs : List (Field × Option Data)) :
    ((namedValues pairs).map Prod.fst).Sublist ((pairs.map Prod.fst).map (·.name)) := by
  induction pairs with
  | nil => exact .slnil
  | cons p pairs ih =>
    obtain ⟨f, arg⟩ := p
    cases arg with
    | none => exact ih.cons _
    | some value => exact ih.cons_cons _

theorem nodup_namedValues (hdistinct : (m.fields.map (·.name)).Nodup)
    (hlength : args.length = m.fields.length) :
    ((namedValues (m.fields.zip args)).map Prod.fst).Nodup := by
  have hsublist := names_namedValues_sublist (m.fields.zip args)
  rw [List.map_fst_zip (Nat.le_of_eq hlength.symm)] at hsublist
  exact hdistinct.sublist hsublist

theorem construct_eq (hdistinct : (m.fields.map (·.name)).Nodup) (args : List (Option Data)) :
    m.construct args =
      if args.length ≠ m.fields.length then .error (.arity m.name m.fields.length args.length)
      else
        match (m.fields.zip args).find? lacksValue with
        | some p => .error (.missing m.name p.1.name)
        | none   => .ok (m.instanceOf args) := by
  rw [construct, entries_eq]
  split
  · rfl
  · rename_i hlength
    have hnodup := nodup_namedValues hdistinct (not_not.1 hlength)
    have hput : (namedValues (m.fields.zip args)).foldl
        (fun known e => Data.putEntry known (.text e.1) e.2) [] =
        Data.textEntries (namedValues (m.fields.zip args)) := by
      rw [← Data.putAll_textEntries hnodup, Data.putAll, Data.textEntries, List.foldl_map]
    cases (m.fields.zip args).find? lacksValue with
    | some p => rfl
    | none => exact congrArg (fun es => Except.ok (Data.mapping es)) hput

theorem construct_eq_ok_iff (hdistinct : (m.fields.map (·.name)).Nodup) :
    m.construct args = .ok instance_ ↔ args.length = m.fields.length ∧
      (∀ f, (f, none) ∈ m.fields.zip args → f.type.isNullable = true) ∧
      instance_ = m.instanceOf args := by
  rw [construct_eq hdistinct, ← find?_lacksValue_eq_none_iff]
  split
  · simp_all
  · cases (m.fields.zip args).find? lacksValue with
    | some p => simp
    | none => simp_all [eq_comm]

/-- `f` is the first field that needs a value and is given none. -/
def FirstMissing (m : Model) (args : List (Option Data)) (f : Field) : Prop :=
  ∃ before after, m.fields.zip args = before ++ (f, none) :: after ∧ f.type.isNullable = false ∧
    ∀ g, (g, none) ∈ before → g.type.isNullable = true

theorem firstMissing_iff :
    m.FirstMissing args f ↔ (m.fields.zip args).find? lacksValue = some (f, none) := by
  rw [List.find?_eq_some_iff_append]
  constructor
  · rintro ⟨before, after, hzip, hf, hbefore⟩
    refine ⟨by simpa [lacksValue, Field.isOptional] using hf, before, after, hzip, fun p hp => ?_⟩
    simpa using List.find?_eq_none.1 (find?_lacksValue_eq_none_iff.2 hbefore) p hp
  · rintro ⟨hf, before, after, hzip, hbefore⟩
    refine ⟨before, after, hzip, by simpa [lacksValue, Field.isOptional] using hf, ?_⟩
    apply find?_lacksValue_eq_none_iff.1
    rw [List.find?_eq_none]
    exact fun p hp => by simpa using hbefore p hp

theorem construct_eq_error_iff (hdistinct : (m.fields.map (·.name)).Nodup) :
    m.construct args = .error e ↔
      (args.length ≠ m.fields.length ∧ e = .arity m.name m.fields.length args.length) ∨
      (args.length = m.fields.length ∧ ∃ f, m.FirstMissing args f ∧ e = .missing m.name f.name) := by
  rw [construct_eq hdistinct]
  simp only [firstMissing_iff]
  split
  · simp_all [eq_comm]
  · rename_i hlength
    cases hfind : (m.fields.zip args).find? lacksValue with
    | none => simp_all
    | some p =>
      obtain ⟨f, arg⟩ := p
      have harg : arg = none := by
        have hlacks := List.find?_some hfind
        simp only [lacksValue, Bool.and_eq_true, Option.isNone_iff_eq_none] at hlacks
        exact hlacks.1
      subst harg
      simp_all [eq_comm]

/-- An instance has what was given for a field under the name of the field, and nothing else. -/
theorem get?_instanceOf (hdistinct : (m.fields.map (·.name)).Nodup)
    (hlength : args.length = m.fields.length) :
    (m.instanceOf args).get? key = some value ↔
      ∃ f, (f, some value) ∈ m.fields.zip args ∧ f.name = key := by
  have hget : (m.instanceOf args).get? key = (namedValues (m.fields.zip args)).lookup key :=
    Data.lookup_textEntries _ _
  rw [hget]
  constructor
  · intro h
    obtain ⟨g, hg, heq⟩ := List.mem_map.1 (OrderedMap.mem_of_lookup_eq_some h)
    obtain ⟨rfl, rfl⟩ := Prod.mk.inj heq
    exact ⟨g.1, mem_given_iff.1 hg, rfl⟩
  · rintro ⟨f, hmem, rfl⟩
    have hnodup := nodup_namedValues hdistinct hlength
    exact OrderedMap.lookup_of_mem hnodup
      (List.mem_map.2 ⟨(f, value), mem_given_iff.2 hmem, rfl⟩)

/-- Under the name of a field an instance has what the field was given. -/
theorem get?_instanceOf_of_mem (hdistinct : (m.fields.map (·.name)).Nodup)
    (hlength : args.length = m.fields.length) {arg : Option Data}
    (h : (f, arg) ∈ m.fields.zip args) : (m.instanceOf args).get? f.name = arg := by
  have hnodup : ((m.fields.zip args).map fun p => p.1.name).Nodup := by
    have hfields : ((m.fields.zip args).map Prod.fst).map (·.name) = m.fields.map (·.name) := by
      rw [List.map_fst_zip (Nat.le_of_eq hlength.symm)]
    rw [List.map_map] at hfields
    exact hfields ▸ hdistinct
  apply Option.ext
  intro value
  rw [get?_instanceOf hdistinct hlength]
  constructor
  · rintro ⟨g, hg, hname⟩
    exact (Prod.mk.inj (List.inj_on_of_nodup_map hnodup hg h hname)).2.symm
  · rintro rfl
    exact ⟨f, h, rfl⟩

end Model

end TypedClient
