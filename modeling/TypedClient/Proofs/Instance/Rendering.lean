import TypedClient.Proofs.Instance.Construction

/-!
# Rendered instances

A rendering goes through the fields in the order of their declaration and shows each one that has a
value. A field that an instance leaves out is like one that it has as `null`, and what stands under
other keys is not looked at. So the rendering of an instance that was made from arguments can be read
off the arguments.
-/

namespace TypedClient

def Data.isNull : Data → Bool
  | .null => true
  | _     => false

@[simp] theorem Data.isNull_iff {value : Data} : value.isNull = true ↔ value = .null := by
  cases value <;> simp [isNull]

namespace Field

/-- The value of the field in an instance. A field that is left out is `null`. -/
def valueIn (f : Field) (instance_ : Data) : Data := (instance_.get? f.name).getD .null

/-- What stands in a rendering for the field with this value, where `text` writes values by their
type. -/
def shown (text : ValueType → Data → String) (f : Field) (value : Data) : Option String :=
  if value.isNull then none else some (f.name ++ "=" ++ text f.type value)

end Field

/-- What stands in a rendering for the fields that have a value in an instance. -/
def Model.parts (text : ValueType → Data → String) (m : Model) (instance_ : Data) : List String :=
  m.fields.filterMap fun f => f.shown text (f.valueIn instance_)

variable {models : List Model} {m : Model} {args : List (Option Data)} {f : Field}
  {instance_ value : Data}

/-! ## The parts of a rendering -/

theorem renderFields_eq (models : List Model) (instance_ : Data) (fields : List Field) :
    renderFields models instance_ fields =
      fields.filterMap fun f => f.shown (renderValue models) (f.valueIn instance_) := by
  induction fields with
  | nil => rw [renderFields, List.filterMap_nil]
  | cons f fields ih =>
    rw [renderFields, List.filterMap_cons, Field.valueIn, Field.shown]
    split
    · rename_i hget
      simp [hget, ih, Data.isNull]
    · rename_i hget
      simp [hget, ih, Data.isNull]
    · rename_i value hnull hget
      have hvalue : value.isNull = false := by
        cases value <;> first | exact absurd rfl hnull | rfl
      simp [hget, ih, hvalue]

theorem renderItems_eq (models : List Model) (type : ValueType) (items : List Data) :
    renderItems models type items = items.map (renderValue models type) := by
  induction items with
  | nil => rw [renderItems, List.map_nil]
  | cons item items ih => rw [renderItems, List.map_cons, ih]

theorem renderEntries_eq (models : List Model) (type : ValueType) (entries : List (Data × Data)) :
    renderEntries models type entries = entries.filterMap fun e =>
      e.1.keyText?.map fun name => (name, renderValue models type e.2) := by
  induction entries with
  | nil => rw [renderEntries, List.filterMap_nil]
  | cons e entries ih =>
    rw [renderEntries, List.filterMap_cons, ih]
    cases e.1.keyText? <;> rfl

theorem braced_nil (name : String) : braced name [] = name ++ " \x7b \x7d" := by
  have hbraces : " \x7b" ++ ("" ++ ("" ++ " \x7d")) = " \x7b \x7d" := rfl
  simp only [braced, List.isEmpty_nil, String.append_assoc]
  exact congrArg _ hbraces

theorem braced_of_ne_nil {parts : List String} (h : parts ≠ []) (name : String) :
    braced name parts = name ++ " \x7b " ++ String.intercalate ", " parts ++ " \x7d" := by
  have hopen : " \x7b" ++ " " = " \x7b " := rfl
  have hparts : parts.isEmpty = false := by simpa using h
  rw [← hopen]
  simp [braced, hparts, String.append_assoc]

namespace Model

theorem render_eq (m : Model) (models : List Model) (instance_ : Data) :
    m.render models instance_ = braced m.name (m.parts (renderValue models) instance_) := by
  rw [render, renderFields_eq, parts]

theorem parts_congr {text text' : ValueType → Data → String} {other : Data}
    (h : ∀ f ∈ m.fields, f.shown text (f.valueIn instance_) = f.shown text' (f.valueIn other)) :
    m.parts text instance_ = m.parts text' other :=
  List.filterMap_congr h

/-- A rendering depends on the values of the fields only. -/
theorem render_congr {other : Data}
    (h : ∀ f ∈ m.fields, f.valueIn instance_ = f.valueIn other) (models : List Model) :
    m.render models instance_ = m.render models other := by
  have hparts : m.parts (renderValue models) instance_ = m.parts (renderValue models) other :=
    parts_congr fun f hf => by rw [h f hf]
  rw [render_eq, render_eq, hparts]

/-! ## Instances made from arguments -/

/-- The fields that are given a value other than `null`, in the order of their declaration. -/
def shownFields (m : Model) (args : List (Option Data)) : List (Field × Data) :=
  (given (m.fields.zip args)).filter fun g => !g.2.isNull

theorem shownFields_eq_nil_iff : m.shownFields args = [] ↔
    ∀ f value, (f, some value) ∈ m.fields.zip args → value = .null := by
  rw [shownFields, List.filter_eq_nil_iff]
  simp only [Prod.forall, mem_given_iff, Bool.not_eq_true', Bool.not_eq_false, Data.isNull_iff]

theorem valueIn_instanceOf (hdistinct : (m.fields.map (·.name)).Nodup)
    (hlength : args.length = m.fields.length) {arg : Option Data}
    (h : (f, arg) ∈ m.fields.zip args) : f.valueIn (m.instanceOf args) = arg.getD .null := by
  rw [Field.valueIn, get?_instanceOf_of_mem hdistinct hlength h]

theorem filterMap_shown (text : ValueType → Data → String) (pairs : List (Field × Option Data)) :
    pairs.filterMap (fun p => p.1.shown text (p.2.getD .null)) =
      ((given pairs).filter fun g => !g.2.isNull).map
        fun g => g.1.name ++ "=" ++ text g.1.type g.2 := by
  induction pairs with
  | nil => rfl
  | cons p pairs ih =>
    obtain ⟨f, arg⟩ := p
    cases arg with
    | none =>
      have hgiven : given ((f, none) :: pairs) = given pairs := rfl
      rw [hgiven, ← ih]
      rfl
    | some value =>
      have hgiven : given ((f, some value) :: pairs) = (f, value) :: given pairs := rfl
      rw [hgiven, List.filterMap_cons, List.filter_cons, ih]
      cases hnull : value.isNull <;> simp [Field.shown, hnull]

theorem render_instanceOf (hdistinct : (m.fields.map (·.name)).Nodup)
    (hlength : args.length = m.fields.length) (models : List Model) :
    m.render models (m.instanceOf args) = braced m.name
      ((m.shownFields args).map fun g => g.1.name ++ "=" ++ renderValue models g.1.type g.2) := by
  rw [render_eq, parts, shownFields, ← filterMap_shown]
  congr 1
  -- the fields are those of the pairs of fields and arguments
  conv => lhs; rw [← List.map_fst_zip (Nat.le_of_eq hlength.symm)]
  rw [List.filterMap_map]
  refine List.filterMap_congr fun p hp => ?_
  exact congrArg _ (valueIn_instanceOf hdistinct hlength hp)

/-- An instance is made when each field has an argument and none goes without a value that it needs.
It has what was given and shows what of that is not `null`. -/
theorem constructed_rendered (m : Model) (hdistinct : (m.fields.map (·.name)).Nodup)
    (args : List (Option Data)) :
    ((∃ i, m.construct args = .ok i) ↔ args.length = m.fields.length ∧
      ∀ f, (f, none) ∈ m.fields.zip args → f.type.isNullable = true) ∧
    (∀ e, m.construct args = .error e ↔
      (args.length ≠ m.fields.length ∧ e = .arity m.name m.fields.length args.length) ∨
      (args.length = m.fields.length ∧ ∃ f, m.FirstMissing args f ∧ e = .missing m.name f.name)) ∧
    (∀ i, m.construct args = .ok i →
      i = .mapping ((given (m.fields.zip args)).map fun g => (.text g.1.name, g.2)) ∧
      (∀ key value, i.get? key = some value ↔
        ∃ f, (f, some value) ∈ m.fields.zip args ∧ f.name = key) ∧
      ∀ models,
        ((∀ f value, (f, some value) ∈ m.fields.zip args → value = .null) →
          m.render models i = m.name ++ " \x7b \x7d") ∧
        ((∃ f value, (f, some value) ∈ m.fields.zip args ∧ value ≠ .null) →
          m.render models i = m.name ++ " \x7b " ++ String.intercalate ", "
            ((m.shownFields args).map fun g =>
              g.1.name ++ "=" ++ renderValue models g.1.type g.2) ++ " \x7d")) ∧
    ∀ models i j, (∀ f ∈ m.fields, (i.get? f.name).getD .null = (j.get? f.name).getD .null) →
      m.render models i = m.render models j := by
  refine ⟨?_, fun e => construct_eq_error_iff hdistinct, ?_, fun models i j h => render_congr h models⟩
  · simp only [construct_eq_ok_iff hdistinct]
    constructor
    · rintro ⟨i, hlength, hneeds, -⟩
      exact ⟨hlength, hneeds⟩
    · rintro ⟨hlength, hneeds⟩
      exact ⟨_, hlength, hneeds, rfl⟩
  · intro i hi
    obtain ⟨hlength, -, rfl⟩ := (construct_eq_ok_iff hdistinct).1 hi
    refine ⟨?_, fun key value => get?_instanceOf hdistinct hlength, fun models => ⟨?_, ?_⟩⟩
    · rw [instanceOf, Data.textEntries, namedValues, List.map_map]
      rfl
    · intro hnull
      rw [render_instanceOf hdistinct hlength, shownFields_eq_nil_iff.2 hnull]
      exact braced_nil m.name
    · rintro ⟨f, value, hmem, hvalue⟩
      rw [render_instanceOf hdistinct hlength]
      apply braced_of_ne_nil
      simp only [ne_eq, List.map_eq_nil_iff, shownFields_eq_nil_iff]
      exact fun hnull => hvalue (hnull f value hmem)

/-- A tag has a name, and it may have a number. -/
def tag : Model :=
  let field (name : String) (type : ValueType) (required : Bool) : Field :=
    { name, type, required, description := none, allowedValues := [], cyclic := false }
  { name := "Tag"
    description := none
    fields := [field "name" (.primitive .text) true,
      field "id" (.nullable (.primitive .integer)) false] }

/-- A tag is made without a number, which is not shown then, and not without a name. -/
theorem tag_rendered : (tag.fields.map (·.name)).Nodup ∧
    (∃ i, tag.construct [some (.text "foo"), none] = .ok i ∧ i.get? "id" = none ∧
      tag.render [tag] i = "Tag \x7b name=foo \x7d") ∧
    tag.construct [none, some (.number (.int 1337))] = .error (.missing "Tag" "name") := by
  have hdistinct : (tag.fields.map (·.name)).Nodup := by decide
  refine ⟨hdistinct, ?_, ?_⟩
  · obtain ⟨hmade, -, hinstance, -⟩ := constructed_rendered tag hdistinct [some (.text "foo"), none]
    obtain ⟨i, hi⟩ := hmade.2 ⟨rfl, by simp [tag, ValueType.isNullable]⟩
    obtain ⟨-, hget, hrender⟩ := hinstance i hi
    refine ⟨i, hi, ?_, ?_⟩
    · rw [Option.eq_none_iff_forall_ne_some]
      intro value hvalue
      obtain ⟨f, hmem, hname⟩ := (hget _ _).1 hvalue
      simp [tag] at hmem
      simp [hmem.1] at hname
    · rw [(hrender [tag]).2 ⟨_, .text "foo", List.mem_cons_self, nofun⟩]
      simp [tag, shownFields, given, Data.isNull, renderValue]
  · have hmissing := (constructed_rendered tag hdistinct [none, some (.number (.int 1337))]).2.1
    exact (hmissing _).2 (.inr ⟨rfl, _, ⟨[], _, rfl, rfl, nofun⟩, rfl⟩)

end Model

end TypedClient
