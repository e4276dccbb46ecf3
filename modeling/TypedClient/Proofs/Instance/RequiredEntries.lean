import TypedClient.Proofs.DeclaredModels
import TypedClient.Proofs.Instance.Construction
import TypedClient.Proofs.Resolution.Flattening

/-!
# Required entries

What a document says of a property goes through its type: a property that must be given and may be
`null` becomes a required field of a nullable type, and a field of a nullable type may be left out of
an instance. So an instance has all required fields, except those that may be `null` and that were
given nothing.
-/

namespace TypedClient.Schema.Document

variable {d : Document} {t : TypeTable} {m : Model} {f : Field} {p : Property}

/-- A required field is of a nullable type when its property may be `null`. -/
theorem Declares.isNullable_eq (h : d.Declares p f.entry) (hrequired : f.required = true) :
    f.type.isNullable = p.nullable := by
  obtain ⟨v, -, hv, htype⟩ := h.type
  have htype : f.type = if p.required = false ∨ p.nullable = true then .nullable v else v := htype
  have hp : p.required = true := h.required.symm.trans hrequired
  rw [htype, hp]
  cases p.nullable with
  | true => rfl
  | false => simpa using hv

/-- The fields of a declared model have distinct names and say what the properties of its definition
say. -/
theorem Tabulates.exists_declares (h : d.Tabulates t) (hm : m ∈ t.declarations) :
    (m.fields.map (·.name)).Nodup ∧ ∃ ps, d.Flattens m.name ps ∧
      ∀ f ∈ m.fields, ∃ p ∈ ps, d.Declares p f.entry := by
  obtain ⟨e, he, hdeclared⟩ := TypeTable.exists_of_mem_declarations hm
  obtain ⟨definition, -, hmodel⟩ := h.definition_of_model he
  have hentries : m.fields.map Field.entry = e.fields := by
    rw [hdeclared]
    exact e.entries_declare _
  have hnodup := hmodel.nodup_names
  rw [← hentries, List.map_map] at hnodup
  obtain ⟨ps, fields, hps, hfields, rfl⟩ := hmodel
  refine ⟨hnodup, ps, hps, ?_⟩
  intro f hf
  have hf : f.entry ∈ m.fields.map Field.entry := List.mem_map_of_mem hf
  rw [hentries] at hf
  obtain ⟨p, hp, hdeclares⟩ := exists_of_mem_right hfields hf
  exact ⟨p, hp, hdeclares.declares⟩

/-- An instance lacks a required field only when the property may be `null` and nothing was given. -/
theorem required_entries (h : resolve d = .ok t) (hm : m ∈ t.declarations)
    {args : List (Option Data)} {i : Data} (hi : m.construct args = .ok i) :
    ∃ ps, d.Flattens m.name ps ∧ ∀ f ∈ m.fields, f.required = true →
      ∃ p ∈ ps, p.name = f.name ∧ p.required = true ∧ p.nullable = f.type.isNullable ∧
        (i.get? f.name = none ↔ p.nullable = true ∧ (f, none) ∈ m.fields.zip args) := by
  obtain ⟨htable, -⟩ := tabulates_of_resolve h
  obtain ⟨hdistinct, ps, hps, hdeclares⟩ := htable.exists_declares hm
  obtain ⟨hlength, hneeds, rfl⟩ := (Model.construct_eq_ok_iff hdistinct).1 hi
  refine ⟨ps, hps, fun f hf hrequired => ?_⟩
  obtain ⟨p, hp, hdeclares⟩ := hdeclares f hf
  have hnullable := hdeclares.isNullable_eq hrequired
  refine ⟨p, hp, hdeclares.name.symm, hdeclares.required.symm.trans hrequired, hnullable.symm, ?_⟩
  -- the field stands in the instance as the argument at its place
  have hfields := List.map_fst_zip (Nat.le_of_eq hlength.symm)
  rw [← hfields] at hf
  obtain ⟨⟨_, arg⟩, hmem, rfl⟩ := List.mem_map.1 hf
  rw [Model.get?_instanceOf_of_mem hdistinct hlength hmem]
  constructor
  · rintro rfl
    exact ⟨hnullable ▸ hneeds _ hmem, hmem⟩
  · rintro ⟨-, hnone⟩
    exact (Model.get?_instanceOf_of_mem hdistinct hlength hmem).symm.trans
      (Model.get?_instanceOf_of_mem hdistinct hlength hnone)

/-- A pet has a name, and a nickname that may be `null`. Both must be given. -/
def nicknames : Document :=
  { definitions := .ofList [("Pet", {
      name := "Pet"
      description := none
      bases := []
      properties := [textProperty "name" true false, textProperty "nickname" true true] })]
    aliases := ∅
    operations := []
    baseEndpoint := none
    title := none }

def nicknamedPet : Model :=
  let field (name : String) (type : ValueType) : Field :=
    { name, type, required := true, description := none, allowedValues := [], cyclic := false }
  { name := "Pet"
    description := none
    fields := [field "name" (.primitive .text), field "nickname" (.nullable (.primitive .text))] }

theorem nicknames_declared :
    ∃ t, resolve nicknames = .ok t ∧ nicknamedPet ∈ t.declarations := by
  have hresolve : (resolve nicknames).map (·.declarations) = .ok [nicknamedPet] := by
    decide +kernel
  obtain ⟨t, ht, hdeclarations⟩ := map_eq_ok_iff.1 hresolve
  exact ⟨t, ht, hdeclarations ▸ List.mem_cons_self⟩

/-- A pet is made of its name alone, which it then has. -/
theorem nicknamed_entries : ∃ t i, resolve nicknames = .ok t ∧ nicknamedPet ∈ t.declarations ∧
    nicknamedPet.construct [some (.text "Rex"), none] = .ok i ∧
    i.get? "name" ≠ none ∧ i.get? "nickname" = none := by
  obtain ⟨t, ht, hm⟩ := nicknames_declared
  obtain ⟨i, hi⟩ : ∃ i, nicknamedPet.construct [some (.text "Rex"), none] = .ok i := ⟨_, rfl⟩
  obtain ⟨ps, -, hentries⟩ := required_entries ht hm hi
  obtain ⟨p, -, -, -, hnullable, hname⟩ := hentries _ List.mem_cons_self rfl
  obtain ⟨q, -, -, -, hnullable', hnickname⟩ :=
    hentries _ (List.mem_cons_of_mem _ List.mem_cons_self) rfl
  refine ⟨t, i, ht, hm, hi, fun hnone => ?_, hnickname.2 ⟨hnullable', ?_⟩⟩
  · have hfalse := (hname.1 hnone).1
    rw [hnullable] at hfalse
    cases hfalse
  · exact List.mem_cons_of_mem _ List.mem_cons_self

/-- Not each required field has an entry: the nickname is required, may be `null` and is left out. -/
theorem nickname_left_out : ¬ ∀ (d : Document) (t : TypeTable) (m : Model)
    (args : List (Option Data)) (i : Data), resolve d = .ok t → m ∈ t.declarations →
    m.construct args = .ok i → ∀ f ∈ m.fields, f.required = true → i.get? f.name ≠ none := by
  intro h
  obtain ⟨t, ht, hm⟩ := nicknames_declared
  exact h nicknames t nicknamedPet [some (.text "Rex"), none] _ ht hm rfl _
    (List.mem_cons_of_mem _ List.mem_cons_self) rfl rfl

end TypedClient.Schema.Document
