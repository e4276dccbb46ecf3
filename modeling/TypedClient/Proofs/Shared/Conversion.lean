import TypedClient.Proofs.Shared.Objects

/-!
# Both dialects make the same types

A schema is regular if its keywords go together for both dialects. Of the schemas that are not, one
dialect or the other passes over a part: OpenAPI 3 has no values of numbers and flags, and where
keywords of several types are mixed it looks at the properties only; Swagger 2.0 looks at the parts
of an object, but not at the parts of those.
-/

namespace TypedClient

open Schema (TypeRef Property Definition Catalog Conversion)

/-! ## Types in Swagger 2.0 -/

namespace Swagger

/-- The type of a schema, without the evidence that the recursion ends. -/
theorem typeOf_eq (s : Schema) (place : String) (l : Location) : typeOf s place l =
    match s.reference with
    | some r => .reference <$> Conversion.target .schema r l
    | none =>
      if !s.allOf.isEmpty then
        match s.soleBase? with
        | some r => .reference <$> Conversion.target .schema r ((l.key "allOf").item 0)
        | none   => hoisted s place l
      else if !s.oneOf.isEmpty || !s.anyOf.isEmpty then pure .any
      else
        match s.type with
        | some "array" =>
          match s.items with
          | some items => .array <$> typeOf items (place ++ "Item") (l.key "items")
          | none => pure (.array .any)
        | some "object" | none =>
          if !s.properties.isEmpty then hoisted s place l
          else
            match s.additional with
            | .schema values =>
              .map <$> typeOf values (place ++ "Value") (l.key "additionalProperties")
            | .free | .unsaid => pure .any
        | some name => pure (.primitive name s.format s.values) := by
  match s with
  | { items, additional, .. } =>
    rw [typeOf]
    cases items <;> cases additional <;> rfl

end Swagger

namespace Shared

variable {described listed : Bool} {name : String} {l l' : Location} {s : Schema}
  {parts : List Schema} {description : Option String}

section Swagger

variable {place : String} (hreference : s.reference = none)

include hreference

theorem swagger_sole {r : String} (hparts : s.allOf.getD [] ≠ [])
    (hsole : s.swagger.soleBase? = some r) : Swagger.typeOf s.swagger place l =
      .reference <$> Conversion.target .schema r ((l.key "allOf").item 0) := by
  rw [Swagger.typeOf_eq]
  simp [hreference, hparts, hsole]

theorem swagger_composed (hparts : s.allOf.getD [] ≠ []) (hsole : s.swagger.soleBase? = none) :
    Swagger.typeOf s.swagger place l = Swagger.hoisted s.swagger place l := by
  rw [Swagger.typeOf_eq]
  simp [hreference, hparts, hsole]

/-- The type of a schema without parts goes by the name of its type. -/
theorem swagger_typeOf (hallOf : s.allOf.getD [] = []) : Swagger.typeOf s.swagger place l =
    match s.type with
    | some "array" =>
      match s.items with
      | some items => .array <$> Swagger.typeOf items.swagger (place ++ "Item") (l.key "items")
      | none => pure (.array .any)
    | some "object" | none =>
      if s.properties.getD [] = [] then
        match s.additional with
        | .schema values =>
          .map <$> Swagger.typeOf values.swagger (place ++ "Value") (l.key "additionalProperties")
        | .free | .unsaid => pure .any
      else Swagger.hoisted s.swagger place l
    | some name =>
      pure (.primitive name s.format ((s.values.getD []).filterMap Decoder.scalarText)) := by
  have hparts : s.swagger.allOf.isEmpty = true := by simp [hallOf]
  have hproperties : s.swagger.properties.isEmpty = (s.properties.getD []).isEmpty := by simp
  rw [Swagger.typeOf_eq, Schema.swagger_reference, hreference, hproperties]
  simp only [hparts, Schema.swagger_oneOf]
  rw [Schema.swagger_eq]
  cases s.items <;> cases s.additional <;> cases s.properties.getD [] <;> rfl

variable (hallOf : s.allOf.getD [] = [])

include hallOf

theorem swagger_primitive {type : String} (htype : s.type = some type) (harray : type ≠ "array")
    (hobject : type ≠ "object") : Swagger.typeOf s.swagger place l =
      pure (.primitive type s.format ((s.values.getD []).filterMap Decoder.scalarText)) := by
  rw [swagger_typeOf hreference hallOf, htype]
  split <;> simp_all

variable (htype : s.type = none ∨ s.type = some "object")

include htype

theorem swagger_record (hproperties : s.properties.getD [] ≠ []) :
    Swagger.typeOf s.swagger place l = Swagger.hoisted s.swagger place l := by
  rw [swagger_typeOf hreference hallOf]
  rcases htype with htype | htype <;> rw [htype] <;> exact if_neg hproperties

theorem swagger_any (hproperties : s.properties.getD [] = [])
    (h : ∀ v, s.additional ≠ .schema v) :
    Swagger.typeOf s.swagger place l = pure .any := by
  have hany : (match s.additional with
      | .schema values => TypeRef.map <$>
          Swagger.typeOf values.swagger (place ++ "Value") (l.key "additionalProperties")
      | .free | .unsaid => pure .any) = pure .any := by
    split
    · exact absurd ‹_› (h _)
    all_goals rfl
  rw [swagger_typeOf hreference hallOf, hany]
  rcases htype with htype | htype <;> rw [htype] <;> exact if_pos hproperties

end Swagger

/-! ## Regular schemas -/

/-- A schema that both dialects look at in the same way. The values that its type lists are looked
at only if they are `listed`, as in the type of a property, and descriptions of properties only if
they are to be `described`. -/
inductive Regular (described : Bool) : Bool → Schema → Prop
  | reference {listed : Bool} {s : Schema} (h : s.reference.isSome) : Regular described listed s
  | text {listed : Bool} {format description : Option String} {values : Option (List Data)}
      (h : ∀ v ∈ values.getD [], v = .null ∨ ∃ text, v = .text text) :
      Regular described listed { type := some "string", format, description, values }
  | integer {listed : Bool} {format description : Option String} {values : Option (List Data)}
      (h : ∀ v ∈ values.getD [], v = .null ∨ listed = false ∧ (Decoder.whole v).isSome) :
      Regular described listed { type := some "integer", format, description, values }
  | number {listed : Bool} {format description : Option String} {values : Option (List Data)}
      (h : ∀ v ∈ values.getD [], v = .null ∨ listed = false ∧ (Decoder.real v).isSome) :
      Regular described listed { type := some "number", format, description, values }
  | flag {listed : Bool} {description : Option String} {values : Option (List Data)}
      (h : ∀ v ∈ values.getD [], v = .null ∨ listed = false ∧ (Decoder.flag v).isSome) :
      Regular described listed { type := some "boolean", description, values }
  | array {listed : Bool} {description : Option String} {items : Option Schema}
      (h : ∀ i ∈ items, Regular described listed i) :
      Regular described listed { type := some "array", description, items }
  /-- A map, or an object of any shape. -/
  | object {listed : Bool} {description : Option String}
      {properties : Option (List (String × Schema))} {required : Option (List String)}
      {additional : Swagger.Additional Schema} (hproperties : properties.getD [] = [])
      (h : ∀ v, additional = .schema v → Regular described false v) :
      Regular described listed
        { type := some "object", description, properties, required, additional }
  /-- Without a type there is no map. -/
  | any {listed : Bool} {s : Schema} (hreference : s.reference = none) (htype : s.type = none)
      (hallOf : s.allOf = none) (hproperties : s.properties.getD [] = [])
      (hadditional : ∀ v, s.additional ≠ .schema v) : Regular described listed s
  /-- An object with properties, whatever else it has. -/
  | record {listed : Bool} {s : Schema} (hreference : s.reference = none)
      (htype : s.type = none ∨ s.type = some "object") (hparts : s.allOf.getD [] = [])
      (hproperties : s.properties.getD [] ≠ [])
      (hbare : ∀ e ∈ s.properties.getD [], e.2.Bare described)
      (h : ∀ e ∈ s.properties.getD [], Regular described true e.2) : Regular described listed s
  /-- An object that is made of parts has nothing else. -/
  | composed {listed : Bool} {description : Option String} {parts : List Schema}
      (hparts : parts ≠ []) (hflat : ∀ p ∈ parts, p.Flat)
      (hbare : ∀ p ∈ parts, p.reference = none → ∀ e ∈ p.properties.getD [], e.2.Bare described)
      (h : ∀ p ∈ parts, p.reference = none → ∀ e ∈ p.properties.getD [],
        Regular described true e.2) :
      Regular described listed { description, allOf := some parts }

/-! ## Agreement -/

theorem agrees_of_reference (h : s.reference.isSome) : s.Agrees described listed := by
  intro place l l'
  obtain ⟨r, hr⟩ := Option.isSome_iff_exists.1 h
  rw [Swagger.typeOf, Schema.swagger_reference, Schema.openApi_of_reference hr, OpenApi.typeOf, hr]
  exact (target_agrees .schema r l l').map fun _ _ h => h ▸ rfl

theorem agrees_of_item (hreference : s.reference = none)
    (h : ∀ place l l', Agree described (SameType listed)
      (Swagger.typeOf s.swagger place l) (OpenApi.inlineType s.item place l')) :
    s.Agrees described listed := by
  intro place l l'
  rw [Schema.openApi_of_none hreference, OpenApi.typeOf]
  exact h place l l'

theorem texts_eq {values : List Data} (h : ∀ v ∈ values, v = .null ∨ ∃ text, v = .text text) :
    values.filterMap Decoder.scalarText = values.filterMap Data.asText? := by
  apply List.filterMap_congr
  intro v hv
  rcases h v hv with rfl | ⟨text, rfl⟩ <;> rfl

/-- The values of a number or a flag play no role, or they are all `null`. -/
theorem plain_primitive {name : String} {format : Option String} {values : List Data}
    {P : Data → Prop} (hname : name ≠ "string")
    (h : ∀ v ∈ values, v = .null ∨ listed = false ∧ P v) :
    (TypeRef.primitive name none []).plain listed =
      (TypeRef.primitive name format (values.filterMap Decoder.scalarText)).plain listed := by
  rw [TypeRef.plain, TypeRef.plain, if_neg hname, if_neg hname]
  cases listed with
  | false => rfl
  | true =>
    have hnone : values.filterMap Decoder.scalarText = [] := by
      rw [List.filterMap_eq_nil_iff]
      intro v hv
      rcases h v hv with rfl | ⟨hfalse, -⟩
      · rfl
      · cases hfalse
    rw [hnone]

section Primitive

variable {format : Option String} {values : Option (List Data)}

theorem kind_text (h : ∀ v ∈ values.getD [], v = .null ∨ ∃ text, v = .text text) :
    (Schema.item { type := some "string", format, description, values }).kind =
      .string format ((values.getD []).filterMap Data.asText?) := by
  refine if_pos (Bool.and_eq_true_iff.2 ⟨?_, List.all_eq_true.2 fun v hv => ?_⟩)
  · cases format <;> cases values <;> rfl
  · rcases h v hv with rfl | ⟨text, rfl⟩ <;> rfl

theorem all_null_or {P : Data → Bool} (h : ∀ v ∈ values.getD [], v = .null ∨ listed = false ∧ P v) :
    (values.getD []).all (fun v => (v matches .null) || P v) = true := by
  refine List.all_eq_true.2 fun v hv => ?_
  rcases h v hv with rfl | ⟨-, hv⟩
  · rfl
  · rw [hv, Bool.or_true]

theorem kind_integer
    (h : ∀ v ∈ values.getD [], v = .null ∨ listed = false ∧ (Decoder.whole v).isSome) :
    (Schema.item { type := some "integer", format, description, values }).kind = .integer := by
  refine if_pos (Bool.and_eq_true_iff.2 ⟨Bool.and_eq_true_iff.2 ⟨?_, all_null_or h⟩, rfl⟩)
  cases format <;> cases values <;> rfl

theorem kind_number
    (h : ∀ v ∈ values.getD [], v = .null ∨ listed = false ∧ (Decoder.real v).isSome) :
    (Schema.item { type := some "number", format, description, values }).kind = .number := by
  refine if_pos (Bool.and_eq_true_iff.2 ⟨?_, all_null_or h⟩)
  cases format <;> cases values <;> rfl

theorem kind_flag
    (h : ∀ v ∈ values.getD [], v = .null ∨ listed = false ∧ (Decoder.flag v).isSome) :
    (Schema.item { type := some "boolean", description, values }).kind = .boolean := by
  refine if_pos (Bool.and_eq_true_iff.2 ⟨?_, all_null_or h⟩)
  cases values <;> rfl

theorem agrees_text (h : ∀ v ∈ values.getD [], v = .null ∨ ∃ text, v = .text text) :
    Schema.Agrees described listed { type := some "string", format, description, values } := by
  refine agrees_of_item rfl fun place l l' => ?_
  rw [swagger_primitive rfl rfl rfl (by decide) (by decide),
    OpenApi.inlineType_of_type? (by rw [kind_text h]; rfl)]
  refine .pure ?_
  dsimp only
  rw [texts_eq h]

/-- A number or a flag. -/
theorem agrees_primitive {type : String} {P : Data → Prop} (hreference : s.reference = none)
    (hallOf : s.allOf = none) (htype : s.type = some type)
    (hname : type ∉ ["string", "array", "object"])
    (hkind : s.item.kind.type? = some (.primitive type none []))
    (h : ∀ v ∈ s.values.getD [], v = .null ∨ listed = false ∧ P v) : s.Agrees described listed := by
  simp only [List.mem_cons, List.not_mem_nil, or_false, not_or] at hname
  refine agrees_of_item hreference fun place l l' => ?_
  rw [swagger_primitive hreference (by rw [hallOf]; rfl) htype hname.2.1 hname.2.2,
    OpenApi.inlineType_of_type? hkind]
  exact .pure (plain_primitive hname.1 h)

theorem agrees_integer
    (h : ∀ v ∈ values.getD [], v = .null ∨ listed = false ∧ (Decoder.whole v).isSome) :
    Schema.Agrees described listed { type := some "integer", format, description, values } :=
  agrees_primitive rfl rfl rfl (by decide) (by rw [kind_integer h]; rfl) h

theorem agrees_number
    (h : ∀ v ∈ values.getD [], v = .null ∨ listed = false ∧ (Decoder.real v).isSome) :
    Schema.Agrees described listed { type := some "number", format, description, values } :=
  agrees_primitive rfl rfl rfl (by decide) (by rw [kind_number h]; rfl) h

theorem agrees_flag
    (h : ∀ v ∈ values.getD [], v = .null ∨ listed = false ∧ (Decoder.flag v).isSome) :
    Schema.Agrees described listed { type := some "boolean", description, values } :=
  agrees_primitive rfl rfl rfl (by decide) (by rw [kind_flag h]; rfl) h

end Primitive

theorem kind_array (items : Option Schema) :
    (Schema.item { type := some "array", description, items }).kind =
      .array (items.map Schema.openApi) := by
  cases items <;> rfl

theorem agrees_array {items : Option Schema} (h : ∀ i ∈ items, i.Agrees described listed) :
    Schema.Agrees described listed { type := some "array", description, items } := by
  refine agrees_of_item rfl fun place l l' => ?_
  cases items with
  | none =>
    rw [swagger_typeOf rfl rfl, OpenApi.inlineType_of_type? (by rw [kind_array]; rfl)]
    exact .pure rfl
  | some i =>
    rw [swagger_typeOf rfl rfl, OpenApi.inlineType_array (kind_array (some i))]
    exact (h i rfl _ _ _).map fun _ _ h => congrArg TypeRef.array h

theorem kind_object {properties : Option (List (String × Schema))} {required : Option (List String)}
    {additional : Swagger.Additional Schema} (hproperties : properties.getD [] = []) :
    (Schema.item { type := some "object", description, properties, required, additional }).kind =
      .object [] (required.getD [])
        (match additional with
          | .unsaid   => .unsaid
          | .free     => .free
          | .schema v => .schema v.openApi) := by
  cases properties with
  | none => cases required <;> cases additional <;> rfl
  | some ps =>
    cases (hproperties : ps = [])
    cases required <;> cases additional <;> rfl

theorem agrees_object {properties : Option (List (String × Schema))}
    {required : Option (List String)} {additional : Swagger.Additional Schema}
    (hproperties : properties.getD [] = [])
    (h : ∀ v, additional = .schema v → v.Agrees described false) :
    Schema.Agrees described listed
      { type := some "object", description, properties, required, additional } := by
  refine agrees_of_item rfl fun place l l' => ?_
  cases hadditional : additional with
  | schema v =>
    rw [swagger_typeOf rfl rfl, OpenApi.inlineType_map (kind_object hproperties)]
    dsimp only
    rw [if_pos hproperties]
    exact (h v hadditional _ _ _).map fun _ _ h => congrArg TypeRef.map h
  | unsaid =>
    have hnone (v : Schema) : Swagger.Additional.unsaid ≠ .schema v := nofun
    rw [swagger_any rfl rfl (.inr rfl) hproperties hnone,
      OpenApi.inlineType_of_type? (by rw [kind_object hproperties]; rfl)]
    exact .pure rfl
  | free =>
    have hnone (v : Schema) : Swagger.Additional.free ≠ .schema v := nofun
    rw [swagger_any rfl rfl (.inr rfl) hproperties hnone,
      OpenApi.inlineType_of_type? (by rw [kind_object hproperties]; rfl)]
    exact .pure rfl

theorem not_composes_of_properties (h : s.properties.getD [] ≠ []) : ¬ s.Composes := by
  rintro ⟨-, hfamilies⟩
  have hobject : s.keywords.has .object = false :=
    OpenApi.Keywords.has_eq_false_of_families hfamilies (by decide)
  have hnone := (OpenApi.Keywords.eq_none_of_has hobject).1
  cases hproperties : s.properties with
  | none => exact h (by rw [hproperties]; rfl)
  | some ps =>
    rw [Schema.keywords, hproperties] at hnone
    cases hnone

theorem kind_untyped (htype : s.type = none) (hallOf : s.allOf = none) :
    s.item.kind = s.keywords.general := by
  have hkind : s.item.kind = s.keywords.untyped := by
    rw [Schema.item, OpenApi.Keywords.kind, Schema.keywords, htype]
  have habsent (f : OpenApi.Keywords.Family) (hf : s.keywords.families = [f])
      (hnot : s.keywords.has f = false) : False := by
    have hmem : f ∈ s.keywords.families := hf ▸ List.mem_singleton.2 rfl
    have hhas := OpenApi.Keywords.mem_families.1 hmem
    rw [hnot] at hhas
    cases hhas
  rw [hkind]
  unfold OpenApi.Keywords.untyped
  split
  · exact (habsent _ ‹_› rfl).elim
  · refine (habsent _ ‹_› ?_).elim
    rw [OpenApi.Keywords.has, Schema.keywords, hallOf]
    rfl
  · exact (habsent _ ‹_› rfl).elim
  · exact (habsent _ ‹_› rfl).elim
  · rfl

theorem kind_any (htype : s.type = none) (hallOf : s.allOf = none)
    (hproperties : s.properties.getD [] = []) :
    s.item.kind = .general [] (s.required.getD []) [] := by
  rw [kind_untyped htype hallOf, OpenApi.Keywords.general, Schema.keywords, hallOf]
  cases hs : s.properties with
  | none => rfl
  | some ps =>
    rw [hs, Option.getD_some] at hproperties
    rw [hproperties]
    rfl

theorem agrees_any (hreference : s.reference = none) (htype : s.type = none)
    (hallOf : s.allOf = none) (hproperties : s.properties.getD [] = [])
    (h : ∀ v, s.additional ≠ .schema v) : s.Agrees described listed := by
  refine agrees_of_item hreference fun place l l' => ?_
  rw [swagger_any hreference (by rw [hallOf]; rfl) (.inl htype) hproperties h,
    OpenApi.inlineType_of_type? (by rw [kind_any htype hallOf hproperties]; rfl)]
  exact .pure rfl

theorem agrees_record (hreference : s.reference = none)
    (htype : s.type = none ∨ s.type = some "object") (hparts : s.allOf.getD [] = [])
    (hproperties : s.properties.getD [] ≠ [])
    (hbare : ∀ e ∈ s.properties.getD [], e.2.Bare described)
    (h : ∀ e ∈ s.properties.getD [], e.2.Agrees described true) : s.Agrees described listed := by
  refine agrees_of_item hreference fun place l l' => ?_
  have hown := not_composes_of_properties hproperties
  have hne : s.item.properties ≠ [] := by
    rw [item_properties hown]
    simpa using hproperties
  rw [swagger_record hreference hparts htype hproperties, OpenApi.inlineType_properties hne]
  exact hoisted_agrees (fun name => objectOf_agrees hown hparts h hbare) listed place

theorem agrees_composed (hparts : parts ≠ []) (hflat : ∀ p ∈ parts, p.Flat)
    (hbare : ∀ p ∈ parts, p.reference = none → ∀ e ∈ p.properties.getD [], e.2.Bare described)
    (h : ∀ p ∈ parts, p.reference = none → ∀ e ∈ p.properties.getD [], e.2.Agrees described true) :
    Schema.Agrees described listed { description, allOf := some parts } := by
  refine agrees_of_item rfl fun place l l' => ?_
  by_cases hsole : ∃ p r, parts = [p] ∧ p.reference = some r
  · obtain ⟨p, r, rfl, hr⟩ := hsole
    have hbase : (Schema.swagger { description, allOf := some [p] }).soleBase? = some r := by
      simp [Swagger.Schema.soleBase?, hr]
    have hkind : (Schema.item { description, allOf := some [p] }).kind = .allOf [.reference r] := by
      rw [kind_composed, List.map_singleton, Schema.openApi_of_reference hr]
    rw [swagger_sole (s := { description, allOf := some [p] }) rfl hparts hbase,
      OpenApi.inlineType_sole hkind]
    exact (target_agrees .schema r _ _).map fun _ _ h => h ▸ rfl
  · have hbase : (Schema.swagger { description, allOf := some parts }).soleBase? = none := by
      rw [Swagger.Schema.soleBase?, Schema.swagger_allOf, Option.getD_some]
      match parts with
      | [] | _ :: _ :: _ => rfl
      | [p] =>
        cases hr : p.reference with
        | none => simp [hr]
        | some r => exact absurd ⟨p, r, rfl, hr⟩ hsole
    have hmany (r : String) : [.reference r] ≠ parts.map Schema.openApi := by
      intro hmap
      obtain ⟨p, rfl, hp⟩ := List.map_eq_singleton_iff.1 hmap.symm
      rw [Schema.openApi_eq] at hp
      cases hr : p.reference with
      | none => simp [hr] at hp
      | some r => exact hsole ⟨p, r, rfl, hr⟩
    rw [swagger_composed (s := { description, allOf := some parts }) rfl hparts hbase,
      OpenApi.inlineType_allOf kind_composed hmany]
    exact hoisted_agrees (fun name => composed_agrees hflat h hbare) listed place

/-- Both converters make the same type of a regular schema. -/
theorem Regular.agrees (h : Regular described listed s) : s.Agrees described listed := by
  induction h with
  | reference h => exact agrees_of_reference h
  | text h => exact agrees_text h
  | integer h => exact agrees_integer h
  | number h => exact agrees_number h
  | flag h => exact agrees_flag h
  | array _ ih => exact agrees_array ih
  | object hproperties _ ih => exact agrees_object hproperties ih
  | any hreference htype hallOf hproperties h =>
    exact agrees_any hreference htype hallOf hproperties h
  | record hreference htype hparts hproperties hbare _ ih =>
    exact agrees_record hreference htype hparts hproperties hbare ih
  | composed hparts hflat hbare _ ih => exact agrees_composed hparts hflat hbare ih

/-! ## Named schemas -/

theorem convert_alias (hs : s.swagger.isObject = false)
    (ho : s.openApi.item?.filter (·.isObject) = none) (h : s.Agrees described false) :
    Agree described (fun _ _ => True) (Swagger.convertDefinition name s.swagger)
      (OpenApi.convertSchema name s.openApi) := by
  rw [Swagger.convertDefinition, OpenApi.convertSchema, ho]
  simp only [hs, Bool.false_eq_true, if_false]
  exact (h _ _ _).bind fun t u ht => addAlias_agrees name ht

theorem convert_object (hreference : s.reference = none) (hs : s.swagger.isObject = true)
    (ho : s.item.isObject = true)
    (h : ∀ name l l', Agree described (SameDefinition described) (Swagger.objectOf name s.swagger l)
      (OpenApi.objectOf name s.item l')) :
    Agree described (fun _ _ => True) (Swagger.convertDefinition name s.swagger)
      (OpenApi.convertSchema name s.openApi) := by
  have hitem : s.openApi.item?.filter (·.isObject) = some s.item := by
    rw [Schema.openApi_of_none hreference]
    exact if_pos ho
  rw [Swagger.convertDefinition, OpenApi.convertSchema, hitem]
  simp only [hs, if_true]
  exact (h _ _ _).bind fun d e hd => declare_agrees hd

theorem not_object (hreference : s.reference = none) (h : s.item.isObject = false) :
    s.openApi.item?.filter (·.isObject) = none := by
  rw [Schema.openApi_of_none hreference]
  exact if_neg (by simp [h])

/-- Neither dialect takes the schema for an object. -/
theorem convert_type (hreference : s.reference = none) (hallOf : s.allOf = none)
    (hproperties : s.properties.getD [] = []) (htype : s.type ≠ some "object")
    (hitem : s.item.isObject = false) (h : s.Agrees described false) :
    Agree described (fun _ _ => True) (Swagger.convertDefinition name s.swagger)
      (OpenApi.convertSchema name s.openApi) := by
  refine convert_alias ?_ (not_object hreference hitem) h
  simp [Swagger.Schema.isObject, hreference, hallOf, hproperties, htype]

/-- Both converters put a regular schema into the catalog alike. -/
theorem Regular.converts (h : Regular described false s) (name : String) :
    Agree described (fun _ _ => True) (Swagger.convertDefinition name s.swagger)
      (OpenApi.convertSchema name s.openApi) := by
  cases h with
  | reference h =>
    obtain ⟨r, hr⟩ := Option.isSome_iff_exists.1 h
    refine convert_alias ?_ ?_ (agrees_of_reference h)
    · simp [Swagger.Schema.isObject, hr]
    · rw [Schema.openApi_of_reference hr]
      rfl
  | text h =>
    exact convert_type rfl rfl rfl (by simp) (by rw [OpenApi.Schema.isObject, kind_text h])
      (agrees_text h)
  | integer h =>
    exact convert_type rfl rfl rfl (by simp) (by rw [OpenApi.Schema.isObject, kind_integer h])
      (agrees_integer h)
  | number h =>
    exact convert_type rfl rfl rfl (by simp) (by rw [OpenApi.Schema.isObject, kind_number h])
      (agrees_number h)
  | flag h =>
    exact convert_type rfl rfl rfl (by simp) (by rw [OpenApi.Schema.isObject, kind_flag h])
      (agrees_flag h)
  | array h =>
    exact convert_type rfl rfl rfl (by simp) (by rw [OpenApi.Schema.isObject, kind_array])
      (agrees_array fun i hi => (h i hi).agrees)
  | @object _ _ properties required additional hproperties h =>
    cases additional with
    | schema v =>
      refine convert_alias ?_ (not_object rfl ?_)
        (agrees_object hproperties fun w hw => (h w hw).agrees)
      · rw [Swagger.Schema.isObject, Schema.swagger_eq]
        simp [hproperties]
      · rw [OpenApi.Schema.isObject, kind_object hproperties]
        rfl
    -- an object of any shape
    | _ =>
      refine convert_object rfl ?_ ?_ fun name l l' =>
        objectOf_agrees nofun rfl (by rw [hproperties]; nofun) (by rw [hproperties]; nofun)
      · rw [Swagger.Schema.isObject, Schema.swagger_eq]
        simp [hproperties]
      · rw [OpenApi.Schema.isObject, kind_object hproperties]
        rfl
  | any hreference htype hallOf hproperties h =>
    refine convert_type hreference hallOf hproperties (by simp [htype]) ?_
      (agrees_any hreference htype hallOf hproperties h)
    rw [OpenApi.Schema.isObject, kind_any htype hallOf hproperties]
    rfl
  | record hreference htype hparts hproperties hbare h =>
    have hown := not_composes_of_properties hproperties
    refine convert_object hreference ?_ ?_ fun name l l' =>
      objectOf_agrees hown hparts (fun e he => (h e he).agrees) hbare
    · simp [Swagger.Schema.isObject, hreference, hproperties]
    · exact OpenApi.isObject_of_properties (by rw [item_properties hown]; simpa using hproperties)
  | composed hparts hflat hbare h =>
    refine convert_object rfl ?_ ?_ fun name l l' =>
      composed_agrees hflat (fun p hp hreference e he => (h p hp hreference e he).agrees) hbare
    · simp [Swagger.Schema.isObject, hparts]
    · rw [OpenApi.Schema.isObject, kind_composed]

end Shared

end TypedClient
