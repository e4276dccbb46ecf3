import TypedClient.Proofs.ClosedTypes
import TypedClient.Proofs.Instance.Rendering
import TypedClient.Proofs.Properties

/-!
# Renderings within renderings

To render a value the values in it are rendered by their types, and models may lead to each other and
to themselves. With each step into a value the value gets smaller, and where the value stays the same
the type does; so no rendering goes on for ever, and the text of a value is determined by the texts of
the values in it. Models are only looked up by names that types mention. A list of models in another
order, or with more models that nothing mentions, gives the same texts.
-/

namespace TypedClient

variable {models models' extra : List Model} {text text' : ValueType → Data → String}
  {type : ValueType} {value : Data} {name : String}

/-! ## One step -/

/-- The text of a value of a primitive type. -/
def Primitive.textOf : Primitive → Data → String
  | .json, value             => Json.write value
  | _,     .text s           => s
  | .real, .number (.int n)  => RealStyle.plain.write (Float.ofInt n)
  | .real, .number (.real x) => RealStyle.plain.write x
  | _,     value             => Json.write value

/-- The text of a value of the type, where `text` writes the values in it. -/
def ValueType.textOf (models : List Model) (text : ValueType → Data → String) (type : ValueType)
    (value : Data) : String :=
  if value.isNull then "null"
  else
    match type with
    | .primitive kind => kind.textOf value
    | .nullable inner => text inner value
    | .array items    =>
      match value with
      | .list ds => "[" ++ String.intercalate ", " (ds.map (text items)) ++ "]"
      | _        => Json.write value
    | .map values     =>
      match value with
      | .mapping es =>
        let entries := es.filterMap fun e => e.1.keyText?.map fun name => (name, text values e.2)
        let sorted := entries.mergeSort fun a b => !(b.1 < a.1)
        "\x7b" ++ String.intercalate ", " (sorted.map fun e => e.1 ++ "=" ++ e.2) ++ "\x7d"
      | _           => Json.write value
    | .model name     =>
      match value, models.find? (·.name = name) with
      | .mapping es, some m => braced m.name (m.parts text (.mapping es))
      | _,           _      => Json.write value

open ValueType (textOf)

theorem renderValue_eq_textOf (models : List Model) :
    renderValue models = textOf models (renderValue models) := by
  funext type value
  cases type with
  | primitive kind =>
    cases value with
    | number n => cases kind <;> cases n <;> simp [renderValue, textOf, Data.isNull, Primitive.textOf]
    | _ => cases kind <;> simp [renderValue, textOf, Data.isNull, Primitive.textOf]
  | array items => cases value <;> simp [renderValue, textOf, Data.isNull, renderItems_eq]
  | map values => cases value <;> simp [renderValue, textOf, Data.isNull, renderEntries_eq]
  | nullable inner => cases value <;> simp [renderValue, textOf, Data.isNull]
  | model name =>
    cases value with
    | mapping es =>
      cases hmodel : models.find? (·.name = name) with
      | some m => simp [renderValue, textOf, Data.isNull, hmodel, m.render_eq models]
      | none => simp [renderValue, textOf, Data.isNull, hmodel]
    | _ => simp [renderValue, textOf, Data.isNull]

/-- The first of two values, by their types, may be rendered to render the second one. -/
inductive Within (models : List Model) : ValueType × Data → ValueType × Data → Prop where
  | nullable {inner : ValueType} {value : Data} (hvalue : value ≠ .null) :
      Within models (inner, value) (.nullable inner, value)
  | item {items : ValueType} {ds : List Data} {d : Data} (hitem : d ∈ ds) :
      Within models (items, d) (.array items, .list ds)
  | entry {values : ValueType} {es : List (Data × Data)} {e : Data × Data} (hentry : e ∈ es) :
      Within models (values, e.2) (.map values, .mapping es)
  | field {name : String} {es : List (Data × Data)} {m : Model} {f : Field} {value : Data}
      (hmodel : models.find? (·.name = name) = some m) (hfield : f ∈ m.fields)
      (hvalue : (Data.mapping es).get? f.name = some value) :
      Within models (f.type, value) (.model name, .mapping es)

/-- The value gets smaller, or it stays the same and the type gets smaller. -/
theorem Within.decreases {inner outer : ValueType × Data} (h : Within models inner outer) :
    Prod.Lex (· < ·) (· < ·) (sizeOf inner.2, sizeOf inner.1) (sizeOf outer.2, sizeOf outer.1) := by
  cases h with
  | nullable =>
    apply Prod.Lex.right
    simp
  | item hitem =>
    apply Prod.Lex.left
    have := List.sizeOf_lt_of_mem hitem
    simp
    omega
  | @entry values es e hentry =>
    apply Prod.Lex.left
    have := List.sizeOf_lt_of_mem hentry
    obtain ⟨key, value⟩ := e
    simp at this ⊢
    omega
  | field _ _ hvalue => exact Prod.Lex.left _ _ (Data.sizeOf_get? hvalue)

theorem wellFounded_within (models : List Model) : WellFounded (Within models) := by
  have hlex : WellFounded (Prod.Lex (· < ·) (· < ·) : Nat × Nat → Nat × Nat → Prop) :=
    WellFounded.prod_lex Nat.lt_wfRel.wf Nat.lt_wfRel.wf
  let sizes (part : ValueType × Data) : Nat × Nat := (sizeOf part.2, sizeOf part.1)
  exact Subrelation.wf Within.decreases (InvImage.wf sizes hlex)

/-- Only the texts of the values in a value count. -/
theorem textOf_congr (h : ∀ part, Within models part (type, value) →
    text part.1 part.2 = text' part.1 part.2) :
    textOf models text type value = textOf models text' type value := by
  by_cases hnull : value = .null
  · rw [hnull]
    rfl
  cases type with
  | primitive => rfl
  | nullable inner => simp only [textOf, h _ (.nullable hnull)]
  | array items =>
    cases value with
    | list ds =>
      have hitems : ds.map (text items) = ds.map (text' items) :=
        List.map_congr_left fun d hd => h _ (.item hd)
      simp only [textOf, hitems]
    | _ => rfl
  | map values =>
    cases value with
    | mapping es =>
      have hentries : es.filterMap (fun e => e.1.keyText?.map fun name => (name, text values e.2)) =
          es.filterMap fun e => e.1.keyText?.map fun name => (name, text' values e.2) :=
        List.filterMap_congr fun e he => by rw [h _ (.entry he)]
      simp only [textOf, hentries]
    | _ => rfl
  | model name =>
    cases value with
    | mapping es =>
      cases hmodel : models.find? (·.name = name) with
      | none => simp only [textOf, hmodel]
      | some m =>
        have hparts : m.parts text (.mapping es) = m.parts text' (.mapping es) := by
          refine Model.parts_congr fun f hf => ?_
          rw [Field.shown, Field.shown, Field.valueIn]
          cases hget : (Data.mapping es).get? f.name with
          | none => rfl
          | some value => rw [Option.getD_some, h _ (.field hmodel hf hget)]
        simp only [textOf, hmodel, hparts]
    | _ => rfl

/-- Texts that are made of the texts of the values in a value, step by step, are the renderings. -/
theorem eq_renderValue_iff : text = textOf models text ↔ text = renderValue models := by
  constructor
  · intro h
    funext type value
    suffices hpart : ∀ part : ValueType × Data, text part.1 part.2 = renderValue models part.1 part.2
      from hpart (type, value)
    intro part
    induction part using (wellFounded_within models).induction with
    | _ part ih =>
      calc text part.1 part.2
        _ = textOf models text part.1 part.2 := congrFun (congrFun h _) _
        _ = textOf models (renderValue models) part.1 part.2 := textOf_congr ih
        _ = renderValue models part.1 part.2 :=
          (congrFun (congrFun (renderValue_eq_textOf models) _) _).symm
  · rintro rfl
    exact renderValue_eq_textOf models

/-! ## Other lists of models -/

/-- Under each name that the type mentions, the same is found in both lists. -/
def LooksUpSame (models models' : List Model) (type : ValueType) : Prop :=
  ∀ name, type.Mentions name → models'.find? (·.name = name) = models.find? (·.name = name)

theorem textOf_eq_of_looksUpSame (h : LooksUpSame models models' type)
    (text : ValueType → Data → String) (value : Data) :
    textOf models' text type value = textOf models text type value := by
  cases type with
  | model name => simp only [textOf, h name (.model name)]
  | _ => simp only [textOf]

/-- The types within a type are parts of it or types of fields. -/
theorem LooksUpSame.within
    (hfields : ∀ m ∈ models, ∀ f ∈ m.fields, LooksUpSame models models' f.type)
    {inner outer : ValueType × Data} (h : LooksUpSame models models' outer.1)
    (hwithin : Within models inner outer) : LooksUpSame models models' inner.1 := by
  cases hwithin with
  | nullable => exact fun name hname => h name (.nullable hname)
  | item => exact fun name hname => h name (.array hname)
  | entry => exact fun name hname => h name (.map hname)
  | field hmodel hfield => exact hfields _ (List.mem_of_find?_eq_some hmodel) _ hfield

theorem renderValue_eq_of_looksUpSame
    (hfields : ∀ m ∈ models, ∀ f ∈ m.fields, LooksUpSame models models' f.type)
    (htype : LooksUpSame models models' type) (value : Data) :
    renderValue models' type value = renderValue models type value := by
  suffices hpart : ∀ part : ValueType × Data, LooksUpSame models models' part.1 →
      renderValue models' part.1 part.2 = renderValue models part.1 part.2
    from hpart (type, value) htype
  intro part
  -- along the values in values, whose types stay among those that both lists know alike
  induction part using (wellFounded_within models).induction with
  | _ part ih =>
    intro hsame
    calc renderValue models' part.1 part.2
      _ = textOf models' (renderValue models') part.1 part.2 :=
        congrFun (congrFun (renderValue_eq_textOf models') _) _
      _ = textOf models (renderValue models') part.1 part.2 := textOf_eq_of_looksUpSame hsame _ _
      _ = textOf models (renderValue models) part.1 part.2 :=
        textOf_congr fun inner hinner => ih inner hinner (hsame.within hfields hinner)
      _ = renderValue models part.1 part.2 :=
        (congrFun (congrFun (renderValue_eq_textOf models) _) _).symm

namespace Model

/-- The models have other names than those of the list, which no field of the list mentions. -/
def Unmentioned (models extra : List Model) : Prop :=
  ∀ e ∈ extra, e.name ∉ models.map (·.name) ∧
    ∀ m ∈ models, ∀ f ∈ m.fields, ¬ f.type.Mentions e.name

theorem find?_of_perm (hdistinct : (models.map (·.name)).Nodup)
    (hperm : models'.Perm (models ++ extra)) (hname : ∀ e ∈ extra, e.name ≠ name) :
    models'.find? (·.name = name) = models.find? (·.name = name) := by
  have hmem {m : Model} (hfind : models'.find? (·.name = name) = some m) :
      models.find? (·.name = name) = some m := by
    have hm := hperm.mem_iff.1 (List.mem_of_find?_eq_some hfind)
    have heq : m.name = name := by simpa using List.find?_some hfind
    rw [Schema.find?_eq_some_iff_of_nodup hdistinct]
    exact ⟨(List.mem_append.1 hm).resolve_right fun he => hname m he heq, heq⟩
  cases hfind : models'.find? (·.name = name) with
  | some m => exact (hmem hfind).symm
  | none =>
    symm
    rw [List.find?_eq_none] at hfind ⊢
    exact fun m hm => hfind m (hperm.mem_iff.2 (List.mem_append_left _ hm))

theorem render_eq_of_perm (hdistinct : (models.map (·.name)).Nodup)
    (hextra : Unmentioned models extra) (hperm : models'.Perm (models ++ extra)) {m : Model}
    (hm : m ∈ models) (value : Data) : m.render models' value = m.render models value := by
  have hfields : ∀ m ∈ models, ∀ f ∈ m.fields, LooksUpSame models models' f.type := by
    intro m hm f hf name hname
    refine find?_of_perm hdistinct hperm ?_
    rintro e he rfl
    exact (hextra e he).2 m hm f hf hname
  have hparts : m.parts (renderValue models') value = m.parts (renderValue models) value := by
    refine parts_congr fun f hf => ?_
    rw [Field.shown, Field.shown, renderValue_eq_of_looksUpSame hfields (hfields m hm f hf)]
  rw [render_eq, render_eq, hparts]

/-- No rendering leads on to others for ever, and the texts of the values in values determine it. It is
the same by a list of the models in another order, and by one with more models that nothing
mentions. -/
theorem renderings_settled (models : List Model) (hdistinct : (models.map (·.name)).Nodup) :
    WellFounded (Within models) ∧
    (∀ text, text = textOf models text ↔ text = renderValue models) ∧
    ∀ m ∈ models, ∀ value,
      (∀ models', models'.Perm models → m.render models' value = m.render models value) ∧
      ∀ extra, Unmentioned models extra → ∀ models', models'.Perm (models ++ extra) →
        m.render models' value = m.render models value := by
  refine ⟨wellFounded_within models, fun text => eq_renderValue_iff, fun m hm value => ⟨?_, ?_⟩⟩
  · intro models' hperm
    have hextra : Unmentioned models [] := fun _ he => absurd he List.not_mem_nil
    exact render_eq_of_perm hdistinct hextra (by rwa [List.append_nil]) hm value
  · intro extra hextra models' hperm
    exact render_eq_of_perm hdistinct hextra hperm hm value

/-- A model with fields of the given types. -/
def withFields (name : String) (fields : List (String × ValueType)) : Model :=
  { name
    description := none
    fields := fields.map fun (name, type) =>
      { name, type, required := true, description := none, allowedValues := [], cyclic := false } }

/-- An owner has a pet and a home, which is not in the list, and a pet has an owner. -/
def petOwner : Model := withFields "Owner" [("pet", .model "Pet"), ("home", .model "Home")]

def ownedPet : Model := withFields "Pet" [("name", .primitive .text), ("owner", .model "Owner")]

def petShop : Model := withFields "Shop" [("clerk", .model "Owner")]

/-- Owners and pets are rendered in each other, and it does not matter where the shop stands. -/
theorem owners_settled : ([petOwner, ownedPet].map (·.name)).Nodup ∧
    [petShop, ownedPet, petOwner].Perm ([petOwner, ownedPet] ++ [petShop]) ∧
    Unmentioned [petOwner, ownedPet] [petShop] ∧
    petOwner.render [petShop, ownedPet, petOwner] (.mapping [(.text "pet", .mapping [
      (.text "owner", .mapping [(.text "home", .mapping [])]), (.text "name", .text "Rex")])]) =
      "Owner \x7b pet=Pet \x7b name=Rex, owner=Owner \x7b home=\x7b\x7d \x7d \x7d \x7d" := by
  have hdistinct : ([petOwner, ownedPet].map (·.name)).Nodup := by decide
  have hperm : [petShop, ownedPet, petOwner].Perm ([petOwner, ownedPet] ++ [petShop]) := by decide
  have hextra : Unmentioned [petOwner, ownedPet] [petShop] := by
    unfold Unmentioned
    simp only [ValueType.mentions_iff]
    decide
  refine ⟨hdistinct, hperm, hextra, ?_⟩
  have hrender := (renderings_settled [petOwner, ownedPet] hdistinct).2.2 petOwner List.mem_cons_self
  rw [(hrender _).2 [petShop] hextra _ hperm]
  have hhome : Json.write (.mapping []) = "\x7b\x7d" := by decide +kernel
  calc petOwner.render [petOwner, ownedPet] _
    _ = braced "Owner" ["pet=" ++ braced "Pet" ["name=Rex",
          "owner=" ++ braced "Owner" ["home=" ++ "\x7b\x7d"]]] := by
      simp [render_eq, parts, petOwner, ownedPet, withFields, Field.shown, Field.valueIn, Data.get?,
        Data.entries?, Data.lookup, Data.isNull, renderValue, hhome]
    _ = _ := rfl

end Model

end TypedClient
