import TypedClient.Proofs.Conversion.Swagger
import TypedClient.Proofs.Hoisting.Catalog

/-!
# What Swagger 2.0 schemas refer to

A type that is made of a schema refers to what references in the schema lead to, and to what is hoisted
on the way. So do the types of operations.
-/

namespace TypedClient.Swagger

open TypedClient.Schema (Catalog Conversion Definition Property ReferenceKind TypeRef SoundProperties)
open TypedClient.Schema.Conversion (Fills)

/-! ## Schemas -/

/-- A reference in the schema leads to `name`. What is under `oneOf` and `anyOf` is not looked at. -/
inductive Schema.LeadsTo (name : String) : Schema → Prop where
  | reference {s : Schema} {r : String} (hr : s.reference = some r)
      (htarget : ReferenceKind.schema.target? r = some name) : LeadsTo name s
  | items {s items : Schema} (hitems : s.items = some items) (h : LeadsTo name items) :
      LeadsTo name s
  | property {s : Schema} {e : String × Schema} (he : e ∈ s.properties) (h : LeadsTo name e.2) :
      LeadsTo name s
  | part {s part : Schema} (hpart : part ∈ s.allOf) (h : LeadsTo name part) : LeadsTo name s
  | values {s values : Schema} (hvalues : s.additional = .schema values) (h : LeadsTo name values) :
      LeadsTo name s

variable {written : String → Prop} {reserved : List String} {c : Catalog} {s part : Schema}
  {name owner place : String} {l : Location} {required : List String}
  {properties : List (String × Schema)} {declared : List Property} {parts : List Schema}

/-- Wherever it is written, the schema becomes a type that refers to known names. -/
def Schema.Referring (written : String → Prop) (reserved : List String) (s : Schema) : Prop :=
  ∀ c place l, Fills written reserved c (typeOf s place l) fun type c' =>
    type.Within (c'.Known written)

theorem propertiesOf_fills (h : ∀ e ∈ properties, e.2.Referring written reserved)
    (hdeclared : SoundProperties (c.Known written) declared) :
    Fills written reserved c (propertiesOf owner required l properties declared)
      fun made c' => SoundProperties (c'.Known written) made := by
  induction properties generalizing declared c with
  | nil =>
    rw [propertiesOf]
    exact .pure hdeclared
  | cons e properties ih =>
    obtain ⟨hs, hrest⟩ := List.forall_mem_cons.1 h
    rw [propertiesOf]
    refine (hs c _ _).bind fun type c' hextends htype => ih hrest ?_
    exact (hdeclared.mono fun _ => hextends.known).declare htype

theorem partPropertiesOf_fills
    (h : ∀ part ∈ parts, ∀ e ∈ part.properties, e.2.Referring written reserved)
    (hdeclared : SoundProperties (c.Known written) declared) :
    Fills written reserved c (partPropertiesOf owner required l parts declared)
      fun made c' => SoundProperties (c'.Known written) made := by
  induction parts generalizing declared c with
  | nil =>
    rw [partPropertiesOf]
    exact .pure hdeclared
  | cons part parts ih =>
    obtain ⟨hpart, hrest⟩ := List.forall_mem_cons.1 h
    rw [partPropertiesOf]
    split
    · rw [pure_bind]
      exact ih hrest hdeclared
    · exact (propertiesOf_fills hpart hdeclared).bind fun own c' _ hown => ih hrest hown

/-- The bases are written. -/
theorem bases_fills (h : ∀ name, s.LeadsTo name → written name) :
    Fills written reserved c (s.bases l) fun bases _ => ∀ base ∈ bases, written base := by
  refine .mapM (fun e he c' _ => ?_) fun _ _ _ _ hbase => hbase
  obtain ⟨⟨part, i⟩, hpart, hr⟩ := List.mem_filterMap.1 he
  obtain ⟨r, hreference, rfl⟩ := Option.map_eq_some_iff.1 hr
  refine (Fills.target _ _ _).mono fun base _ htarget => h base ?_
  exact .part (List.fst_mem_of_mem_zipIdx hpart) (.reference hreference htarget)

theorem objectOf_fills (h : ∀ name, s.LeadsTo name → written name)
    (hown : ∀ e ∈ s.properties, e.2.Referring written reserved)
    (hparts : ∀ part ∈ s.allOf, ∀ e ∈ part.properties, e.2.Referring written reserved) :
    Fills written reserved c (objectOf name s l) fun d c' =>
      d.name = name ∧ d.Sound (c'.Known written) := by
  rw [objectOf]
  refine (bases_fills h).bind fun bases _ _ hbases => ?_
  refine (propertiesOf_fills hown .nil).bind fun own _ _ hown => ?_
  refine (partPropertiesOf_fills hparts hown).bind fun properties _ _ hproperties => ?_
  exact .pure ⟨rfl, hproperties, fun base hbase => .inl (hbases base hbase)⟩

theorem hoisted_fills (h : ∀ name, s.LeadsTo name → written name)
    (hown : ∀ e ∈ s.properties, e.2.Referring written reserved)
    (hparts : ∀ part ∈ s.allOf, ∀ e ∈ part.properties, e.2.Referring written reserved) :
    Fills written reserved c (hoisted s place l) fun type c' => type.Within (c'.Known written) := by
  rw [hoisted]
  refine (Fills.claimed fun _ _ _ => objectOf_fills h hown hparts).mono ?_
  rintro _ c' ⟨name, rfl, -, hkept⟩
  exact TypeRef.within_reference_iff.2 (.inr hkept)

theorem values_fills
    (h : ∀ values, s.additional = .schema values → values.Referring written reserved) :
    Fills written reserved c (match _h : s.additional with
      | .schema values =>
        TypeRef.map <$> typeOf values (place ++ "Value") (l.key "additionalProperties")
      | .free | .unsaid => pure .any) fun type c' => type.Within (c'.Known written) := by
  split
  · rename_i values hvalues
    exact (h values hvalues c _ _).map fun _ _ htype => htype.map
  · exact .pure TypeRef.within_any
  · exact .pure TypeRef.within_any

theorem Schema.LeadsTo.of_soleBase {r : String} (hr : s.soleBase? = some r)
    (htarget : ReferenceKind.schema.target? r = some name) : s.LeadsTo name := by
  unfold Schema.soleBase? at hr
  split at hr
  · rename_i part hparts
    split at hr
    · exact .part (hparts ▸ List.mem_singleton_self part) (.reference hr htarget)
    · cases hr
  · cases hr

theorem referring (s : Schema) (h : ∀ name, s.LeadsTo name → written name) :
    s.Referring written reserved := by
  -- all that a type is made from is smaller than the schema
  have hown : ∀ e ∈ s.properties, e.2.Referring written reserved :=
    fun e he => referring e.2 fun name hname => h name (.property he hname)
  have hparts : ∀ part ∈ s.allOf, ∀ e ∈ part.properties, e.2.Referring written reserved :=
    fun part hpart e he => referring e.2 fun name hname => h name (.part hpart (.property he hname))
  have hvalues : ∀ values, s.additional = .schema values → values.Referring written reserved :=
    fun values hvalues => referring values fun name hname => h name (.values hvalues hname)
  have hitems : ∀ items, s.items = some items → items.Referring written reserved :=
    fun items hitems => referring items fun name hname => h name (.items hitems hname)
  intro c place l
  rw [typeOf]
  split
  · rename_i r hr
    exact .reference fun name htarget => h name (.reference hr htarget)
  · split
    · split
      · rename_i r hsole
        exact .reference fun name htarget => h name (.of_soleBase hsole htarget)
      · exact hoisted_fills h hown hparts
    · split
      · exact .pure TypeRef.within_any
      · split
        · split
          · rename_i items hsome
            exact (hitems items hsome c _ _).map fun _ _ htype => htype.array
          · exact .pure TypeRef.within_any.array
        · split
          · exact hoisted_fills h hown hparts
          · exact values_fills hvalues
        · split
          · exact hoisted_fills h hown hparts
          · exact values_fills hvalues
        · exact .pure TypeRef.within_primitive
termination_by sizeOf s
decreasing_by
  · exact sizeOf_property he
  · exact Nat.lt_trans (sizeOf_property he) (sizeOf_part hpart)
  · exact Schema.sizeOf_additional hvalues
  · exact Schema.sizeOf_items hitems

/-! ## Operations -/

def Parameter.LeadsTo (p : Parameter) (name : String) : Prop :=
  (∃ s, p.schema = some s ∧ s.LeadsTo name) ∨ ∃ s, p.items = some s ∧ s.LeadsTo name

def Response.LeadsTo (r : Response) (name : String) : Prop :=
  ∃ s, r.schema = some s ∧ s.LeadsTo name

/-- A path item declares a parameter. -/
def DeclaresParameter (item : OrderedMap Data) (p : Parameter) : Prop :=
  ∃ v ps, item.get? "parameters" = some v ∧
    TypedClient.Decoder.list true Decoder.parameter v = some ps ∧ p ∈ ps

/-- A path item declares an operation. -/
def DeclaresOperation (item : OrderedMap Data) (o : Operation) : Prop :=
  ∃ e ∈ item.entries, (Schema.Verb.ofKey? e.1).isSome ∧ Decoder.operation e.2 = some o

/-- A reference in the document leads to the schema `name`. -/
inductive Document.LeadsTo (d : Document) (name : String) : Prop where
  | definition {e : String × Schema} (he : e ∈ d.definitions.entries) (h : e.2.LeadsTo name)
  | parameter {e : String × Parameter} (he : e ∈ d.parameters) (h : e.2.LeadsTo name)
  | response {e : String × Response} (he : e ∈ d.responses) (h : e.2.LeadsTo name)
  | pathParameter {e : String × Data} {item : OrderedMap Data} {p : Parameter}
      (he : e ∈ d.paths.entries) (hitem : Decoder.pathItem e.2 = some item)
      (hp : DeclaresParameter item p) (h : p.LeadsTo name)
  | operationParameter {e : String × Data} {item : OrderedMap Data} {o : Operation} {p : Parameter}
      (he : e ∈ d.paths.entries) (hitem : Decoder.pathItem e.2 = some item)
      (ho : DeclaresOperation item o) (hp : p ∈ o.parameters) (h : p.LeadsTo name)
  | operationResponse {e : String × Data} {item : OrderedMap Data} {o : Operation}
      {r : String × Response} (he : e ∈ d.paths.entries)
      (hitem : Decoder.pathItem e.2 = some item)
      (ho : DeclaresOperation item o) (hr : r ∈ o.responses) (h : r.2.LeadsTo name)

theorem simpleType_fills {p : Parameter} (h : ∀ name, p.LeadsTo name → written name) :
    Fills written reserved c (p.simpleType l) fun type c' => type.Within (c'.Known written) := by
  unfold Parameter.simpleType
  split
  · split
    · rename_i items hitems
      refine (referring items (fun name hname => h name (.inr ⟨items, hitems, hname⟩)) c _ _).map ?_
      exact fun _ _ htype => htype.array
    · exact .pure TypeRef.within_any.array
  · exact .pure TypeRef.within_primitive
  · exact .pure TypeRef.within_any

section Document

variable {d : Document} (hd : ∀ name, d.LeadsTo name → written name)

include hd

theorem parameter_fills {p : Parameter} (h : ∀ name, p.LeadsTo name → written name) :
    Fills written reserved c (d.parameter p l) fun p' _ => ∀ name, p'.LeadsTo name → written name := by
  refine (Fills.of_unchanged (wp_parameter d p l c)).mono fun p' _ hreaches => ?_
  cases hreaches with
  | itself => exact h
  | shared _ _ hlookup =>
    exact fun name hname => hd name (.parameter (OrderedMap.mem_of_lookup_eq_some hlookup) hname)

theorem response_fills {r : Response} (h : ∀ name, r.LeadsTo name → written name) :
    Fills written reserved c (d.response r l) fun r' _ => ∀ name, r'.LeadsTo name → written name := by
  refine (Fills.of_unchanged (wp_response d r l c)).mono fun r' _ hreaches => ?_
  cases hreaches with
  | itself => exact h
  | shared _ _ hlookup =>
    exact fun name hname => hd name (.response (OrderedMap.mem_of_lookup_eq_some hlookup) hname)

theorem convertParameter_fills {p : Parameter} {method : String}
    (h : ∀ name, p.LeadsTo name → written name) :
    Fills written reserved c (d.convertParameter method p l) fun made c' =>
      made.type.Within (c'.Known written) := by
  unfold Document.convertParameter
  refine (parameter_fills hd h).bind fun p c' _ hp => ?_
  split
  · dsimp only
    split
    · split
      · rename_i s hs _
        refine (referring s (fun name hname => hp name (.inl ⟨s, hs, hname⟩)) _ _ _).bind ?_
        exact fun type _ _ htype => .pure htype
      · exact .bind (.throw _) fun type _ _ htype => .pure htype
      · exact (simpleType_fills hp).bind fun type _ _ htype => .pure htype
    · exact .throw _
  · exact .throw _

theorem convertParameters_fills {ps : List Parameter} {method : String}
    (h : ∀ p ∈ ps, ∀ name, p.LeadsTo name → written name) :
    Fills written reserved c (d.convertParameters method ps l) fun made c' =>
      ∀ p ∈ made, p.type.Within (c'.Known written) := by
  refine .mapM (fun e he c' _ => ?_) fun _ _ _ hextends hp => hp.mono fun _ => hextends.known
  exact convertParameter_fills hd (h e.1 (List.fst_mem_of_mem_zipIdx he))

theorem convertResponses_fills {responses : List (String × Response)}
    (h : ∀ e ∈ responses, ∀ name, e.2.LeadsTo name → written name) :
    Fills written reserved c (d.convertResponses responses l) fun made _ =>
      ∀ e ∈ made, ∀ name, e.2.LeadsTo name → written name := by
  refine .mapM (fun e he c' _ => ?_) fun _ _ _ _ hr => hr
  exact (response_fills hd (h e he)).map fun r _ hr => hr

omit hd in
theorem returned_fills {responses : List (String × Response)} {method : String}
    (h : ∀ e ∈ responses, ∀ name, e.2.LeadsTo name → written name) :
    Fills written reserved c (returned method responses l) fun made c' =>
      ∀ r, made = some r → r.type.Within (c'.Known written) := by
  unfold returned
  dsimp only
  split
  · split
    · rename_i hentry
      have hr := h _ (List.mem_of_getElem? hentry)
      split
      · rename_i s hs
        refine (referring s (fun name hname => hr name ⟨s, hs, hname⟩) _ _ _).bind ?_
        rintro type _ - htype
        exact .pure fun r heq => Option.some.inj heq ▸ htype
      · exact .pure nofun
    · exact .pure nofun
  · exact .pure nofun

theorem convertOperation_fills {verb : Schema.Verb} {path : String} {shared : List Parameter}
    {o : Operation} (hshared : ∀ p ∈ shared, ∀ name, p.LeadsTo name → written name)
    (hown : ∀ p ∈ o.parameters, ∀ name, p.LeadsTo name → written name)
    (hresponses : ∀ e ∈ o.responses, ∀ name, e.2.LeadsTo name → written name) :
    Fills written reserved c (d.convertOperation verb path shared o l) fun made c' =>
      made.Within (c'.Known written) := by
  refine (convertParameters_fills hd hshared).bind fun inherited _ _ hinherited => ?_
  refine (convertParameters_fills hd hown).bind fun own _ hown' hown => ?_
  refine (convertResponses_fills hd hresponses).bind fun responses _ hresponses' hresponses => ?_
  refine (returned_fills hresponses).bind fun response c' hresponse' hresponse => .pure ⟨?_, hresponse⟩
  have hextends := hresponses'.trans hresponse'
  intro p hp
  rcases Schema.mem_of_mem_mergeParameters hp with hp | hp
  · exact (hinherited p hp).mono fun _ => (hown'.trans hextends).known
  · exact (hown p hp).mono fun _ => hextends.known

omit hd in
/-- What is decoded, is decoded from the data. -/
theorem decodeAt_fills {α : Type} {decoder : Decoder α} {v : Data} :
    Fills written reserved c (decodeAt decoder v l) fun a _ => decoder v = some a := by
  unfold decodeAt
  split
  · exact .pure (by assumption)
  · exact .throw _

theorem convertPath_fills {e : String × Data} {item : OrderedMap Data} (he : e ∈ d.paths.entries)
    (hitem : Decoder.pathItem e.2 = some item) :
    Fills written reserved c (d.convertPath e.1 item) fun made c' =>
      ∀ o ∈ made, o.Within (c'.Known written) := by
  have hoperations (l : Location) (c : Catalog) (shared : List Parameter)
      (verbs : List (String × Schema.Verb × Data))
      (hshared : ∀ p ∈ shared, ∀ name, p.LeadsTo name → written name)
      (hverbs : ∀ entry ∈ verbs, ∀ o, Decoder.operation entry.2.2 = some o →
        DeclaresOperation item o) :
      Fills written reserved c (verbs.mapM fun entry => do
        let o ← decodeAt Decoder.operation entry.2.2 (l.key entry.1)
        d.convertOperation entry.2.1 e.1 shared o (l.key entry.1)) fun made c' =>
      ∀ o ∈ made, o.Within (c'.Known written) := by
    refine .mapM (fun entry hentry c' _ => ?_) fun _ _ _ hextends ho => ho.mono fun _ => hextends.known
    refine decodeAt_fills.bind fun o _ _ ho => ?_
    have hdeclares := hverbs entry hentry o ho
    exact convertOperation_fills hd hshared
      (fun p hp name hname => hd name (.operationParameter he hitem hdeclares hp hname))
      (fun r hr name hname => hd name (.operationResponse he hitem hdeclares hr hname))
  have hverbs : ∀ entry ∈ item.entries.filterMap fun field =>
      (Schema.Verb.ofKey? field.1).map (field.1, ·, field.2),
        ∀ o, Decoder.operation entry.2.2 = some o → DeclaresOperation item o := by
    intro entry hentry o ho
    obtain ⟨field, hmem, hmap⟩ := List.mem_filterMap.1 hentry
    obtain ⟨verb, hverb, rfl⟩ := Option.map_eq_some_iff.1 hmap
    exact ⟨_, hmem, Option.isSome_of_eq_some hverb, ho⟩
  unfold Document.convertPath
  dsimp only
  split
  · exact .throw _
  · split
    · rename_i v hv
      refine decodeAt_fills.bind fun shared c' _ hshared => ?_
      refine hoperations _ c' shared _ (fun p hp name hname => ?_) hverbs
      exact hd name (.pathParameter he hitem ⟨v, shared, hv, hshared, hp⟩ hname)
    · refine Fills.bind (Q := fun shared _ => shared = []) (.pure rfl) fun shared c' _ hshared => ?_
      exact hoperations _ c' shared _ (hshared ▸ nofun) hverbs

theorem convertPaths_fills : Fills written reserved c d.convertPaths fun made c' =>
    ∀ o ∈ made, o.Within (c'.Known written) := by
  unfold Document.convertPaths
  dsimp only
  refine .flatten (fun e he c' _ => ?_) fun _ _ _ hextends ho => ho.mono fun _ => hextends.known
  exact decodeAt_fills.bind fun item _ _ hitem =>
    convertPath_fills hd (List.mem_of_mem_filter he) hitem

end Document

/-! ## Documents -/

theorem convertDefinition_fills {done : List (String × Schema)}
    (h : ∀ name, s.LeadsTo name → written name) (hnew : name ∉ done.map Prod.fst)
    (hc : c.Filled written reserved Schema.isObject done) :
    wp (convertDefinition name s) c
      (fun _ => Catalog.Filled written reserved Schema.isObject (done ++ [(name, s)]))
      (fun _ _ => True) := by
  have hown : ∀ e ∈ s.properties, e.2.Referring written reserved :=
    fun e he => referring e.2 fun name hname => h name (.property he hname)
  have hparts : ∀ part ∈ s.allOf, ∀ e ∈ part.properties, e.2.Referring written reserved :=
    fun part hpart e he => referring e.2 fun name hname => h name (.part hpart (.property he hname))
  unfold convertDefinition
  dsimp only
  split
  · rename_i hobject
    rw [wp_bind]
    refine (objectOf_fills h hown hparts [] hc.tidy).imp fun d c' hd => ?_
    obtain ⟨htidy, hextends, rfl, hsound⟩ := hd
    exact (hc.extends hextends htidy).declare hnew hobject hsound
  · rename_i hobject
    rw [wp_bind]
    refine (referring s h c _ _ [] hc.tidy).imp fun type c' htype => ?_
    obtain ⟨htidy, hextends, htype⟩ := htype
    exact (hc.extends hextends htidy).addAlias hnew (Bool.eq_false_iff.2 hobject) htype

theorem convert_fills (d : Document) :
    wp d.convert (Catalog.withNames d.definitions.names)
      (fun os c => c.Filled d.LeadsTo d.definitions.names Schema.isObject d.definitions.entries ∧
        ∀ o ∈ os, o.Within (c.Known d.LeadsTo)) (fun _ _ => True) := by
  have hschemas : wp (d.definitions.entries.forM fun e => convertDefinition e.1 e.2)
      (Catalog.withNames d.definitions.names)
      (fun _ => Catalog.Filled d.LeadsTo d.definitions.names Schema.isObject d.definitions.entries)
      (fun _ _ => True) :=
    Catalog.filled_of_forM fun e he done c hnew hc =>
      convertDefinition_fills (fun name => .definition he) hnew hc
  rw [Document.convert, wp_bind]
  refine hschemas.imp fun _ c hc => ?_
  exact (convertPaths_fills (fun _ h => h) [] hc.tidy).imp fun os c' hos =>
    ⟨hc.extends hos.2.1 hos.1, hos.2.2⟩

end TypedClient.Swagger
