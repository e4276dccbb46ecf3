import TypedClient.Proofs.Conversion.OpenApi
import TypedClient.Proofs.Hoisting.Catalog

/-!
# What OpenAPI 3 schemas refer to

A type that is made of a schema refers to what references in the schema lead to, and to what is hoisted
on the way. So do the types of operations.
-/

namespace TypedClient.OpenApi

open TypedClient.Schema (Catalog Conversion Definition Property ReferenceKind TypeRef SoundProperties)
open TypedClient.Schema.Conversion (Fills)

/-! ## Schemas -/

/-- A reference in the schema leads to `name`. Of a general schema only the properties are looked
at. -/
inductive OrReference.LeadsTo (name : String) : OrReference Schema → Prop where
  | reference {r : String} (htarget : ReferenceKind.schema.target? r = some name) :
      LeadsTo name (.reference r)
  | items {schema : Schema} {items : OrReference Schema} (hkind : schema.kind = .array (some items))
      (h : LeadsTo name items) : LeadsTo name (.item schema)
  | property {schema : Schema} {e : String × OrReference Schema} (he : e ∈ schema.properties)
      (h : LeadsTo name e.2) : LeadsTo name (.item schema)
  | part {schema : Schema} {parts : List (OrReference Schema)} {part : OrReference Schema}
      (hkind : schema.kind = .allOf parts) (hpart : part ∈ parts) (h : LeadsTo name part) :
      LeadsTo name (.item schema)
  | values {schema : Schema} {properties : List (String × OrReference Schema)}
      {required : List String} {values : OrReference Schema}
      (hkind : schema.kind = .object properties required (.schema values))
      (h : LeadsTo name values) : LeadsTo name (.item schema)

variable {written : String → Prop} {reserved : List String} {c : Catalog}
  {s x : OrReference Schema} {schema : Schema} {name owner place r : String} {l : Location}
  {required : List String} {entries : List (String × OrReference Schema)} {declared : List Property}

/-- What leads somewhere is reached through the parts. -/
theorem Takes.leadsTo (h : Takes s x) (hx : x.LeadsTo name) : s.LeadsTo name := by
  induction h with
  | self => exact hx
  | part hkind hpart _ ih => exact .part hkind hpart (ih hx)

/-- Wherever it is written, the schema becomes a type that refers to known names. -/
def OrReference.Referring (written : String → Prop) (reserved : List String)
    (s : OrReference Schema) : Prop :=
  ∀ c place l, Fills written reserved c (typeOf s place l) fun type c' =>
    type.Within (c'.Known written)

/-- As `Referring`, for the properties of all parts. -/
def OrReference.ReferringParts (written : String → Prop) (reserved : List String)
    (s : OrReference Schema) : Prop :=
  ∀ schema, Takes s (.item schema) → ∀ e ∈ schema.properties, e.2.Referring written reserved

theorem propertiesOf_fills (h : ∀ e ∈ entries, e.2.Referring written reserved)
    (hdeclared : SoundProperties (c.Known written) declared) :
    Fills written reserved c (propertiesOf owner required l entries declared)
      fun made c' => SoundProperties (c'.Known written) made := by
  induction entries generalizing declared c with
  | nil =>
    rw [propertiesOf]
    exact .pure hdeclared
  | cons e entries ih =>
    obtain ⟨hs, hrest⟩ := List.forall_mem_cons.1 h
    rw [propertiesOf]
    refine (hs c _ _).bind fun type c' hextends htype => ih hrest ?_
    exact (hdeclared.mono fun _ => hextends.known).declare htype

mutual

theorem partProperties_fills (schema : Schema)
    (h : (OrReference.item schema).ReferringParts written reserved) :
    ∀ c declared, SoundProperties (c.Known written) declared →
      Fills written reserved c (partProperties owner required l schema declared)
        fun made c' => SoundProperties (c'.Known written) made := by
  intro c declared hdeclared
  have hown := h schema (.self _)
  rw [partProperties]
  dsimp only
  split
  · rename_i properties _ _ hkind
    have hproperties : schema.properties = properties := by rw [Schema.properties, hkind]
    exact propertiesOf_fills (hproperties ▸ hown) hdeclared
  · rename_i properties _ _ hkind
    have hproperties : schema.properties = properties := by rw [Schema.properties, hkind]
    exact propertiesOf_fills (hproperties ▸ hown) hdeclared
  · rename_i parts hkind
    have := sizeOf_parts hkind
    exact partsProperties_fills parts
      (fun part hpart x hx => h x (.part hkind hpart hx)) c declared hdeclared
  · exact .pure hdeclared
termination_by sizeOf schema

theorem partsProperties_fills (parts : List (OrReference Schema))
    (h : ∀ s ∈ parts, s.ReferringParts written reserved) :
    ∀ c declared, SoundProperties (c.Known written) declared →
      Fills written reserved c (partsProperties owner required l parts declared)
        fun made c' => SoundProperties (c'.Known written) made := by
  intro c declared hdeclared
  match parts with
  | [] =>
    rw [partsProperties]
    exact .pure hdeclared
  | .reference r :: rest =>
    rw [partsProperties]
    exact partsProperties_fills rest (List.forall_mem_cons.1 h).2 c declared hdeclared
  | .item schema :: rest =>
    obtain ⟨hschema, hrest⟩ := List.forall_mem_cons.1 h
    rw [partsProperties]
    exact (partProperties_fills schema hschema c declared hdeclared).bind fun own c' _ hown =>
      partsProperties_fills rest hrest c' own hown
termination_by sizeOf parts

end

/-- The bases are written. -/
theorem bases_fills (parts : List Part) (h : ∀ r place, Part.base r place ∈ parts →
    ∀ name, ReferenceKind.schema.target? r = some name → written name) :
    ∀ c, Fills written reserved c (Part.bases parts) fun bases _ => ∀ base ∈ bases, written base := by
  unfold Part.bases
  induction parts with
  | nil => exact fun c => .pure nofun
  | cons part parts ih =>
    intro c
    have hrest := ih fun r place hpart => h r place (List.mem_cons_of_mem _ hpart)
    rw [List.filterMapM_cons]
    cases part with
    | own schema =>
      rw [pure_bind]
      exact hrest c
    | base r place =>
      have hfirst : Fills written reserved c (some <$> Conversion.target .schema r place)
          fun b _ => ∀ name, b = some name → written name :=
        (Fills.target _ _ _).map fun base _ htarget name heq =>
          h r place List.mem_cons_self name (Option.some.inj heq ▸ htarget)
      refine hfirst.bind fun b c' _ hb => ?_
      cases b with
      | none => exact hrest c'
      | some base =>
        refine (hrest c').bind fun bases c'' _ hbases => .pure ?_
        exact List.forall_mem_cons.2 ⟨hb base rfl, hbases⟩

theorem objectOf_fills (h : ∀ name, (OrReference.item schema).LeadsTo name → written name)
    (hparts : (OrReference.item schema).ReferringParts written reserved) :
    Fills written reserved c (objectOf name schema l) fun d c' =>
      d.name = name ∧ d.Sound (c'.Known written) := by
  have hbases : ∀ r place, Part.base r place ∈ schema.parts l →
      ∀ name, ReferenceKind.schema.target? r = some name → written name := by
    intro r place hbase name htarget
    exact h name (((base_mem_parts_iff schema l).1 ⟨place, hbase⟩).leadsTo (.reference htarget))
  rw [objectOf]
  refine (bases_fills _ hbases c).bind fun bases c' _ hbases => ?_
  refine (partProperties_fills schema hparts c' [] .nil).bind fun properties _ _ hproperties => ?_
  exact .pure ⟨rfl, hproperties, fun base hbase => .inl (hbases base hbase)⟩

theorem hoisted_fills (h : ∀ name, (OrReference.item schema).LeadsTo name → written name)
    (hparts : (OrReference.item schema).ReferringParts written reserved) :
    Fills written reserved c (hoisted schema place l) fun type c' =>
      type.Within (c'.Known written) := by
  rw [hoisted]
  refine (Fills.claimed fun _ _ _ => objectOf_fills h hparts).mono ?_
  rintro _ c' ⟨name, rfl, -, hkept⟩
  exact TypeRef.within_reference_iff.2 (.inr hkept)

theorem referring (s : OrReference Schema) (h : ∀ name, s.LeadsTo name → written name) :
    s.Referring written reserved := by
  match s with
  | .reference r =>
    intro c place l
    rw [typeOf]
    exact .reference fun name htarget => h name (.reference htarget)
  | .item schema =>
    -- all that a type is made from is smaller than the schema
    have hparts : (OrReference.item schema).ReferringParts written reserved := fun x hx e he =>
      have := hx.sizeOf_property he
      referring e.2 fun name hname => h name (hx.leadsTo (.property he hname))
    have hsize := schema.sizeOf_kind
    intro c place l
    rw [typeOf, inlineType]
    dsimp only
    split
    · exact .pure TypeRef.within_primitive
    · exact .pure TypeRef.within_primitive
    · exact .pure TypeRef.within_primitive
    · exact .pure TypeRef.within_primitive
    · exact .pure TypeRef.within_any.array
    · rename_i items hkind
      have : sizeOf items < sizeOf schema := by
        rw [hkind, Kind.array.sizeOf_spec, Option.some.sizeOf_spec] at hsize
        omega
      exact (referring items (fun name hname => h name (.items hkind hname)) c _ _).map
        fun _ _ htype => htype.array
    · rename_i values hkind
      have : sizeOf values < sizeOf schema := by
        rw [hkind, Kind.object.sizeOf_spec, Additional.schema.sizeOf_spec] at hsize
        omega
      exact (referring values (fun name hname => h name (.values hkind hname)) c _ _).map
        fun _ _ htype => htype.map
    · exact .pure TypeRef.within_any
    · exact hoisted_fills h hparts
    · rename_i r hkind
      exact .reference fun name htarget =>
        h name (.part hkind (List.mem_singleton_self _) (.reference htarget))
    · exact hoisted_fills h hparts
    · exact .pure TypeRef.within_any
    · exact hoisted_fills h hparts
    · exact .pure TypeRef.within_any
    · exact .pure TypeRef.within_any
    · exact .pure TypeRef.within_any
termination_by sizeOf s
decreasing_by
  · exact this
  · rw [OrReference.item.sizeOf_spec]
    omega
  · rw [OrReference.item.sizeOf_spec]
    omega

/-! ## Operations -/

def Content.LeadsTo (c : Content) (name : String) : Prop :=
  ∃ m ∈ c, ∃ s, m.2.schema = some s ∧ s.LeadsTo name

def Parameter.LeadsTo (p : Parameter) (name : String) : Prop :=
  match p.type with
  | .schema s  => s.LeadsTo name
  | .content c => Content.LeadsTo c name

/-- A schema that is written in the operation, not in a component that it refers to, leads to
`name`. -/
inductive Operation.LeadsTo (o : Operation) (name : String) : Prop where
  | parameter {p : Parameter} (hp : .item p ∈ o.parameters) (h : p.LeadsTo name)
  | body {b : RequestBody} (hb : o.requestBody = some (.item b)) (h : b.content.LeadsTo name)
  | response {status : String} {r : Response} (hr : (status, .item r) ∈ o.responses)
      (h : r.content.LeadsTo name)

/-- A reference in the document leads to the schema `name`. -/
inductive Document.LeadsTo (d : Document) (name : String) : Prop where
  | schema {e : String × OrReference Schema} (he : e ∈ d.components.schemas.entries)
      (h : e.2.LeadsTo name)
  | parameter {key : String} {p : Parameter} (hp : (key, .item p) ∈ d.components.parameters)
      (h : p.LeadsTo name)
  | body {key : String} {b : RequestBody} (hb : (key, .item b) ∈ d.components.requestBodies)
      (h : b.content.LeadsTo name)
  | response {key : String} {r : Response} (hr : (key, .item r) ∈ d.components.responses)
      (h : r.content.LeadsTo name)
  | pathParameter {path : String} {item : PathItem} {p : Parameter}
      (hpath : (path, .item item) ∈ d.paths.entries) (hp : .item p ∈ item.parameters) (h : p.LeadsTo name)
  | operation {path : String} {item : PathItem} {e : Schema.Verb × Operation}
      (hpath : (path, .item item) ∈ d.paths.entries) (he : e ∈ item.operations) (h : e.2.LeadsTo name)

/-- What a reference leads to, if need be from component to component. -/
inductive OrReference.Reaches {α : Type} (components : List (String × OrReference α))
    (kind : ReferenceKind) : OrReference α → α → Prop where
  | item (a : α) : Reaches components kind (.item a) a
  | reference {r name : String} {next : OrReference α} {a : α}
      (htarget : kind.target? r = some name) (hlookup : components.lookup name = some next)
      (h : Reaches components kind next a) : Reaches components kind (.reference r) a

section Follow

variable {α : Type} {P : α → Prop} {components : List (String × OrReference α)} {kind : ReferenceKind}
  {item : OrReference α} {a : α}

/-- What is reached is either written in place or a component. -/
theorem OrReference.Reaches.holds (h : item.Reaches components kind a)
    (hitem : ∀ a, item = .item a → P a)
    (hcomponents : ∀ key a, (key, .item a) ∈ components → P a) : P a := by
  induction h with
  | item a => exact hitem a rfl
  | reference _ hlookup _ ih =>
    -- if the next one is an item, then it is a component
    have hmem := OrderedMap.mem_of_lookup_eq_some hlookup
    exact ih fun a ha => hcomponents _ a (ha ▸ hmem)

theorem reaches_of_after? {n : Nat} (h : item.after? components kind n = some (.item a)) :
    item.Reaches components kind a := by
  induction n generalizing item with
  | zero =>
    cases h
    exact .item a
  | succ n ih =>
    obtain ⟨next, hnext, hrest⟩ := Option.bind_eq_some_iff.1 h
    cases item with
    | item b => cases hnext
    | reference r =>
      obtain ⟨name, htarget, hlookup⟩ := Option.bind_eq_some_iff.1 hnext
      exact .reference htarget hlookup (ih hrest)

theorem wp_follow_reaches (components : List (String × OrReference α)) (kind : ReferenceKind)
    (l : Location) (item : OrReference α) (c : Catalog) :
    wp (follow components kind l item) c
      (fun a c' => c' = c ∧ item.Reaches components kind a) fun _ _ => True :=
  (wp_follow components kind l item c).imp fun _ _ ha =>
    ⟨ha.1, ha.2.elim fun _ hn => reaches_of_after? hn.2⟩

theorem follow_reaches : Fills written reserved c (follow components kind l item)
    fun a _ => item.Reaches components kind a :=
  .of_unchanged (wp_follow_reaches components kind l item c)

theorem follow_fills (hitem : ∀ a, item = .item a → P a)
    (hcomponents : ∀ key a, (key, .item a) ∈ components → P a) :
    Fills written reserved c (follow components kind l item) fun a _ => P a :=
  follow_reaches.mono fun _ _ ha => ha.holds hitem hcomponents

end Follow

theorem convertParameter_fills {p : Parameter} {method : String}
    (h : ∀ name, p.LeadsTo name → written name) :
    Fills written reserved c (p.convert method l) fun made c' =>
      made.type.Within (c'.Known written) := by
  unfold Parameter.LeadsTo at h
  unfold Parameter.convert
  dsimp only
  split
  · rename_i s hs
    rw [hs] at h
    exact (referring s h c _ _).bind fun type _ _ htype => .pure htype
  · rename_i content hcontent
    rw [hcontent] at h
    split
    · rename_i s hs
      obtain ⟨m, hm, hs⟩ := Option.bind_eq_some_iff.1 hs
      have hwritten : ∀ name, s.LeadsTo name → written name :=
        fun name hname => h name ⟨m, List.mem_of_mem_head? hm, s, hs, hname⟩
      exact (referring s hwritten c _ _).bind fun type _ _ htype => .pure htype
    · exact Fills.bind (.pure TypeRef.within_any) fun type _ _ htype => .pure htype

theorem mem_of_preferred? {content : Content} {m : String × MediaType}
    (h : Content.preferred? content = some m) : m ∈ content := by
  rcases Option.or_eq_some_iff.1 h with h | ⟨-, h⟩
  · exact List.mem_of_find?_eq_some h
  · exact List.mem_of_mem_head? h

theorem exists_of_schema? {content : Content} {media : String}
    (h : Content.schema? content = some (media, s)) : ∃ m ∈ content, m.2.schema = some s := by
  obtain ⟨m, hm, hs⟩ := Option.bind_eq_some_iff.1 h
  obtain ⟨s', hs', heq⟩ := Option.map_eq_some_iff.1 hs
  cases heq
  exact ⟨m, mem_of_preferred? hm, hs'⟩

section Document

variable {d : Document} (hd : ∀ name, d.LeadsTo name → written name)

include hd

theorem convertParameters_fills {ps : List (OrReference Parameter)} {method : String}
    (h : ∀ p, .item p ∈ ps → ∀ name, p.LeadsTo name → written name) :
    Fills written reserved c (d.convertParameters method ps l) fun made c' =>
      ∀ p ∈ made, p.type.Within (c'.Known written) := by
  refine .mapM (fun e he c' _ => ?_) fun _ _ _ hextends hp => hp.mono fun _ => hextends.known
  have hfollow : Fills written reserved c'
      (follow d.components.parameters .parameter (l.item e.2) e.1)
      fun p _ => ∀ name, p.LeadsTo name → written name :=
    follow_fills (fun p hp => h p (hp ▸ List.fst_mem_of_mem_zipIdx he))
      fun key p hp name hname => hd name (.parameter hp hname)
  exact hfollow.bind fun p _ _ hp => convertParameter_fills hp

theorem convertBody_fills {method : String} {body : OrReference RequestBody}
    (h : ∀ b, body = .item b → ∀ name, b.content.LeadsTo name → written name) :
    Fills written reserved c (d.convertBody method body l) fun made c' =>
      ∀ p ∈ made.1, p.type.Within (c'.Known written) := by
  have hfollow : Fills written reserved c (follow d.components.requestBodies .requestBody l body)
      fun b _ => ∀ name, b.content.LeadsTo name → written name :=
    follow_fills h fun key b hb name hname => hd name (.body hb hname)
  unfold Document.convertBody
  refine hfollow.bind fun body c' _ hbody => ?_
  dsimp only
  split
  · exact .pure nofun
  · rename_i name m hm
    have hm := mem_of_preferred? hm
    split
    · rename_i s hs
      refine (referring s (fun name hname => hbody name ⟨_, hm, s, hs, hname⟩) c' _ _).bind ?_
      exact fun type _ _ htype => .pure (List.forall_mem_singleton.2 htype)
    · refine Fills.bind (Q := fun type c' => type.Within (c'.Known written))
        (.pure TypeRef.within_any) fun type _ _ htype => .pure ?_
      exact List.forall_mem_singleton.2 htype

theorem convertResponses_fills {responses : List (String × OrReference Response)}
    (h : ∀ status r, (status, .item r) ∈ responses → ∀ name, r.content.LeadsTo name → written name) :
    Fills written reserved c (d.convertResponses responses l) fun made _ =>
      ∀ e ∈ made, ∀ name, e.2.content.LeadsTo name → written name := by
  refine .mapM (fun e he c' _ => ?_) fun _ _ _ _ hr => hr
  have hfollow : Fills written reserved c' (follow d.components.responses .response (l.key e.1) e.2)
      fun r _ => ∀ name, r.content.LeadsTo name → written name :=
    follow_fills (fun r hr => h e.1 r (hr ▸ he)) fun key r hr name hname => hd name (.response hr hname)
  exact hfollow.map fun r _ hr => hr

omit hd in
theorem returned_fills {responses : List (String × Response)} {method : String}
    (h : ∀ e ∈ responses, ∀ name, e.2.content.LeadsTo name → written name) :
    Fills written reserved c (returned method responses l) fun made c' =>
      ∀ r, made = some r → r.1.type.Within (c'.Known written) := by
  unfold returned
  dsimp only
  split
  · split
    · rename_i hentry
      have hr := h _ (List.mem_of_getElem? hentry)
      split
      · rename_i media s hs
        obtain ⟨m, hm, hs⟩ := exists_of_schema? hs
        refine (referring s (fun name hname => hr name ⟨m, hm, s, hs, hname⟩) _ _ _).bind ?_
        rintro type _ - htype
        exact .pure fun r heq => Option.some.inj heq ▸ htype
      · exact .pure nofun
    · exact .pure nofun
  · exact .pure nofun

/-- The last step of an operation: its response is added to parameters that are known. -/
theorem answered_fills {method : String} {responses : List (String × OrReference Response)}
    {parameters : List Schema.Parameter}
    {f : Option (Schema.Response × List String) → Schema.Operation}
    (hf : ∀ response, (f response).parameters = parameters ∧
      (f response).response = response.map (·.1))
    (hresponses : ∀ status r, (status, .item r) ∈ responses →
      ∀ name, r.content.LeadsTo name → written name)
    (hparameters : ∀ p ∈ parameters, p.type.Within (c.Known written)) :
    Fills written reserved c (do
      let responses ← d.convertResponses responses l
      let response ← returned method responses l
      pure (f response)) fun made c' => made.Within (c'.Known written) := by
  refine (convertResponses_fills hd hresponses).bind fun declared c' hextends hdeclared => ?_
  refine (returned_fills hdeclared).bind fun response c'' hextends' hresponse => .pure ⟨?_, ?_⟩
  · rw [(hf response).1]
    exact fun p hp => (hparameters p hp).mono fun _ => (hextends.trans hextends').known
  · rw [(hf response).2]
    intro r hr
    obtain ⟨e, he, rfl⟩ := Option.map_eq_some_iff.1 hr
    exact hresponse e he

theorem convertOperation_fills {verb : Schema.Verb} {path : String}
    {shared : List (OrReference Parameter)} {o : Operation}
    (hshared : ∀ p, .item p ∈ shared → ∀ name, p.LeadsTo name → written name)
    (ho : ∀ name, o.LeadsTo name → written name) :
    Fills written reserved c (d.convertOperation verb path shared o) fun made c' =>
      made.Within (c'.Known written) := by
  have hresponses : ∀ status r, (status, .item r) ∈ o.responses →
      ∀ name, r.content.LeadsTo name → written name :=
    fun status r hr name hname => ho name (.response hr hname)
  unfold Document.convertOperation
  refine (convertParameters_fills hd hshared).bind fun inherited _ _ hinherited => ?_
  refine (convertParameters_fills hd fun p hp name hname => ho name (.parameter hp hname)).bind
    fun own c' hextends hown => ?_
  have hmerged : ∀ p ∈ Schema.mergeParameters inherited own, p.type.Within (c'.Known written) := by
    intro p hp
    rcases Schema.mem_of_mem_mergeParameters hp with hp | hp
    · exact (hinherited p hp).mono fun _ => hextends.known
    · exact hown p hp
  have hparameters {c'' : Catalog} {body : List Schema.Parameter} (hextends : c'.Extends c'')
      (hbody : ∀ p ∈ body, p.type.Within (c''.Known written)) :
      ∀ p ∈ Schema.mergeParameters inherited own ++ body, p.type.Within (c''.Known written) :=
    List.forall_mem_append.2 ⟨fun p hp => (hmerged p hp).mono fun _ => hextends.known, hbody⟩
  dsimp only
  split
  · rename_i body hbody
    have hwritten : ∀ b, body = .item b → ∀ name, b.content.LeadsTo name → written name :=
      fun b hb name hname => ho name (.body (hb ▸ hbody) hname)
    exact (convertBody_fills hd hwritten).bind fun body c'' hextends hbody =>
      answered_fills hd (fun _ => ⟨rfl, rfl⟩) hresponses (hparameters hextends hbody)
  · refine Fills.bind (Q := fun body _ => body.1 = []) (.pure rfl) fun body c'' hextends hbody => ?_
    exact answered_fills hd (fun _ => ⟨rfl, rfl⟩) hresponses (hparameters hextends (hbody ▸ nofun))

theorem convertPath_fills {e : String × OrReference PathItem} (he : e ∈ d.paths.entries) :
    Fills written reserved c (d.convertPath e.1 e.2) fun made c' =>
      ∀ o ∈ made, o.Within (c'.Known written) := by
  obtain ⟨path, item⟩ := e
  cases item with
  | reference r => exact .throw _
  | item item =>
    refine .mapM (fun e heo c' _ => ?_) fun _ _ _ hextends ho => ho.mono fun _ => hextends.known
    exact convertOperation_fills hd (fun p hp name hname => hd name (.pathParameter he hp hname))
      fun name hname => hd name (.operation he heo hname)

theorem convertPaths_fills : Fills written reserved c (do
    let operations ← d.paths.entries.mapM fun e => d.convertPath e.1 e.2
    pure operations.flatten) fun made c' => ∀ o ∈ made, o.Within (c'.Known written) :=
  .flatten (fun _ he _ _ => convertPath_fills hd he) fun _ _ _ hextends ho =>
    ho.mono fun _ => hextends.known

end Document

/-! ## Documents -/

theorem convertSchema_fills {done : List (String × OrReference Schema)}
    (h : ∀ name, s.LeadsTo name → written name) (hnew : name ∉ done.map Prod.fst)
    (hc : c.Filled written reserved OrReference.isObject done) :
    wp (convertSchema name s) c
      (fun _ => Catalog.Filled written reserved OrReference.isObject (done ++ [(name, s)]))
      (fun _ _ => True) := by
  unfold convertSchema
  dsimp only
  split
  · rename_i schema hs
    obtain ⟨hitem, hobject⟩ := Option.filter_eq_some_iff.1 hs
    cases s with
    | reference r => cases hitem
    | item schema =>
      cases hitem
      have hparts : (OrReference.item schema).ReferringParts written reserved := fun x hx e he =>
        referring e.2 fun name hname => h name (hx.leadsTo (.property he hname))
      rw [wp_bind]
      refine (objectOf_fills h hparts [] hc.tidy).imp fun d c' hd => ?_
      obtain ⟨htidy, hextends, rfl, hsound⟩ := hd
      exact (hc.extends hextends htidy).declare hnew hobject hsound
  · rename_i hs
    have hobject : s.isObject = false := by
      cases s with
      | reference r => rfl
      | item schema => simpa [OrReference.item?, OrReference.isObject] using hs
    rw [wp_bind]
    refine (referring s h c _ _ [] hc.tidy).imp fun type c' htype => ?_
    obtain ⟨htidy, hextends, htype⟩ := htype
    exact (hc.extends hextends htidy).addAlias hnew hobject htype

theorem convertSchemas_fills {d : Document} (hd : ∀ name, d.LeadsTo name → written name) :
    wp (d.components.schemas.entries.forM fun e => convertSchema e.1 e.2)
      (Catalog.withNames d.components.schemas.names)
      (fun _ => Catalog.Filled written d.components.schemas.names OrReference.isObject
        d.components.schemas.entries) (fun _ _ => True) :=
  Catalog.filled_of_forM fun _ he _ _ hnew hc =>
    convertSchema_fills (fun name hname => hd name (.schema he hname)) hnew hc

theorem convert_fills (d : Document) :
    wp d.convert (Catalog.withNames d.components.schemas.names)
      (fun os c => c.Filled d.LeadsTo d.components.schemas.names OrReference.isObject
        d.components.schemas.entries ∧ ∀ o ∈ os, o.Within (c.Known d.LeadsTo)) (fun _ _ => True) := by
  have hd : ∀ name, d.LeadsTo name → d.LeadsTo name := fun _ h => h
  rw [Document.convert, wp_bind]
  refine (convertSchemas_fills hd).imp fun _ c hc => ?_
  exact (convertPaths_fills hd [] hc.tidy).imp fun os c' hos => ⟨hc.extends hos.2.1 hos.1, hos.2.2⟩

end TypedClient.OpenApi
