import TypedClient.Proofs.Failures
import TypedClient.Proofs.Hoisting.Documents
import TypedClient.Proofs.OpenApi.Carriers

/-!
# Content in JSON

A body or a response may be declared for many media types. The conversion takes one of them, the first
that is JSON or else the first of all, and lists the media types apart from it. A method is made if
there is JSON among those. So the type of a body and of a result is always that of a JSON media type.
-/

namespace TypedClient

open Schema (Catalog Definition ReferenceKind ResponseClass TypeRef isJsonMedia selectResponse)
open Schema.Conversion (Fills Yields)

namespace OpenApi

/-! ## Content -/

/-- The first entry for a media type that is JSON. -/
def Content.json? (c : Content) : Option (String × MediaType) := c.find? fun e => isJsonMedia e.1

/-- The preferred entry is one for JSON, if there is JSON among the media types. -/
theorem json?_of_preferred? {c : Content} {e : String × MediaType}
    (h : Content.preferred? c = some e) (hjson : AllowsJson (c.map (·.1))) :
    Content.json? c = some e := by
  have hnonempty : c ≠ [] := by
    rintro rfl
    simp [Content.preferred?] at h
  obtain ⟨media, hmem, hmedia⟩ := hjson.resolve_left (by simpa using hnonempty)
  obtain ⟨e', he', rfl⟩ := List.mem_map.1 hmem
  -- some entry is JSON, so that the first entry does not have to stand in for one
  have hsome : (Content.json? c).isSome = true := by
    rw [Content.json?, List.find?_isSome]
    exact ⟨e', he', hmedia⟩
  obtain ⟨found, hfound⟩ := Option.isSome_iff_exists.1 hsome
  have hpreferred : Content.preferred? c = some found := Option.or_eq_some_iff.2 (.inl hfound)
  rw [hfound, ← hpreferred, h]

/-! ## Types -/

/-- `type` is made of the schema, wherever it is written, and the definitions that are hoisted for it
are among `hoisted`. -/
def OrReference.Makes (hoisted : List (String × Definition)) (s : OrReference Schema)
    (type : TypeRef) : Prop :=
  ∃ place l c c', (typeOf s place l).run c = (.ok type, c') ∧ c'.hoisted.entries ⊆ hoisted

/-- As `OrReference.Makes`, for the schema of a media type. Without one any value may be sent. -/
def MediaType.Makes (hoisted : List (String × Definition)) (m : MediaType) (type : TypeRef) : Prop :=
  match m.schema with
  | some s => s.Makes hoisted type
  | none   => type = .any

variable {hoisted hoisted' : List (String × Definition)} {s : OrReference Schema} {type : TypeRef}
  {reserved : List String} {c : Catalog} {method place : String} {l : Location}

theorem OrReference.Makes.mono (h : s.Makes hoisted type) (hsubset : hoisted ⊆ hoisted') :
    s.Makes hoisted' type := by
  obtain ⟨place, l, c, c', hrun, hhoisted⟩ := h
  exact ⟨place, l, c, c', hrun, List.Subset.trans hhoisted hsubset⟩

theorem MediaType.Makes.mono {m : MediaType} (h : m.Makes hoisted type)
    (hsubset : hoisted ⊆ hoisted') : m.Makes hoisted' type := by
  unfold MediaType.Makes at h ⊢
  split at h
  · exact h.mono hsubset
  · exact h

/-- From `c` the conversion loses no definition, and `Q` holds for what it makes. -/
abbrev Produces {α : Type} (reserved : List String) (c : Catalog) (x : Schema.Conversion α)
    (Q : α → Catalog → Prop) : Prop :=
  Fills (fun _ => True) reserved c x Q

theorem typeOf_produces : Produces reserved c (typeOf s place l) fun type c' =>
    s.Makes c'.hoisted.entries type := by
  have hfills : s.Referring (fun _ => True) reserved := referring s fun _ _ => trivial
  exact (hfills c place l).run.mono fun type c' htype => ⟨place, l, c, c', htype.2, List.Subset.refl _⟩

/-! ## Operations -/

/-- The declared responses with all references followed. -/
def Document.Declares (d : Document) (responses : List (String × OrReference Response))
    (declared : List (String × Response)) : Prop :=
  List.Forall₂ (fun e e' => e'.1 = e.1 ∧ OrReference.Reaches d.components.responses .response e.2 e'.2)
    responses declared

/-- The response that is selected by the classes of the declared ones, and whether it is optional. -/
def Selects (declared : List (String × Response)) (r : Response) (optional : Bool) : Prop :=
  ∃ index status,
    selectResponse (declared.map fun e =>
      (ResponseClass.ofKey e.1, (Content.schema? e.2.content).isSome)) = some (index, optional) ∧
    declared[index]? = some (status, r)

/-- The body of an operation is the preferred entry of its request body. -/
def Operation.TakesBody (d : Document) (hoisted : List (String × Definition)) (o : Operation)
    (p : Schema.Parameter) (media : List String) : Prop :=
  ∃ ref body e, o.requestBody = some ref ∧
    ref.Reaches d.components.requestBodies .requestBody body ∧
    Content.preferred? body.content = some e ∧ e.2.Makes hoisted p.type ∧
    p.required = body.required ∧ media = body.content.map (·.1)

/-- The response of an operation is the preferred entry of the response that is selected. -/
def Operation.Answers (d : Document) (hoisted : List (String × Definition)) (o : Operation)
    (r : Schema.Response) (media : List String) : Prop :=
  ∃ declared answer e s, d.Declares o.responses declared ∧ Selects declared answer r.optional ∧
    Content.preferred? answer.content = some e ∧ e.2.schema = some s ∧ s.Makes hoisted r.type ∧
    media = answer.content.map (·.1)

/-- How an operation is converted. -/
structure Operation.Becomes (d : Document) (hoisted : List (String × Definition)) (o : Operation)
    (made : Schema.Operation) : Prop where
  id : made.id = o.id
  body : ∀ p ∈ made.parameters, p.carrier = .body → o.TakesBody d hoisted p made.requestMedia
  response : ∀ r, made.response = some r → o.Answers d hoisted r made.responseMedia

variable {d : Document} {o : Operation} {media : List String}

theorem Operation.TakesBody.mono {p : Schema.Parameter} (h : o.TakesBody d hoisted p media)
    (hsubset : hoisted ⊆ hoisted') : o.TakesBody d hoisted' p media := by
  obtain ⟨ref, body, e, hbody, hreaches, he, hmakes, hrest⟩ := h
  exact ⟨ref, body, e, hbody, hreaches, he, hmakes.mono hsubset, hrest⟩

theorem Operation.Answers.mono {r : Schema.Response} (h : o.Answers d hoisted r media)
    (hsubset : hoisted ⊆ hoisted') : o.Answers d hoisted' r media := by
  obtain ⟨declared, answer, e, s, hdeclared, hselects, he, hs, hmakes, hmedia⟩ := h
  exact ⟨declared, answer, e, s, hdeclared, hselects, he, hs, hmakes.mono hsubset, hmedia⟩

theorem Operation.Becomes.mono {made : Schema.Operation} (h : o.Becomes d hoisted made)
    (hsubset : hoisted ⊆ hoisted') : o.Becomes d hoisted' made :=
  ⟨h.id, fun p hp hcarrier => (h.body p hp hcarrier).mono hsubset,
    fun r hr => (h.response r hr).mono hsubset⟩

/-- The conversion of a parameter keeps its carrier. -/
theorem convertParameter_produces {p : Parameter} :
    Produces reserved c (p.convert method l) fun made _ => made.carrier = p.carrier := by
  unfold Parameter.convert
  dsimp only
  split
  · exact typeOf_produces.bind fun type _ _ _ => .pure rfl
  · split
    · exact typeOf_produces.bind fun type _ _ _ => .pure rfl
    · exact Fills.bind (Q := fun _ _ => True) (.pure trivial) fun type _ _ _ => .pure rfl

/-- No parameter becomes a body, as none is written as one. -/
theorem convertParameters_produces (hd : d.Beside) {ps : List (OrReference Parameter)}
    (hps : ∀ p ∈ ps, p.Inline Parameter.Beside) :
    Produces reserved c (d.convertParameters method ps l) fun made _ =>
      ∀ p ∈ made, p.carrier ≠ .body := by
  refine Fills.mapM (R := fun (p : Schema.Parameter) _ => p.carrier ≠ .body) (fun e he c' _ => ?_)
    fun _ _ _ _ hp => hp
  refine follow_reaches.bind fun p c'' _ hp => ?_
  have hbeside : p.Beside := hp.holds (hps _ (List.fst_mem_of_mem_zipIdx he))
    fun _ p hcomponent => hd.components _ hcomponent p rfl
  exact convertParameter_produces.mono fun made _ hcarrier => hcarrier ▸ hbeside

theorem convertBody_produces {ref : OrReference RequestBody} :
    Produces reserved c (d.convertBody method ref l) fun made c' => ∃ body,
      ref.Reaches d.components.requestBodies .requestBody body ∧
      made.2 = body.content.map (·.1) ∧ ∀ p ∈ made.1, ∃ e,
        Content.preferred? body.content = some e ∧ e.2.Makes c'.hoisted.entries p.type ∧
        p.required = body.required := by
  unfold Document.convertBody
  refine follow_reaches.bind fun body c' _ hbody => ?_
  dsimp only
  split
  · exact .pure ⟨body, hbody, rfl, nofun⟩
  · rename_i name m hm
    split
    · rename_i s hs
      refine typeOf_produces.bind fun type c'' _ htype => .pure ⟨body, hbody, rfl, ?_⟩
      have hmakes : m.Makes c''.hoisted.entries type := by rwa [MediaType.Makes, hs]
      exact List.forall_mem_singleton.2 ⟨(name, m), hm, hmakes, rfl⟩
    · rename_i hs
      refine Fills.bind (Q := fun type _ => type = .any) (.pure rfl) fun type c'' _ htype =>
        .pure ⟨body, hbody, rfl, ?_⟩
      have hmakes : m.Makes c''.hoisted.entries type := by rwa [MediaType.Makes, hs]
      exact List.forall_mem_singleton.2 ⟨(name, m), hm, hmakes, rfl⟩

theorem convertResponses_produces {responses : List (String × OrReference Response)} :
    Produces reserved c (d.convertResponses responses l) fun declared _ =>
      d.Declares responses declared :=
  Fills.mapM_forall₂ (fun _ _ _ _ => follow_reaches.map fun _ _ hr => ⟨rfl, hr⟩)
    fun _ _ _ _ _ he => he

theorem returned_produces {declared : List (String × Response)} :
    Produces reserved c (returned method declared l) fun result c' => ∀ r, result = some r →
      ∃ answer e s, Selects declared answer r.1.optional ∧
        Content.preferred? answer.content = some e ∧ e.2.schema = some s ∧
        s.Makes c'.hoisted.entries r.1.type ∧ r.2 = answer.content.map (·.1) := by
  unfold returned
  dsimp only
  split
  · rename_i index optional hselect
    split
    · rename_i status answer hanswer
      split
      · rename_i media s hs
        refine typeOf_produces.bind fun type c' _ htype => .pure ?_
        rintro _ ⟨⟩
        obtain ⟨e, he, hs⟩ := Option.bind_eq_some_iff.1 hs
        obtain ⟨s', hs, heq⟩ := Option.map_eq_some_iff.1 hs
        cases heq
        exact ⟨answer, e, s, ⟨index, status, hselect, hanswer⟩, he, hs, htype, rfl⟩
      · exact .pure nofun
    · exact .pure nofun
  · exact .pure nofun

theorem answered_produces {parameters : List Schema.Parameter}
    {f : Option (Schema.Response × List String) → Schema.Operation}
    (hf : ∀ response, (f response).id = o.id ∧ (f response).parameters = parameters ∧
      (f response).requestMedia = media ∧ (f response).response = response.map (·.1) ∧
      (f response).responseMedia = (response.map (·.2)).getD [])
    (hbody : ∀ p ∈ parameters, p.carrier = .body → o.TakesBody d c.hoisted.entries p media) :
    Produces reserved c (do
      let responses ← d.convertResponses o.responses l
      let response ← returned method responses l
      pure (f response)) fun made c' => o.Becomes d c'.hoisted.entries made := by
  refine convertResponses_produces.bind fun declared c' hextends hdeclared => ?_
  refine returned_produces.bind fun response c'' hextends' hresponse => .pure ?_
  obtain ⟨hid, hparameters, hrequest, hreturned, hmedia⟩ := hf response
  refine ⟨hid, ?_, ?_⟩
  · rw [hparameters, hrequest]
    exact fun p hp hcarrier => (hbody p hp hcarrier).mono (hextends.trans hextends').hoisted.subset
  · intro r hr
    obtain ⟨result, hresult, rfl⟩ := Option.map_eq_some_iff.1 (hreturned.symm.trans hr)
    obtain ⟨answer, e, s, hselects, he, hs, hmakes, hanswer⟩ := hresponse result hresult
    refine ⟨declared, answer, e, s, hdeclared, hselects, he, hs, hmakes, ?_⟩
    rw [hmedia, hresult, ← hanswer]
    rfl

theorem convertOperation_produces (hd : d.Beside) {verb : Schema.Verb} {path : String}
    {shared : List (OrReference Parameter)} (hshared : ∀ p ∈ shared, p.Inline Parameter.Beside)
    (ho : o.Beside) : Produces reserved c (d.convertOperation verb path shared o) fun made c' =>
      o.Becomes d c'.hoisted.entries made := by
  unfold Document.convertOperation
  refine (convertParameters_produces hd hshared).bind fun inherited _ _ hinherited => ?_
  refine (convertParameters_produces hd ho).bind fun own c' _ hown => ?_
  -- only the request body can become a body, and it is added to the parameters at the end
  have hbeside : ∀ p ∈ Schema.mergeParameters inherited own, p.carrier ≠ .body := fun p hp =>
    (Schema.mem_of_mem_mergeParameters hp).elim (hinherited p) (hown p)
  dsimp only
  split
  · rename_i ref href
    refine convertBody_produces.bind fun made c'' _ hmade => ?_
    obtain ⟨body, hreaches, hmedia, hbody⟩ := hmade
    refine answered_produces (fun _ => ⟨rfl, rfl, rfl, rfl, rfl⟩) fun p hp hcarrier => ?_
    rcases List.mem_append.1 hp with hp | hp
    · exact absurd hcarrier (hbeside p hp)
    · obtain ⟨e, he, hmakes, hrequired⟩ := hbody p hp
      exact ⟨ref, body, e, href, hreaches, he, hmakes, hrequired, hmedia⟩
  · refine Fills.bind (Q := fun made _ => made.1 = []) (.pure rfl) fun made c'' _ hmade => ?_
    refine answered_produces (fun _ => ⟨rfl, rfl, rfl, rfl, rfl⟩) fun p hp hcarrier => ?_
    rcases List.mem_append.1 hp with hp | hp
    · exact absurd hcarrier (hbeside p hp)
    · rw [hmade] at hp
      cases hp

/-! ## Documents -/

/-- The operation is one of the document. -/
def Document.Has (d : Document) (path : String) (verb : Schema.Verb) (o : Operation) : Prop :=
  ∃ item, (path, .item item) ∈ d.paths.entries ∧ (verb, o) ∈ item.operations

/-- What is made comes from an operation of the document. -/
def Document.Makes (d : Document) (hoisted : List (String × Definition)) (made : Schema.Operation) :
    Prop :=
  ∃ o, d.Has made.path made.verb o ∧ o.Becomes d hoisted made

theorem Document.Makes.mono {made : Schema.Operation} (h : d.Makes hoisted made)
    (hsubset : hoisted ⊆ hoisted') : d.Makes hoisted' made := by
  obtain ⟨o, ho, hbecomes⟩ := h
  exact ⟨o, ho, hbecomes.mono hsubset⟩

theorem convertPath_produces (hd : d.Beside) {e : String × OrReference PathItem}
    (he : e ∈ d.paths.entries) : Produces reserved c (d.convertPath e.1 e.2) fun made c' =>
      ∀ o ∈ made, d.Makes c'.hoisted.entries o := by
  obtain ⟨path, item⟩ := e
  cases item with
  | reference r => exact .throw _
  | item item =>
    obtain ⟨hshared, hoperations⟩ := hd.paths _ he item rfl
    refine Fills.mapM (fun e heo c' _ => ?_) fun _ _ _ hextends ho => ho.mono hextends.hoisted.subset
    obtain ⟨verb, o⟩ := e
    have hproduces : Produces reserved c' (d.convertOperation verb path item.parameters o)
        fun made c'' => o.Becomes d c''.hoisted.entries made :=
      convertOperation_produces hd hshared (hoperations _ heo)
    refine (hproduces.and_yields (convertOperation_yields d verb path item.parameters o)).mono ?_
    rintro made c'' ⟨hbecomes, hcall⟩
    cases hcall
    exact ⟨o, ⟨item, he, heo⟩, hbecomes⟩

theorem convertPaths_produces (hd : d.Beside) : Produces reserved c (do
    let operations ← d.paths.entries.mapM fun e => d.convertPath e.1 e.2
    pure operations.flatten) fun made c' => ∀ o ∈ made, d.Makes c'.hoisted.entries o :=
  .flatten (fun _ he _ _ => convertPath_produces hd he) fun _ _ _ hextends ho =>
    ho.mono hextends.hoisted.subset

theorem convert_makes (hd : d.Beside) :
    wp d.convert (Catalog.withNames d.components.schemas.names)
      (fun made c => ∀ o ∈ made, d.Makes c.hoisted.entries o) (fun _ _ => True) := by
  rw [Document.convert, wp_bind]
  have hwritten : ∀ name, d.LeadsTo name → True := fun _ _ => trivial
  refine (convertSchemas_fills hwritten).imp fun _ c hc => ?_
  exact (convertPaths_produces hd [] hc.tidy).imp fun os c' hos => hos.2.2

/-- Every operation of a loaded document is made from one that is written in it. -/
theorem made_of_load {text : String} {doc : Schema.Document}
    (hread : Source.read text = .ok (.openApi d)) (hload : load text = .ok doc) :
    ∀ made ∈ doc.operations, d.Makes doc.definitions.entries made := by
  rw [load, hread] at hload
  have hdocument : (Source.openApi d).document = .ok doc := hload
  rw [Source.document] at hdocument
  split at hdocument
  · cases hdocument
  · rename_i operations c hrun
    cases hdocument
    obtain ⟨-, hdefinitions, -⟩ := Source.convert_fills hrun
    have hmade := (convert_makes (Source.beside_of_read hread)).of_ok hrun
    have hsubset : c.hoisted.entries ⊆ c.definitions.entries := by
      rw [hdefinitions]
      exact List.subset_append_right _ _
    exact fun made h => (hmade made h).mono hsubset

/-! ## Methods -/

/-- The schema is of the value type `v` once the document is resolved. -/
def OrReference.OfType (r : Resolved) (s : OrReference Schema) (v : ValueType) : Prop :=
  ∃ type, s.Makes r.document.definitions.entries type ∧ r.table.typeOf type = .ok v

/-- As `OrReference.OfType`, for the schema of a media type. Without one any JSON may be sent. -/
def MediaType.OfType (r : Resolved) (m : MediaType) (v : ValueType) : Prop :=
  match m.schema with
  | some s => s.OfType r v
  | none   => v = .primitive .json

/-- The first JSON content of the request body is of the type `v`, or `v` adds `null` if the body may
be missing. -/
def Operation.SendsJson (d : Document) (r : Resolved) (o : Operation) (v : ValueType) : Prop :=
  ∃ ref body media entry w, o.requestBody = some ref ∧
    ref.Reaches d.components.requestBodies .requestBody body ∧
    Content.json? body.content = some (media, entry) ∧ entry.OfType r w ∧
    v = if body.required then w else w.orNull

/-- The first JSON content of the selected response is of the type `v`, or `v` adds `null` if the
response may be missing. -/
def Operation.ReturnsJson (d : Document) (r : Resolved) (o : Operation) (v : ValueType) : Prop :=
  ∃ declared answer optional media entry s w, d.Declares o.responses declared ∧
    Selects declared answer optional ∧ Content.json? answer.content = some (media, entry) ∧
    entry.schema = some s ∧ s.OfType r w ∧ v = if optional then w.orNull else w

variable {r : Resolved}

theorem MediaType.Makes.ofType {m : MediaType} {v : ValueType}
    (h : m.Makes r.document.definitions.entries type) (hv : r.table.typeOf type = .ok v) :
    m.OfType r v := by
  unfold MediaType.Makes at h
  unfold MediaType.OfType
  split at h
  · exact ⟨type, h, hv⟩
  · subst h
    cases hv
    rfl

variable {made : Schema.Operation} {m : Method}

theorem Operation.Becomes.sendsJson (h : o.Becomes d r.document.definitions.entries made)
    (hm : Method.Expresses r.table made m) {a : Argument} (ha : m.body? = some a) :
    o.SendsJson d r a.type := by
  have hcarrier : a.carrier = .body := by simpa using List.find?_some ha
  have hmem := List.mem_of_find?_eq_some ha
  obtain ⟨p, hp, hfor⟩ := Schema.Document.exists_of_mem_right hm.arguments hmem
  rw [hfor.carrier] at hcarrier
  obtain ⟨ref, body, ⟨media, entry⟩, href, hreaches, hentry, hmakes, hrequired, hmedia⟩ :=
    h.body p hp hcarrier
  -- there is something to send, so that the media types of the request matter
  have hbodies : bodies made.parameters ≠ [] :=
    List.ne_nil_of_mem (List.mem_filter.2 ⟨hp, decide_eq_true hcarrier⟩)
  have hjson := json?_of_preferred? hentry (hmedia ▸ hm.requestMedia hbodies)
  obtain ⟨v, hv, htype⟩ := hfor.type
  have hgiven : Method.mustBeGiven p = body.required := by
    simp [Method.mustBeGiven, hcarrier, hrequired]
  exact ⟨ref, body, media, entry, v, href, hreaches, hjson, hmakes.ofType hv.type, hgiven ▸ htype⟩

theorem Operation.Becomes.returnsJson (h : o.Becomes d r.document.definitions.entries made)
    (hm : Method.Expresses r.table made m) {v : ValueType} (hv : m.returns = some v) :
    o.ReturnsJson d r v := by
  have hreturns := hm.returns
  rw [hv] at hreturns
  cases hreturns with
  | value hresponse hallows hw =>
    obtain ⟨declared, answer, ⟨media, entry⟩, s, hdeclared, hselects, hentry, hs, hmakes, hmedia⟩ :=
      h.response _ hresponse
    have hjson := json?_of_preferred? hentry (hmedia ▸ hallows)
    exact ⟨declared, answer, _, media, entry, s, _, hdeclared, hselects, hjson, hs,
      ⟨_, hmakes, hw⟩, rfl⟩

end OpenApi

/-- A method is made of an operation that is written in the document. Its body and its result are of
the types of the first JSON content that the operation declares for them. -/
theorem Method.sends_and_returns_json {text : String} {d : OpenApi.Document} {r : Resolved}
    {methods : List Method} {skipped : List Skipped} (hread : Source.read text = .ok (.openApi d))
    (hr : Resolved.ofText text = .ok r)
    (hmethods : r.table.methods r.document.operations = .ok (methods, skipped)) {m : Method}
    (hm : m ∈ methods) : ∃ o, d.Has m.path m.verb o ∧ m.id = o.id ∧
      (∀ a, m.body? = some a → o.SendsJson d r a.type) ∧
      ∀ v, m.returns = some v → o.ReturnsJson d r v := by
  obtain ⟨made, hmade, hmethod⟩ := exists_of_mem_methods hmethods hm
  obtain ⟨hexpresses, heq⟩ := Method.ofOperation_eq_ok_iff.1 hmethod
  obtain ⟨hload, -⟩ := Resolved.ofText_eq_ok_iff.1 hr
  obtain ⟨o, hhas, hbecomes⟩ := OpenApi.made_of_load hread hload made hmade
  rw [heq]
  refine ⟨o, hhas, hbecomes.id, fun a ha => ?_, fun v hv => ?_⟩
  · exact hbecomes.sendsJson hexpresses (heq ▸ ha)
  · exact hbecomes.returnsJson hexpresses (heq ▸ hv)

open Json (record quote)

/-- A pet is sent and its number returned, either as JSON or, which is written first, as a text. -/
def petBodyText : String :=
  let content (schema : String) : String :=
    record [("description", quote "d"), ("content", record [
      ("text/plain", record [("schema", record [("type", quote "string")])]),
      ("application/json", record [("schema", schema)])])]
  record [
    ("openapi", quote "3.0"),
    ("info", record [("title", quote "t"), ("version", quote "v")]),
    ("components", record [("schemas", record [
      ("Pet", record [("properties", record [("name", record [])])])])]),
    ("paths", record [("/pets", record [("post", record [
      ("requestBody", content (record [("$ref", quote "#/components/schemas/Pet")])),
      ("responses", record [("200", content (record [("type", quote "integer")]))])])])])]

/-- Neither the body nor the result is a text. -/
theorem petBodyText_json : ∃ d r m skipped o, Source.read petBodyText = .ok (.openApi d) ∧
    Resolved.ofText petBodyText = .ok r ∧
    r.table.methods r.document.operations = .ok ([m], skipped) ∧ d.Has "/pets" .post o ∧
    o.SendsJson d r (.nullable (.model "Pet")) ∧ o.ReturnsJson d r (.primitive .integer) := by
  have hread : (Source.read petBodyText).map (fun src => src matches .openApi _) = .ok true := by
    rw [read_eq_documentData ?text]
    case text =>
      simp only [petBodyText, Json.toList_record, Json.toList_quote, List.map_cons, List.map_nil]
      rfl
    decide +kernel
  have hrun : ((Resolved.ofText petBodyText).bind fun r =>
      (r.table.methods r.document.operations).map fun made =>
        made.1.map fun m => (m.path, m.verb, m.body?.map (·.type), m.returns)) =
      .ok [("/pets", .post, some (.nullable (.model "Pet")), some (.primitive .integer))] := by
    rw [Resolved.ofText, load_eq_documentData ?text]
    case text =>
      simp only [petBodyText, Json.toList_record, Json.toList_quote, List.map_cons, List.map_nil]
      rfl
    decide +kernel
  obtain ⟨src, hsrc, hopen⟩ := map_eq_ok_iff.1 hread
  obtain ⟨r, hr, hrun⟩ := bind_eq_ok_iff.1 hrun
  obtain ⟨⟨methods, skipped⟩, hmethods, hrun⟩ := map_eq_ok_iff.1 hrun
  obtain ⟨m, rfl, hm⟩ := List.map_eq_singleton_iff.1 hrun
  simp only [Prod.mk.injEq, Option.map_eq_some_iff] at hm
  obtain ⟨hpath, hverb, ⟨a, ha, htype⟩, hreturns⟩ := hm
  cases src with
  | swagger d => cases hopen
  | openApi d =>
    obtain ⟨o, hhas, -, hbody, hresult⟩ :=
      Method.sends_and_returns_json hsrc hr hmethods List.mem_cons_self
    exact ⟨d, r, m, skipped, o, hsrc, hr, hmethods, hpath ▸ hverb ▸ hhas, htype ▸ hbody a ha,
      hresult _ hreturns⟩

end TypedClient
