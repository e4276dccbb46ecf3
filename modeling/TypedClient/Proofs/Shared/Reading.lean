import TypedClient.Proofs.OrderedMap
import TypedClient.Proofs.Shared.Schema

/-!
# Both dialects read shared schemas

Where the data of a schema is in shared keywords, the decoders of both dialects accept it, and make
of it the form that the schema has in the dialect. Swagger 2.0 reads its fields one after the other,
as the shared reading does. OpenAPI 3 does so with the keywords that tell the kind of a schema, but
it looks up the reference and the description among all fields.
-/

namespace TypedClient.Shared.Schema

theorem nodup_of_distinctKeys? {es : List (Data × Data)} {names : List String}
    (h : distinctKeys? es = some names) : es.mapM (·.1.keyText?) = some names ∧ names.Nodup := by
  rw [distinctKeys?, Option.bind_eq_bind, Option.bind_eq_some_iff] at h
  obtain ⟨_, hnames, h⟩ := h
  split at h
  · cases h
    exact ⟨hnames, ‹_›⟩
  · cases h

theorem ne_null_of_decode {v : Data} {s : Schema} (h : decode v = some s) : v ≠ .null := by
  rintro rfl
  rw [decode] at h
  · cases h
  · intro es hes
    cases hes

theorem names_decodeEntries {es : List (Data × Data)} {ss : List (String × Schema)}
    (h : decodeEntries es = some ss) : es.mapM (·.1.keyText?) = some (ss.map Prod.fst) := by
  induction es generalizing ss with
  | nil =>
    rw [decodeEntries] at h
    cases h
    rfl
  | cons e es ih =>
    rw [decodeEntries] at h
    simp only [Option.bind_eq_bind, Option.bind_eq_some_iff] at h
    obtain ⟨name, hname, s, -, ss, hss, h⟩ := h
    cases h
    rw [List.mapM_cons, hname, ih hss]
    rfl

theorem nodup_names {es : List (Data × Data)} {names : List String} {ss : List (String × Schema)}
    (hnames : distinctKeys? es = some names) (h : decodeEntries es = some ss) :
    (ss.map Prod.fst).Nodup := by
  obtain ⟨hnames, hdistinct⟩ := nodup_of_distinctKeys? hnames
  rw [names_decodeEntries h] at hnames
  cases hnames
  exact hdistinct

/-! ## Swagger 2.0 -/

theorem optional_of_text {v : Data} {text : String} (h : Decoder.text v = some text) :
    Decoder.text.optional v = some (some text) := by
  cases v with
  | null => cases h
  | _ => exact congrArg (Option.map some) h

theorem list_of_strict {α : Type} {decoder : Decoder α} {v : Data} {xs : List α} (lenient : Bool)
    (h : Decoder.list false decoder v = some xs) : Decoder.list lenient decoder v = some xs := by
  cases v with
  | list ds => exact h
  | _ => cases h

mutual

theorem decode_swagger (lenient : Bool) (d : Data) {s : Schema} (h : decode d = some s) :
    Swagger.Schema.decode lenient d = some s.swagger := by
  cases d with
  | mapping es =>
    rw [decode, Option.bind_eq_bind, Option.bind_eq_some_iff] at h
    obtain ⟨_, _, hes⟩ := h
    rw [Swagger.Schema.decode]
    have hempty : ({} : Schema).swagger = {} := by rw [swagger_eq]; rfl
    rw [← hempty]
    exact ofEntries_swagger lenient es hes
  | _ => rw [decode] at h <;> simp_all
termination_by 4 * sizeOf d

theorem ofEntries_swagger (lenient : Bool) (es : List (Data × Data)) {s s' : Schema}
    (h : ofEntries es s = some s') :
    Swagger.Schema.ofEntries lenient es s.swagger = some s'.swagger := by
  match es with
  | [] =>
    rw [ofEntries] at h
    cases h
    rw [Swagger.Schema.ofEntries]
  | (k, v) :: es =>
    rw [ofEntries] at h
    simp only [Option.bind_eq_bind, Option.bind_eq_some_iff] at h
    obtain ⟨name, hname, s₁, hfield, hes⟩ := h
    rw [Swagger.Schema.ofEntries]
    simp only [hname, Option.bind_eq_bind, Option.bind_some, withKeyword_swagger lenient name v hfield]
    exact ofEntries_swagger lenient es hes
termination_by 4 * sizeOf es

theorem withKeyword_swagger (lenient : Bool) (name : String) (v : Data) {s s' : Schema}
    (h : withKeyword name v s = some s') :
    Swagger.Schema.withField lenient name v s.swagger = some s'.swagger := by
  rw [swagger_eq, swagger_eq]
  unfold withKeyword at h
  split at h
  case h_1 | h_2 | h_3 | h_4 =>
    obtain ⟨text, htext, h⟩ := Option.bind_eq_some_iff.1 h
    cases h
    rw [Swagger.Schema.withField, optional_of_text htext]
    rfl
  case h_5 =>
    obtain ⟨values, hvalues, h⟩ := Option.bind_eq_some_iff.1 h
    cases h
    rw [Swagger.Schema.withField, Decoder.allowedValues, list_of_strict lenient hvalues]
    rfl
  case h_6 =>
    obtain ⟨i, hi, h⟩ := Option.bind_eq_some_iff.1 h
    cases h
    rw [Swagger.Schema.withField, decode_swagger lenient v hi]
    · rfl
    · exact ne_null_of_decode hi
  case h_7 =>
    obtain ⟨ps, hps, h⟩ := Option.bind_eq_some_iff.1 h
    cases h
    rw [Swagger.Schema.withField, decodeDict_swagger lenient v hps]
    rfl
  case h_8 =>
    obtain ⟨names, hnames, h⟩ := Option.bind_eq_some_iff.1 h
    cases h
    rw [Swagger.Schema.withField, list_of_strict lenient hnames]
    rfl
  case h_9 =>
    split at h
    · cases h
      rw [Swagger.Schema.withField, Swagger.Schema.decode]
      · rfl
      all_goals nofun
    · obtain ⟨values, hvalues, h⟩ := Option.bind_eq_some_iff.1 h
      cases h
      rw [Swagger.Schema.withField, decode_swagger false v hvalues]
      · rfl
      · exact ne_null_of_decode hvalues
  case h_10 =>
    obtain ⟨parts, hparts, h⟩ := Option.bind_eq_some_iff.1 h
    cases h
    rw [Swagger.Schema.withField, decodeList_swagger lenient v hparts]
    rfl
  case h_11 => cases h
termination_by 4 * sizeOf v + 2

theorem decodeList_swagger (lenient : Bool) (d : Data) {ss : List Schema}
    (h : decodeList d = some ss) :
    Swagger.Schema.decodeList lenient d = some (ss.map swagger) := by
  unfold decodeList at h
  split at h
  · rw [Swagger.Schema.decodeList]
    exact decodeItems_swagger lenient _ h
  · cases h
termination_by 4 * sizeOf d

theorem decodeItems_swagger (lenient : Bool) (ds : List Data) {ss : List Schema}
    (h : decodeItems ds = some ss) :
    Swagger.Schema.decodeItems lenient ds = some (ss.map swagger) := by
  match ds with
  | [] =>
    rw [decodeItems] at h
    cases h
    rw [Swagger.Schema.decodeItems]
    rfl
  | d :: ds =>
    rw [decodeItems] at h
    simp only [Option.bind_eq_bind, Option.bind_eq_some_iff] at h
    obtain ⟨s, hs, ss, hss, h⟩ := h
    cases h
    rw [Swagger.Schema.decodeItems, decode_swagger lenient d hs, decodeItems_swagger lenient ds hss]
    rfl
termination_by 4 * sizeOf ds

theorem decodeDict_swagger (lenient : Bool) (d : Data) {ss : List (String × Schema)}
    (h : decodeDict d = some ss) :
    Swagger.Schema.decodeDict lenient d = some (ss.map fun e => (e.1, e.2.swagger)) := by
  unfold decodeDict at h
  split at h
  · obtain ⟨names, hnames, h⟩ := Option.bind_eq_some_iff.1 h
    rw [Swagger.Schema.decodeDict, decodeEntries_swagger lenient _ h]
    refine congrArg some (OrderedMap.entries_ofList ?_)
    rw [List.map_map]
    exact nodup_names hnames h
  · cases h
termination_by 4 * sizeOf d

theorem decodeEntries_swagger (lenient : Bool) (es : List (Data × Data))
    {ss : List (String × Schema)} (h : decodeEntries es = some ss) :
    Swagger.Schema.decodeEntries lenient es = some (ss.map fun e => (e.1, e.2.swagger)) := by
  match es with
  | [] =>
    rw [decodeEntries] at h
    cases h
    rw [Swagger.Schema.decodeEntries]
    rfl
  | (n, v) :: es =>
    rw [decodeEntries] at h
    simp only [Option.bind_eq_bind, Option.bind_eq_some_iff] at h
    obtain ⟨name, hname, s, hs, ss, hss, h⟩ := h
    cases h
    rw [Swagger.Schema.decodeEntries, hname, decode_swagger lenient v hs,
      decodeEntries_swagger lenient es hss]
    rfl
termination_by 4 * sizeOf es

end

/-! ## Text keywords -/

/-- The shared keywords. -/
def keywordNames : List String :=
  ["$ref", "type", "format", "description", "enum", "items", "properties", "required",
    "additionalProperties", "allOf"]

theorem mem_keywordNames {name : String} {v : Data} {s s' : Schema}
    (h : withKeyword name v s = some s') : name ∈ keywordNames := by
  unfold withKeyword at h
  split at h
  case h_11 => cases h
  all_goals simp [keywordNames]

theorem textFields_of_keys {es : List (Data × Data)} {names : List String}
    (h : es.mapM (·.1.keyText?) = some names) :
    ∃ fs, Data.textFields? es = some fs ∧ fs.map Prod.fst = names := by
  induction es generalizing names with
  | nil => exact ⟨[], rfl, Option.some.inj h⟩
  | cons e es ih =>
    rw [List.mapM_cons] at h
    simp only [Option.bind_eq_bind, Option.bind_eq_some_iff] at h
    obtain ⟨name, hname, rest, hrest, h⟩ := h
    cases h
    obtain ⟨fs, hfs, rfl⟩ := ih hrest
    have hfs : es.mapM (fun e => e.1.keyText?.map (·, e.2)) = some fs := hfs
    refine ⟨(name, e.2) :: fs, ?_, rfl⟩
    rw [Data.textFields?, List.mapM_cons, hname, hfs]
    rfl

/-- Going through the entries, with a fact for each of them. -/
theorem ofEntries_cons {e : Data × Data} {es : List (Data × Data)} {fs : Fields} {s s' : Schema}
    (h : ofEntries (e :: es) s = some s') (hfs : Data.textFields? (e :: es) = some fs) :
    ∃ name s₁ rest, fs = (name, e.2) :: rest ∧ withKeyword name e.2 s = some s₁ ∧
      ofEntries es s₁ = some s' ∧ Data.textFields? es = some rest := by
  rw [ofEntries] at h
  simp only [Option.bind_eq_bind, Option.bind_eq_some_iff] at h
  obtain ⟨name, hname, s₁, hfield, hes⟩ := h
  rw [Data.textFields?, List.mapM_cons, hname] at hfs
  simp only [Option.bind_eq_bind, Option.bind_eq_some_iff, Option.map_some] at hfs
  obtain ⟨_, hfirst, rest, hrest, h⟩ := hfs
  cases h
  cases hfirst
  exact ⟨name, s₁, rest, rfl, hfield, hes, hrest⟩

theorem keywordNames_of_ofEntries {es : List (Data × Data)} {fs : Fields} {s s' : Schema}
    (h : ofEntries es s = some s') (hfs : Data.textFields? es = some fs) :
    ∀ f ∈ fs, f.1 ∈ keywordNames := by
  induction es generalizing fs s with
  | nil =>
    cases hfs
    exact nofun
  | cons e es ih =>
    obtain ⟨name, s₁, rest, rfl, hfield, hes, hrest⟩ := ofEntries_cons h hfs
    exact List.forall_mem_cons.2 ⟨mem_keywordNames hfield, ih hes hrest⟩

theorem eq_text {v : Data} {text : String} (h : Decoder.text v = some text) : v = .text text := by
  cases v with
  | text _ => exact congrArg _ (Option.some.inj h)
  | _ => cases h

/-- A keyword that has a text, and the part of a schema that keeps it. -/
structure TextKeyword (name : String) (kept : Schema → Option String) : Prop where
  sets : ∀ {v s s'}, withKeyword name v s = some s' → ∃ text, v = .text text ∧ kept s' = some text
  keeps : ∀ {other v s s'}, withKeyword other v s = some s' → other ≠ name → kept s' = kept s

theorem withKeyword_keeps {name : String} {v : Data} {s s' : Schema}
    (h : withKeyword name v s = some s') :
    (name ≠ "$ref" → s'.reference = s.reference) ∧
      (name ≠ "description" → s'.description = s.description) := by
  unfold withKeyword at h
  split at h
  case h_9 =>
    split at h
    · cases h
      exact ⟨fun _ => rfl, fun _ => rfl⟩
    · obtain ⟨_, -, h⟩ := Option.bind_eq_some_iff.1 h
      cases h
      exact ⟨fun _ => rfl, fun _ => rfl⟩
  case h_11 => cases h
  all_goals
    obtain ⟨_, -, h⟩ := Option.bind_eq_some_iff.1 h
    cases h
    constructor <;> intro hne <;> first | rfl | exact absurd rfl hne

theorem textKeyword_reference : TextKeyword "$ref" reference where
  sets h := by
    rw [withKeyword] at h
    obtain ⟨text, htext, h⟩ := Option.bind_eq_some_iff.1 h
    cases h
    exact ⟨text, eq_text htext, rfl⟩
  keeps h := (withKeyword_keeps h).1

theorem textKeyword_description : TextKeyword "description" description where
  sets h := by
    rw [withKeyword] at h
    obtain ⟨text, htext, h⟩ := Option.bind_eq_some_iff.1 h
    cases h
    exact ⟨text, eq_text htext, rfl⟩
  keeps h := (withKeyword_keeps h).2

theorem lookup_text {name : String} {kept : Schema → Option String} (hname : TextKeyword name kept)
    {es : List (Data × Data)} {fs : Fields} {s s' : Schema} (h : ofEntries es s = some s')
    (hfs : Data.textFields? es = some fs) (hdistinct : (fs.map Prod.fst).Nodup) :
    (fs.lookup name = none ∧ kept s' = kept s) ∨
      ∃ text, fs.lookup name = some (.text text) ∧ kept s' = some text := by
  induction es generalizing fs s with
  | nil =>
    rw [ofEntries] at h
    cases h
    cases hfs
    exact .inl ⟨rfl, rfl⟩
  | cons e es ih =>
    obtain ⟨key, s₁, rest, rfl, hfield, hes, hrest⟩ := ofEntries_cons h hfs
    obtain ⟨hnew, hdistinct⟩ := List.nodup_cons.1 hdistinct
    have hrest := ih hes hrest hdistinct
    rw [OrderedMap.lookup_cons_eq_if]
    by_cases hkey : name = key
    · subst hkey
      obtain ⟨text, hv, hkept⟩ := hname.sets hfield
      rw [if_pos rfl, hv]
      refine .inr ⟨text, rfl, ?_⟩
      rcases hrest with ⟨-, hrest⟩ | ⟨_, hlookup, -⟩
      · rw [hrest, hkept]
      · exact absurd (List.mem_map_of_mem (OrderedMap.mem_of_lookup_eq_some hlookup)) hnew
    · rw [if_neg hkey, ← hname.keeps hfield (Ne.symm hkey)]
      exact hrest

/-- The text of a keyword is found among the fields of a schema. -/
theorem lookup_eq {name : String} {kept : Schema → Option String} (hname : TextKeyword name kept)
    {es : List (Data × Data)} {fs : Fields} {s : Schema} (h : ofEntries es {} = some s)
    (hfs : Data.textFields? es = some fs) (hdistinct : (fs.map Prod.fst).Nodup)
    (hkept : kept {} = none) : fs.lookup name = (kept s).map .text := by
  rcases lookup_text hname h hfs hdistinct with ⟨hlookup, hsame⟩ | ⟨text, hlookup, hsame⟩
  · rw [hlookup, hsame, hkept]
    rfl
  · rw [hlookup, hsame]
    rfl

/-! ## OpenAPI 3 -/

open OpenApi (Keywords)

theorem lookup_eq_none {fs : Fields} {name : String} (h : ∀ f ∈ fs, f.1 ∈ keywordNames)
    (hname : name ∉ keywordNames) : fs.lookup name = none := by
  cases hlookup : fs.lookup name with
  | none => rfl
  | some v => exact absurd (h _ (OrderedMap.mem_of_lookup_eq_some hlookup)) hname

theorem annotations_hold {fs : Fields} (h : ∀ f ∈ fs, f.1 ∈ keywordNames)
    {description : Option String} (hdescription : fs.lookup "description" = description.map .text) :
    Shape.fields OpenApi.annotations fs = true := by
  have habsent {name : String} {presence : Presence} {shape : Shape} (hname : name ∉ keywordNames)
      (hpresence : presence ≠ .needed) : Shape.field ⟨name, presence, shape⟩ fs = true := by
    rw [Shape.field, lookup_eq_none h hname]
    exact decide_eq_true hpresence
  have htext : Shape.field ⟨"description", .optional, Shape.text⟩ fs = true := by
    rw [Shape.field, hdescription]
    cases description <;> rfl
  have hextensions : Shape.extensions fs = true := by
    have hname : ∀ name ∈ keywordNames, name.startsWith "x-" = false := by decide +kernel
    rw [Shape.extensions, List.all_eq_true]
    intro f hf
    rw [hname _ (h f hf)]
    rfl
  simp (disch := decide) only [Shape.fields, OpenApi.annotations, defaulted, optional, List.all_cons,
    List.all_nil, habsent, htext, hextensions, Bool.and_true]

/-- What stands in an entry that is read is not `null`. -/
theorem ne_null_of_withKeyword {name : String} {v : Data} {s s' : Schema}
    (h : withKeyword name v s = some s') : v ≠ .null := by
  rintro rfl
  unfold withKeyword at h
  split at h
  case h_11 => cases h
  all_goals
    obtain ⟨_, hv, -⟩ := Option.bind_eq_some_iff.1 h
  case h_6 | h_9 => exact ne_null_of_decode hv rfl
  case h_7 => cases decodeDict.eq_def .. ▸ hv
  case h_10 => cases decodeList.eq_def .. ▸ hv
  all_goals cases hv

theorem decode_openApi_of_keywords {es : List (Data × Data)} {names : List String} {s : Schema}
    (hnames : distinctKeys? es = some names) (h : ofEntries es {} = some s)
    (hkeywords : Keywords.ofEntries es {} = some s.keywords) :
    OpenApi.Schema.decodeOrReference (.mapping es) = some s.openApi := by
  obtain ⟨hnames, hdistinct⟩ := nodup_of_distinctKeys? hnames
  obtain ⟨fs, hfs, rfl⟩ := textFields_of_keys hnames
  have hreference := lookup_eq textKeyword_reference h hfs hdistinct rfl
  have hdescription := lookup_eq textKeyword_description h hfs hdistinct rfl
  have hshared := keywordNames_of_ofEntries h hfs
  have htarget : OpenApi.referenceTarget? (.mapping es) = s.reference := by
    simp only [OpenApi.referenceTarget?, hfs, hreference, Option.bind_eq_bind, Option.bind_some]
    cases s.reference <;> rfl
  rw [OpenApi.Schema.decodeOrReference, htarget, openApi_eq]
  cases s.reference with
  | some r => rfl
  | none =>
    have hnullable : fs.get "nullable" Decoder.flag false = some false := by
      rw [Fields.get, lookup_eq_none hshared (by decide)]
    have htext : fs.get? "description" Decoder.text = some s.description := by
      rw [Fields.get?, Fields.get, hdescription]
      cases s.description <;> rfl
    rw [OpenApi.Schema.decode, hfs]
    simp only [Option.bind_eq_bind, Option.bind_some, annotations_hold hshared hdescription,
      hnullable, htext, hkeywords]
    rfl

theorem ofDict_openApi {ss : List (String × Schema)} (h : (ss.map Prod.fst).Nodup) :
    (OrderedMap.ofList (ss.map fun e => (e.1, e.2.openApi))).entries =
      ss.map fun e => (e.1, e.2.openApi) := by
  apply OrderedMap.entries_ofList
  rwa [List.map_map]

mutual

theorem decode_openApi (d : Data) {s : Schema} (h : decode d = some s) :
    OpenApi.Schema.decodeOrReference d = some s.openApi := by
  cases d with
  | mapping es =>
    rw [decode, Option.bind_eq_bind, Option.bind_eq_some_iff] at h
    obtain ⟨names, hnames, hes⟩ := h
    exact decode_openApi_of_keywords hnames hes (ofEntries_openApi es hes)
  | _ => rw [decode] at h <;> simp_all
termination_by 4 * sizeOf d

theorem ofEntries_openApi (es : List (Data × Data)) {s s' : Schema}
    (h : ofEntries es s = some s') : Keywords.ofEntries es s.keywords = some s'.keywords := by
  match es with
  | [] =>
    rw [ofEntries] at h
    cases h
    rw [Keywords.ofEntries]
  | (k, v) :: es =>
    rw [ofEntries] at h
    simp only [Option.bind_eq_bind, Option.bind_eq_some_iff] at h
    obtain ⟨name, hname, s₁, hfield, hes⟩ := h
    rw [Keywords.ofEntries, hname]
    · simp only [Option.bind_eq_bind, Option.bind_some, withKeyword_openApi name v hfield]
      exact ofEntries_openApi es hes
    · exact ne_null_of_withKeyword hfield
termination_by 4 * sizeOf es

theorem withKeyword_openApi (name : String) (v : Data) {s s' : Schema}
    (h : withKeyword name v s = some s') :
    Keywords.withKeyword name v s.keywords = some s'.keywords := by
  unfold withKeyword at h
  split at h
  case h_1 | h_4 =>
    obtain ⟨text, htext, h⟩ := Option.bind_eq_some_iff.1 h
    cases h
    simp [Keywords.withKeyword, keywords]
  case h_2 | h_3 =>
    obtain ⟨text, htext, h⟩ := Option.bind_eq_some_iff.1 h
    cases h
    rw [Keywords.withKeyword, htext]
    rfl
  case h_5 =>
    obtain ⟨values, hvalues, h⟩ := Option.bind_eq_some_iff.1 h
    cases h
    rw [Keywords.withKeyword, hvalues]
    rfl
  case h_6 =>
    obtain ⟨i, hi, h⟩ := Option.bind_eq_some_iff.1 h
    cases h
    rw [Keywords.withKeyword, decode_openApi v hi]
    rfl
  case h_7 =>
    obtain ⟨ps, hps, h⟩ := Option.bind_eq_some_iff.1 h
    cases h
    rw [Keywords.withKeyword, decodeDict_openApi v hps]
    rfl
  case h_8 =>
    obtain ⟨names, hnames, h⟩ := Option.bind_eq_some_iff.1 h
    cases h
    rw [Keywords.withKeyword, hnames]
    rfl
  case h_9 =>
    split at h
    · cases h
      rw [Keywords.withKeyword]
      rfl
    · obtain ⟨values, hvalues, h⟩ := Option.bind_eq_some_iff.1 h
      cases h
      rw [Keywords.withKeyword, decode_openApi v hvalues]
      · rfl
      · assumption
  case h_10 =>
    obtain ⟨parts, hparts, h⟩ := Option.bind_eq_some_iff.1 h
    cases h
    rw [Keywords.withKeyword, decodeList_openApi v hparts]
    rfl
  case h_11 => cases h
termination_by 4 * sizeOf v + 2

theorem decodeList_openApi (d : Data) {ss : List Schema} (h : decodeList d = some ss) :
    OpenApi.Schema.decodeList d = some (ss.map openApi) := by
  unfold decodeList at h
  split at h
  · rw [OpenApi.Schema.decodeList]
    exact decodeItems_openApi _ h
  · cases h
termination_by 4 * sizeOf d

theorem decodeItems_openApi (ds : List Data) {ss : List Schema} (h : decodeItems ds = some ss) :
    OpenApi.Schema.decodeItems ds = some (ss.map openApi) := by
  match ds with
  | [] =>
    rw [decodeItems] at h
    cases h
    rw [OpenApi.Schema.decodeItems]
    rfl
  | d :: ds =>
    rw [decodeItems] at h
    simp only [Option.bind_eq_bind, Option.bind_eq_some_iff] at h
    obtain ⟨s, hs, ss, hss, h⟩ := h
    cases h
    rw [OpenApi.Schema.decodeItems, decode_openApi d hs, decodeItems_openApi ds hss]
    rfl
termination_by 4 * sizeOf ds

theorem decodeDict_openApi (d : Data) {ss : List (String × Schema)} (h : decodeDict d = some ss) :
    OpenApi.Schema.decodeDict d = some (ss.map fun e => (e.1, e.2.openApi)) := by
  unfold decodeDict at h
  split at h
  · obtain ⟨names, hnames, h⟩ := Option.bind_eq_some_iff.1 h
    rw [OpenApi.Schema.decodeDict, decodeEntries_openApi _ h]
    exact congrArg some (ofDict_openApi (nodup_names hnames h))
  · cases h
termination_by 4 * sizeOf d

theorem decodeEntries_openApi (es : List (Data × Data)) {ss : List (String × Schema)}
    (h : decodeEntries es = some ss) :
    OpenApi.Schema.decodeEntries es = some (ss.map fun e => (e.1, e.2.openApi)) := by
  match es with
  | [] =>
    rw [decodeEntries] at h
    cases h
    rw [OpenApi.Schema.decodeEntries]
    rfl
  | (n, v) :: es =>
    rw [decodeEntries] at h
    simp only [Option.bind_eq_bind, Option.bind_eq_some_iff] at h
    obtain ⟨name, hname, s, hs, ss, hss, h⟩ := h
    cases h
    rw [OpenApi.Schema.decodeEntries, hname, decode_openApi v hs, decodeEntries_openApi es hss]
    rfl
termination_by 4 * sizeOf es

end

end TypedClient.Shared.Schema
