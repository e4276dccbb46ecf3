import Mathlib.Data.List.Nodup
import Mathlib.Data.List.Pairwise
import Mathlib.Data.Prod.Basic
import TypedClient.Proofs.Conversion.OpenApi
import TypedClient.Proofs.Conversion.Swagger
import TypedClient.Proofs.JsonText

/-!
# The operations of a document

Operations are listed path by path and for each path in the order of the keys of its path item. A key
is read as a verb in any mix of upper and lower case, so that two keys may stand for one verb. Then
there are two operations with this path and verb, and there are none as long as no verb is spelled in
two ways.
-/

namespace TypedClient

open Schema (Verb)

/-! ## Path items -/

/-- What a mapping has under its names. -/
def Data.named (d : Data) : OrderedMap Data := ((Decoder.fields true d).map .ofList).getD ∅

namespace Dialect

/-- Whether what stands under `paths` is a path and no extension. -/
def isPath : Dialect → String → Bool
  | .swagger, name => !name.startsWith "x-"
  | .openApi, name => name.startsWith "/"

/-- The paths of a document with the fields of their path items. -/
def paths (dialect : Dialect) (data : Data) : List (String × OrderedMap Data) :=
  let named := ((Decoder.fields true data).bind (·.lookup "paths")).elim ∅ Data.named
  (named.entries.filter fun e => dialect.isPath e.1).map fun e => (e.1, e.2.named)

/-- Whether something is given under the key of the verb in lower case. -/
def gives (item : OrderedMap Data) (v : Verb) : Bool :=
  (item.get? v.key).any fun value => !(value matches .null)

/-- The verb that a key of a path item declares an operation for. In OpenAPI 3 the operation is the
one under the key in lower case, whichever key is read, and there may be none. -/
def verb? (dialect : Dialect) (item : OrderedMap Data) (key : String) : Option Verb :=
  match dialect with
  | .swagger => Verb.ofKey? key
  | .openApi => (Verb.ofKey? key).filter (gives item)

/-- The paths with the verbs of their operations, in the order in which they are written. -/
def calls (dialect : Dialect) (data : Data) : List (String × Verb) :=
  (dialect.paths data).flatMap fun e => (e.2.names.filterMap (dialect.verb? e.2)).map (e.1, ·)

/-- No path item has two keys for one verb. -/
def SpellsOnce (dialect : Dialect) (data : Data) : Prop :=
  ∀ e ∈ dialect.paths data, ∀ key ∈ e.2.names, ∀ key' ∈ e.2.names, ∀ verb,
    dialect.verb? e.2 key = some verb → dialect.verb? e.2 key' = some verb → key = key'

/-- All verbs are spelled in lower case. -/
def LowerCase (dialect : Dialect) (data : Data) : Prop :=
  ∀ e ∈ dialect.paths data, ∀ key ∈ e.2.names, ∀ verb, Verb.ofKey? key = some verb → key = verb.key

end Dialect

/-! ## Reading path items -/

theorem Decoder.dict_some (lenient : Bool) (d : Data) :
    dict lenient some d = (fields lenient d).map .ofList := by
  have hentries (fs : Fields) : fs.mapM (fun e => (some e.2).map (e.1, ·)) = some fs := by
    induction fs with
    | nil => rfl
    | cons e fs ih => simp_all
  rw [dict]
  cases fields lenient d with
  | none => rfl
  | some fs => exact congrArg (Option.map OrderedMap.ofList) (hentries fs)

theorem Swagger.Decoder.getD_pathItem (d : Data) : (pathItem d).getD ∅ = d.named := by
  rw [pathItem, TypedClient.Decoder.dict_some, Data.named]

theorem Swagger.Decoder.calls_document {data : Data} {doc : Document} (h : document data = some doc) :
    doc.calls = Dialect.swagger.calls data := by
  simp only [document, Option.bind_eq_bind, Option.bind_eq_some_iff] at h
  obtain ⟨fs, hfs, _, -, _, -, _, -, _, -, _, -, _, -, paths, hpaths, _, -, _, -, _, -, h⟩ := h
  cases h
  have hnamed : paths = (fs.lookup "paths").elim ∅ Data.named := by
    rw [Fields.get] at hpaths
    split at hpaths
    · rename_i hlookup
      rw [hlookup]
      exact (Option.some.inj hpaths).symm
    · rename_i v hlookup
      rw [hlookup, Option.elim, ← getD_pathItem, pathItem, hpaths, Option.getD_some]
  simp only [Document.calls, Dialect.calls, Dialect.paths, hfs, Option.bind_some, ← hnamed,
    List.flatMap_map]
  apply List.flatMap_congr
  intro e _
  rw [callsAt, getD_pathItem]
  rfl

section OpenApi

open OpenApi (Document OrReference PathItem)

theorem filterMapM_eq_some {α β : Type} {f : α → Option (Option β)} {as : List α} {bs : List β}
    (h : as.filterMapM f = some bs) :
    bs = as.filterMap (fun a => (f a).join) ∧ ∀ a ∈ as, (f a).isSome := by
  induction as generalizing bs with
  | nil =>
    cases h
    exact ⟨rfl, nofun⟩
  | cons a as ih =>
    rw [List.filterMapM_cons] at h
    obtain ⟨b, hb, h⟩ := Option.bind_eq_some_iff.1 h
    cases b with
    | none =>
      obtain ⟨rfl, hall⟩ := ih h
      exact ⟨by simp [hb], List.forall_mem_cons.2 ⟨by simp [hb], hall⟩⟩
    | some b =>
      obtain ⟨rest, hrest, heq⟩ := Option.bind_eq_some_iff.1 h
      cases heq
      obtain ⟨rfl, hall⟩ := ih hrest
      exact ⟨by simp [hb], List.forall_mem_cons.2 ⟨by simp [hb], hall⟩⟩

theorem Fields.get?_eq_some_some_iff {α : Type} {fs : Fields} {name : String} {d : Decoder α} {a : α} :
    fs.get? name d = some (some a) ↔ ∃ v, fs.lookup name = some v ∧ v ≠ .null ∧ d v = some a := by
  rw [get?, get]
  cases hlookup : fs.lookup name with
  | none => simp
  | some v => cases v <;> simp [Decoder.optional]

/-- The verbs that operations are found for are those that have a value in lower case. -/
theorem OpenApi.Decoder.exists_declared_iff {fs : Fields} {declared : List (Verb × Operation)}
    (h : Verb.all.filterMapM (fun v => (fs.get? v.key operation).map fun o => o.map (v, ·)) =
      some declared) (verb : Verb) : (∃ e ∈ declared, e.1 = verb) ↔
        ∃ v, fs.lookup verb.key = some v ∧ v ≠ .null := by
  obtain ⟨rfl, hall⟩ := filterMapM_eq_some h
  simp only [List.mem_filterMap, Option.join_eq_some_iff, Option.map_eq_some_iff]
  constructor
  · rintro ⟨e, ⟨v, -, _, hget, a, rfl, rfl⟩, rfl⟩
    obtain ⟨value, hlookup, hne, -⟩ := Fields.get?_eq_some_some_iff.1 hget
    exact ⟨value, hlookup, hne⟩
  · rintro ⟨value, hlookup, hne⟩
    have hverb : verb ∈ Verb.all := by cases verb <;> decide
    obtain ⟨o, ho⟩ := Option.isSome_iff_exists.1 (hall verb hverb)
    obtain ⟨o, hget, -⟩ := Option.map_eq_some_iff.1 ho
    cases o with
    | some a => exact ⟨(verb, a), ⟨verb, hverb, some a, hget, a, rfl, rfl⟩, rfl⟩
    | none =>
      rw [Fields.get?, Fields.get, hlookup] at hget
      cases value <;> simp_all [TypedClient.Decoder.optional]

/-- The operation that is found for a verb is one for this verb, if something is given for it. -/
theorem find?_verb {declared : List (Verb × Operation)} {given : Verb → Bool}
    (hgiven : ∀ verb, given verb = true ↔ ∃ e ∈ declared, e.1 = verb) (verb : Verb) :
    (declared.find? (·.1 = verb)).map Prod.fst = (some verb).filter given := by
  cases hfound : declared.find? (·.1 = verb) with
  | none =>
    have hnone : ¬ given verb = true := by
      rw [hgiven]
      rintro ⟨e, he, heq⟩
      exact List.find?_eq_none.1 hfound e he (decide_eq_true heq)
    exact (Option.filter_some_neg (Bool.eq_false_iff.2 hnone)).symm
  | some e =>
    have hverb : e.1 = verb := by simpa using List.find?_some hfound
    have hverbGiven := (hgiven verb).2 ⟨e, List.mem_of_find?_eq_some hfound, hverb⟩
    rw [Option.map_some, hverb]
    exact (Option.filter_some_pos hverbGiven).symm

/-- A path item that is read has no name twice. -/
theorem OpenApi.Decoder.nodup_of_pathItemFields {fs : Fields}
    {parameters : List (OrReference OpenApi.Parameter)} (h : pathItemFields fs = some parameters) :
    (fs.map Prod.fst).Nodup := by
  rw [pathItemFields] at h
  split at h
  · cases h
  · rename_i hnot
    simp only [Bool.or_eq_true, not_or, Bool.not_eq_true', decide_eq_false_iff_not, not_not] at hnot
    exact hnot.2

theorem Data.entries_named {d : Data} {fs : Fields} (hfs : Decoder.fields false d = some fs)
    (hdistinct : (fs.map Prod.fst).Nodup) : d.named.entries = fs := by
  have hlenient : Decoder.fields true d = some fs := by
    cases d with
    | mapping es => exact hfs
    | _ => cases hfs
  rw [named, hlenient, Option.map_some, Option.getD_some, OrderedMap.entries_ofList hdistinct]

theorem OpenApi.Decoder.verbs_pathItem {d : Data} {item : PathItem} (h : pathItem d = some item) :
    item.operations.map Prod.fst = d.named.names.filterMap (Dialect.openApi.verb? d.named) := by
  simp only [pathItem, Option.bind_eq_bind, Option.bind_eq_some_iff] at h
  obtain ⟨fs, hfs, parameters, hparameters, declared, hdeclared, h⟩ := h
  cases h
  have hnamed : d.named.entries = fs := d.entries_named hfs (nodup_of_pathItemFields hparameters)
  have hgives (verb : Verb) : Dialect.gives d.named verb = true ↔ ∃ e ∈ declared, e.1 = verb := by
    rw [exists_declared_iff hdeclared, Dialect.gives, OrderedMap.get?, hnamed, Option.any_eq_true]
    refine exists_congr fun v => and_congr_right fun _ => ?_
    cases v <;> simp
  rw [OrderedMap.names, hnamed, List.filterMap_filterMap, List.map_filterMap, List.filterMap_map]
  apply List.filterMap_congr
  intro e _
  dsimp only [Function.comp_apply, Dialect.verb?]
  cases hverb : Verb.ofKey? e.1 with
  | none => rfl
  | some verb => exact find?_verb hgives verb

theorem forall₂_of_mapM_eq_some {α β : Type} {f : α → Option β} {as : List α} {bs : List β}
    (h : as.mapM f = some bs) : List.Forall₂ (fun a b => f a = some b) as bs := by
  induction as generalizing bs with
  | nil =>
    cases h
    exact .nil
  | cons a as ih =>
    rw [List.mapM_cons] at h
    obtain ⟨b, hb, h⟩ := Option.bind_eq_some_iff.1 h
    obtain ⟨rest, hrest, heq⟩ := Option.bind_eq_some_iff.1 h
    cases heq
    exact .cons hb (ih hrest)

/-- The paths are those that are written, each with its path item. -/
theorem OpenApi.Decoder.forall₂_paths {v : Data} {items : OrderedMap (OrReference PathItem)}
    (h : paths v = some items) :
    List.Forall₂ (OrderedMap.Corresponds fun v item => OrReference.decode pathItem v = some item)
      (v.named.entries.filter fun e => e.1.startsWith "/") items.entries := by
  simp only [paths, Option.bind_eq_bind, Option.bind_eq_some_iff] at h
  obtain ⟨fs, hfs, h⟩ := h
  split at h
  · cases h
  obtain ⟨decoded, hdecoded, heq⟩ := Option.bind_eq_some_iff.1 h
  cases heq
  rw [Data.named, hfs, Option.map_some, Option.getD_some,
    ← OrderedMap.entries_ofList_filter (fun name => name.startsWith "/")]
  refine OrderedMap.forall₂_ofList ((forall₂_of_mapM_eq_some hdecoded).imp fun e e' he => ?_)
  obtain ⟨item, hitem, rfl⟩ := Option.map_eq_some_iff.1 he
  exact ⟨rfl, hitem⟩

theorem OpenApi.Decoder.calls_document {data : Data} {doc : Document} (h : document data = some doc)
    (hinline : ∀ e ∈ doc.paths.entries, ∃ item, e.2 = .item item) :
    doc.calls = Dialect.openApi.calls data := by
  simp only [document, Option.bind_eq_bind, Option.bind_eq_some_iff] at h
  obtain ⟨fs, hfs, h⟩ := h
  split at h
  · cases h
  simp only [Option.bind_eq_some_iff] at h
  obtain ⟨_, -, _, -, items, hpaths, _, -, h⟩ := h
  cases h
  obtain ⟨v, hv, hitems⟩ := Option.bind_eq_some_iff.1 hpaths
  have hpaths := (List.forall₂_and_left _ _).2 ⟨hinline, (forall₂_paths hitems).flip⟩
  simp only [Document.calls, Dialect.calls, Dialect.paths, hfs, Option.bind_some, hv, Option.elim,
    List.flatMap]
  congr 1
  rw [← List.forall₂_eq_eq_eq, List.forall₂_map_left_iff, List.forall₂_map_right_iff,
    List.forall₂_map_right_iff]
  refine hpaths.imp ?_
  rintro ⟨_, _⟩ ⟨path, v⟩ ⟨⟨item, rfl⟩, rfl, hitem⟩
  rw [OrReference.decode] at hitem
  split at hitem
  · cases hitem
  obtain ⟨_, hitem, heq⟩ := Option.map_eq_some_iff.1 hitem
  cases heq
  rw [← verbs_pathItem hitem, List.map_map]
  rfl

end OpenApi

/-! ## Loading -/

theorem Source.calls_of_document {src : Source} {data : Data} {dialect : Dialect}
    {d : Schema.Document} (hdata : ofData data = .ok src) (hdetect : Dialect.detect data = .ok dialect)
    (h : src.document = .ok d) : d.operations.map (·.call) = dialect.calls data := by
  rw [document] at h
  split at h
  · cases h
  rename_i operations c hrun
  cases h
  rw [ofData, hdetect] at hdata
  cases dialect with
  | swagger =>
    dsimp only at hdata
    split at hdata
    · rename_i doc hdoc
      cases hdata
      obtain ⟨-, hcalls⟩ := (Swagger.convert_spec doc).of_ok hrun
      exact hcalls.trans (Swagger.Decoder.calls_document hdoc)
    · cases hdata
  | openApi =>
    dsimp only at hdata
    split at hdata
    · rename_i doc hdoc
      cases hdata
      obtain ⟨-, hinline, hcalls⟩ := (OpenApi.convert_spec doc).of_ok hrun
      exact hcalls.trans (OpenApi.Decoder.calls_document hdoc hinline)
    · cases hdata

/-! ## Repeated pairs -/

theorem nodup_filterMap_iff {α β : Type} {f : α → Option β} {as : List α} (h : as.Nodup) :
    (as.filterMap f).Nodup ↔
      ∀ a ∈ as, ∀ a' ∈ as, ∀ b, f a = some b → f a' = some b → a = a' := by
  rw [List.Nodup, List.pairwise_filterMap]
  constructor
  · intro hpairs a ha a' ha' b hb hb'
    by_contra hne
    have hsymm : Std.Symm fun a a' => ∀ b, f a = some b → ∀ b', f a' = some b' → b ≠ b' :=
      ⟨fun _ _ hab b hb b' hb' => (hab b' hb' b hb).symm⟩
    exact hpairs.forall ha ha' hne b hb b hb' rfl
  · intro hall
    refine h.pairwise_of_forall_ne fun a ha a' ha' hne b hb b' hb' => ?_
    rintro rfl
    exact hne (hall a ha a' ha' b hb hb')

namespace Dialect

theorem nodup_paths (dialect : Dialect) (data : Data) :
    ((dialect.paths data).map Prod.fst).Nodup := by
  rw [paths, List.map_map]
  exact (OrderedMap.distinct _).sublist (List.filter_sublist.map _)

/-- The pairs are distinct unless some path item has two keys for one verb. -/
theorem nodup_calls_iff (dialect : Dialect) (data : Data) :
    (dialect.calls data).Nodup ↔ dialect.SpellsOnce data := by
  rw [calls, List.nodup_flatMap, and_iff_left, SpellsOnce]
  · refine forall₂_congr fun e _ => ?_
    rw [List.nodup_map_iff (Prod.mk_right_injective e.1)]
    exact nodup_filterMap_iff e.2.distinct
  · refine (List.pairwise_map.1 (nodup_paths dialect data)).imp fun hne => ?_
    rintro _ hcall hcall'
    obtain ⟨verb, -, rfl⟩ := List.mem_map.1 hcall
    obtain ⟨verb', -, heq⟩ := List.mem_map.1 hcall'
    exact hne (Prod.mk.inj heq).1.symm

theorem ofKey?_of_verb? {dialect : Dialect} {item : OrderedMap Data} {key : String} {verb : Verb}
    (h : dialect.verb? item key = some verb) : Verb.ofKey? key = some verb := by
  cases dialect with
  | swagger => exact h
  | openApi => exact (Option.filter_eq_some_iff.1 h).1

theorem LowerCase.spellsOnce {dialect : Dialect} {data : Data} (h : dialect.LowerCase data) :
    dialect.SpellsOnce data := by
  intro e he key hkey key' hkey' verb hverb hverb'
  rw [h e he key hkey verb (ofKey?_of_verb? hverb), h e he key' hkey' verb (ofKey?_of_verb? hverb')]

end Dialect

/-- The operations of a document are those that its path items have keys for, in the order in which
they are written. No two of them have one path and one verb exactly when no path item has two keys for
one verb, and so when all verbs are in lower case. -/
theorem operations_listed {text : String} {d : Schema.Document} (h : load text = .ok d) :
    ∃ data dialect, readDocument text = .ok data ∧ Dialect.detect data = .ok dialect ∧
      d.operations.map (fun o => (o.path, o.verb)) = dialect.calls data ∧
      ((d.operations.map fun o => (o.path, o.verb)).Nodup ↔ dialect.SpellsOnce data) ∧
      (dialect.LowerCase data → (d.operations.map fun o => (o.path, o.verb)).Nodup) := by
  obtain ⟨src, hsrc, hdocument⟩ := bind_eq_ok_iff.1 h
  obtain ⟨data, hread, hdata⟩ := bind_eq_ok_iff.1 hsrc
  have hdetect : ∃ dialect, Dialect.detect data = .ok dialect := by
    rw [Source.ofData] at hdata
    split at hdata
    · cases hdata
    · exact ⟨_, by assumption⟩
    · exact ⟨_, by assumption⟩
  obtain ⟨dialect, hdetect⟩ := hdetect
  have hcalls : d.operations.map (fun o => (o.path, o.verb)) = dialect.calls data :=
    Source.calls_of_document hdata hdetect hdocument
  have hnodup : (d.operations.map fun o => (o.path, o.verb)).Nodup ↔ dialect.SpellsOnce data := by
    rw [hcalls]
    exact dialect.nodup_calls_iff data
  exact ⟨data, dialect, hread, hdetect, hcalls, hnodup, fun hlower => hnodup.2 hlower.spellsOnce⟩

open Json (record quote)

/-- One operation, and beside it a key for the same verb in upper case. -/
def petPathText : String :=
  record [
    ("openapi", quote "3.0"),
    ("info", record [("title", quote "t"), ("version", quote "v")]),
    ("paths", record [("/pet", record [
      ("get", record [("responses", record [])]), ("GET", record [])])])]

theorem exists_petOperations : ∃ d, load petPathText = .ok d ∧
    d.operations.map (fun o => (o.path, o.verb)) = [("/pet", .get), ("/pet", .get)] := by
  have hoperations : (load petPathText).map (fun d => d.operations.map fun o => (o.path, o.verb)) =
      .ok [("/pet", .get), ("/pet", .get)] := by
    rw [load_eq_documentData ?text]
    case text =>
      simp only [petPathText, Json.toList_record, Json.toList_quote, List.map_cons, List.map_nil]
      rfl
    decide +kernel
  exact map_eq_ok_iff.1 hoperations

/-- The operation is listed for either key. -/
theorem petPathText_listed : ∃ d data dialect, load petPathText = .ok d ∧
    readDocument petPathText = .ok data ∧ Dialect.detect data = .ok dialect ∧
    dialect.calls data = [("/pet", .get), ("/pet", .get)] ∧ ¬ dialect.SpellsOnce data := by
  obtain ⟨d, hd, hoperations⟩ := exists_petOperations
  obtain ⟨data, dialect, hread, hdetect, hcalls, hnodup, -⟩ := operations_listed hd
  refine ⟨d, data, dialect, hd, hread, hdetect, hcalls.symm.trans hoperations, ?_⟩
  rw [← hnodup, hoperations]
  decide

/-- Not every document has one operation for a path and a verb. -/
theorem operation_repeated : ¬ ∀ (text : String) (d : Schema.Document), load text = .ok d →
    (d.operations.map fun o => (o.path, o.verb)).Nodup := by
  intro h
  obtain ⟨d, hd, hoperations⟩ := exists_petOperations
  have hnodup := h petPathText d hd
  rw [hoperations] at hnodup
  exact absurd hnodup (by decide)

end TypedClient
