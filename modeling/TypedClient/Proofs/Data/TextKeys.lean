import TypedClient.Proofs.Data.DistinctKeys

/-!
# Keys as texts

Numbers and flags become texts as keys, at every depth, and tags are dropped. Two entries of a mapping
may get the same key by this. The keys of what is read are distinct, so that only texts can meet.
-/

namespace TypedClient.Data

variable {d part key key' value : Data} {items : List Data} {entries : List (Data × Data)}
  {tag : String}

/-! ## One node -/

/-- An entry with its key as text, if there is one, and with a normal value. -/
def normalEntry (e : Data × Data) : Data × Data := (textKey e.1, e.2.withTextKeys)

theorem withTextKeys_list : withTextKeys (.list items) = .list (items.map withTextKeys) := by
  have hitems : ∀ items, itemsWithTextKeys items = items.map withTextKeys := by
    intro items
    induction items with
    | nil => rfl
    | cons d items ih => rw [itemsWithTextKeys, ih, List.map_cons]
  rw [withTextKeys, hitems]

theorem withTextKeys_mapping :
    withTextKeys (.mapping entries) = .mapping (putAll [] (entries.map normalEntry)) := by
  have hentries : ∀ entries, entriesWithTextKeys entries = entries.map normalEntry := by
    intro entries
    induction entries with
    | nil => rfl
    | cons e entries ih => rw [entriesWithTextKeys, ih, List.map_cons, normalEntry]
  rw [withTextKeys, hentries, putAll]

theorem withTextKeys_tagged : withTextKeys (.tagged tag value) = value.withTextKeys := by
  rw [withTextKeys]

theorem textKey_textKey (key : Data) : textKey (textKey key) = textKey key := by
  cases key <;> rfl

/-- Distinct keys can only meet in the texts that they become. -/
theorem sameKey_textKey (h : key.sameKey key' = false) :
    (textKey key).sameKey (textKey key') = (textKey key).sameText (textKey key') := by
  cases key <;> cases key' <;> simp_all [textKey, sameKey, sameText]

theorem onlyTextsRecur_normalEntry (h : Distinct entries) :
    OnlyTextsRecur (entries.map normalEntry) :=
  List.pairwise_map.2 (h.imp sameKey_textKey)

/-! ## All parts -/

/-- The keys of a normal mapping are texts as far as they may be, and its values are normal. -/
theorem mem_normal {e : Data × Data} (h : e ∈ putAll [] (entries.map normalEntry)) :
    textKey e.1 = e.1 ∧ ∃ e' ∈ entries, e.2 = e'.2.withTextKeys := by
  refine forall_mem_putAll (P := fun key => textKey key = key)
    (Q := fun value => ∃ e' ∈ entries, value = e'.2.withTextKeys) ?_ e h
  rw [List.forall_mem_map]
  intro e he
  exact ⟨textKey_textKey e.1, e, he, rfl⟩

/-- What a node becomes has no other parts than what the parts of the node become. -/
theorem exists_part_of_withTextKeys (h : Part part d.withTextKeys) :
    ∃ origin, Part origin d ∧ part = origin.withTextKeys := by
  induction d using induct with
  | list items ih =>
    rw [withTextKeys_list] at h
    cases h with
    | self => exact ⟨_, .self, withTextKeys_list.symm⟩
    | item hmem hpart =>
      obtain ⟨d, hd, rfl⟩ := List.mem_map.1 hmem
      obtain ⟨origin, horigin, heq⟩ := ih d hd hpart
      exact ⟨origin, .item hd horigin, heq⟩
  | mapping entries ih =>
    rw [withTextKeys_mapping] at h
    cases h with
    | self => exact ⟨_, .self, withTextKeys_mapping.symm⟩
    | value hmem hpart =>
      obtain ⟨-, e, he, hvalue⟩ := mem_normal hmem
      rw [hvalue] at hpart
      obtain ⟨origin, horigin, heq⟩ := ih e he hpart
      exact ⟨origin, .value he horigin, heq⟩
  | tagged tag value ih =>
    rw [withTextKeys_tagged] at h
    obtain ⟨origin, horigin, heq⟩ := ih h
    exact ⟨origin, .content horigin, heq⟩
  | _ => exact ⟨_, .self, by cases h; rfl⟩

theorem withTextKeys_withTextKeys (d : Data) : d.withTextKeys.withTextKeys = d.withTextKeys := by
  induction d using induct with
  | list items ih =>
    rw [withTextKeys_list, withTextKeys_list, List.map_map]
    congr 1
    exact List.map_congr_left fun d hd => ih d hd
  | mapping entries ih =>
    -- the second time nothing is left to become a text, and the keys are distinct from the first time
    have hnormal : (putAll [] (entries.map normalEntry)).map normalEntry =
        putAll [] (entries.map normalEntry) := by
      refine (List.map_congr_left fun e he => ?_).trans (List.map_id _)
      obtain ⟨hkey, e', he', hvalue⟩ := mem_normal he
      have hnormal : e.2.withTextKeys = e.2 := by rw [hvalue, ih e' he']
      rw [normalEntry, hkey, hnormal, id]
    rw [withTextKeys_mapping, withTextKeys_mapping, hnormal,
      putAll_of_distinct (distinct_putAll _), List.nil_append]
  | tagged tag value ih => rw [withTextKeys_tagged, ih]
  | _ => rfl

/-- No tag, and no number or flag as a key. -/
structure Normal (d : Data) : Prop where
  untagged : ∀ tag value, d ≠ .tagged tag value
  keys : ∀ entries, d = .mapping entries →
    ∀ e ∈ entries, (∀ n, e.1 ≠ .number n) ∧ ∀ b, e.1 ≠ .bool b

theorem ne_of_textKey_eq_self (h : textKey key = key) :
    (∀ n, key ≠ .number n) ∧ ∀ b, key ≠ .bool b := by
  constructor
  · rintro n rfl
    cases h
  · rintro b rfl
    cases h

theorem normal_withTextKeys (d : Data) : Normal d.withTextKeys := by
  induction d using induct with
  | list items =>
    rw [withTextKeys_list]
    exact ⟨nofun, nofun⟩
  | mapping entries =>
    rw [withTextKeys_mapping]
    refine ⟨nofun, fun entries' hentries e he => ?_⟩
    cases hentries
    exact ne_of_textKey_eq_self (mem_normal he).1
  | tagged tag value ih => rwa [withTextKeys_tagged]
  | _ => exact ⟨nofun, nofun⟩

/-! ## Mappings -/

/-- What the entries of a mapping become. Under a text stands the value of the last key that is the
text or becomes it, in the place of the first such key. Entries with other keys keep their order. -/
structure Merged (entries merged : List (Data × Data)) : Prop where
  lookup : ∀ k, lookup k merged =
    (entries.findRev? fun e => (textKey e.1).asText? = some k).map fun e => e.2.withTextKeys
  keys : merged.map Prod.fst = (entries.map fun e => textKey e.1).eraseDupsBy sameText
  others : others merged = others (entries.map normalEntry)

theorem merged_putAll (h : Distinct entries) :
    Merged entries (putAll [] (entries.map normalEntry)) where
  lookup k := by
    rw [lookup_putAll, findRev?_map, Option.map_map]
    rfl
  keys := by
    rw [keys_putAll (onlyTextsRecur_normalEntry h), List.map_map]
    rfl
  others := others_putAll (onlyTextsRecur_normalEntry h)

/-- The data of a text has no tags and no numbers or flags as keys once its keys are texts, at any
depth, and stays the same from then on. Lists keep their items, and each mapping is merged. -/
theorem normalised_of_readData {text : String} (h : readData text = .ok d) :
    d.withTextKeys.withTextKeys = d.withTextKeys ∧
    (∀ part, Part part d.withTextKeys →
      Normal part ∧ ∃ origin, Part origin d ∧ part = origin.withTextKeys) ∧
    (∀ items, withTextKeys (.list items) = .list (items.map withTextKeys)) ∧
    ∀ entries, Part (.mapping entries) d →
      ∃ merged, withTextKeys (.mapping entries) = .mapping merged ∧ Merged entries merged := by
  refine ⟨withTextKeys_withTextKeys d, fun part hpart => ?_, fun _ => withTextKeys_list,
    fun entries hpart => ?_⟩
  · obtain ⟨origin, horigin, rfl⟩ := exists_part_of_withTextKeys hpart
    exact ⟨normal_withTextKeys origin, origin, horigin, rfl⟩
  · exact ⟨_, withTextKeys_mapping, merged_putAll (distinctKeys_of_readData h entries hpart)⟩

/-- A text with a number, a flag, a text and nothing as keys. -/
def mixedText : String := "1: a\ntrue: b\n\"1\": !t c\n~: d\n"

def mixedData : Data :=
  .mapping [(.number (.int 1), .text "a"), (.bool true, .text "b"),
    (.text "1", .tagged "t" (.text "c")), (.null, .text "d")]

/-- The node of the text; it has no anchors. -/
def mixedNode : Yaml.Node :=
  .mapping none none [(.scalar none none "1" true, .scalar none none "a" true),
    (.scalar none none "true" true, .scalar none none "b" true),
    (.scalar none none "1" false, .scalar none (some "!t") "c" true),
    (.scalar none none "~" true, .scalar none none "d" true)]

theorem run_node_mixedNode (limit : Nat) :
    (Yaml.Building.node [] Yaml.depthLimit mixedNode).run limit = .ok (mixedData, limit) := by
  simp only [mixedNode, Yaml.depthLimit, Yaml.Building.node, Yaml.Building.mapping,
    Yaml.Building.entries, Yaml.Building.scalar, Yaml.Building.tagged]
  rfl

theorem readData_mixedText : readData mixedText = .ok mixedData := by
  have hjson : isJsonText mixedText = false := by decide +kernel
  have htokens : Yaml.tokens mixedText =
      [.blockMapping, .key, .scalar "1" true, .value, .scalar "a" true,
        .key, .scalar "true" true, .value, .scalar "b" true,
        .key, .scalar "1" false, .value, .tag "!" "t", .scalar "c" true,
        .key, .scalar "~" true, .value, .scalar "d" true, .blockEnd, .textEnd] := by
    decide +kernel
  have hopening : Yaml.Opening.ofTokens (Yaml.tokens mixedText) = ⟨mixedNode, .textEnd⟩ := by
    rw [htokens]
    rfl
  have hanchored : mixedNode.anchored.reverse = [] := rfl
  have hread : Yaml.read mixedText = .ok mixedData := by
    simp only [Yaml.read, hopening, hanchored, run_node_mixedNode]
  simp only [readData, hjson, hread, Bool.false_eq_true, if_false]

/-- The text takes the place of the number. -/
theorem mixedText_normalised : readData mixedText = .ok mixedData ∧
    mixedData.withTextKeys.withTextKeys = mixedData.withTextKeys ∧
    Normal mixedData.withTextKeys ∧
    (∃ merged, mixedData.withTextKeys = .mapping merged ∧
      lookup "1" merged = some (.text "c") ∧
      merged.map Prod.fst = [.text "1", .text "true", .null] ∧
      others merged = [(.null, .text "d")]) := by
  obtain ⟨hsame, hparts, -, hmappings⟩ := normalised_of_readData readData_mixedText
  obtain ⟨merged, hmerged, h⟩ := hmappings _ .self
  refine ⟨readData_mixedText, hsame, (hparts _ .self).1, merged, hmerged, ?_, ?_, ?_⟩
  · rw [h.lookup]
    rfl
  · rw [h.keys]
    rfl
  · rw [h.others]
    rfl

end TypedClient.Data
