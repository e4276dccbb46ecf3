import Mathlib
import TypedClient.Proofs.Source.Names

/-!
# Valid identifiers

Whatever characters a name has, what is made of it is a word of letters, digits and low lines that
does not begin with a digit and is no keyword. A suffix that makes a word different from others
leaves it valid, since no keyword has a low line or a capital M in it.
-/

namespace TypedClient.Source

/-! ## Words -/

/-- A character of identifiers. Letters and digits are those of ASCII. -/
def IsWordChar (c : Char) : Prop := c.isAlpha ∨ c.isDigit ∨ c = '_'

instance (c : Char) : Decidable (IsWordChar c) :=
  inferInstanceAs (Decidable (c.isAlpha ∨ c.isDigit ∨ c = '_'))

/-- A text in the form of an identifier, which may still be a keyword. -/
structure IsWord (s : String) : Prop where
  chars : ∀ c ∈ s.toList, IsWordChar c
  first : s.toList.head?.any Char.isDigit = false
  /-- So the text is not empty either. -/
  named : ∃ c ∈ s.toList, c ≠ '_'

/-- A text that the source may have as a name. -/
structure IsIdentifier (s : String) : Prop extends IsWord s where
  free : s ∉ keywords

variable {s t base suffix fallback name : String} {taken bases : List String} {c : Char}

theorem isWord_iff : IsWord s ↔ (∀ c ∈ s.toList, IsWordChar c) ∧
    s.toList.head?.any Char.isDigit = false ∧ ∃ c ∈ s.toList, c ≠ '_' :=
  ⟨fun h => ⟨h.chars, h.first, h.named⟩, fun ⟨hchars, hfirst, hnamed⟩ => ⟨hchars, hfirst, hnamed⟩⟩

theorem isIdentifier_iff : IsIdentifier s ↔ IsWord s ∧ s ∉ keywords :=
  ⟨fun h => ⟨h.toIsWord, h.free⟩, fun ⟨hword, hfree⟩ => ⟨hword, hfree⟩⟩

instance (s : String) : Decidable (IsWord s) :=
  decidable_of_iff (s.toList.all (IsWordChar ·) ∧ s.toList.head?.any Char.isDigit = false ∧
    s.toList.any (· ≠ '_')) (by simp [isWord_iff])

instance (s : String) : Decidable (IsIdentifier s) := decidable_of_iff' _ isIdentifier_iff

/-- What is put after a word need not be one. -/
theorem IsWord.append (h : IsWord s) (ht : ∀ c ∈ t.toList, IsWordChar c) : IsWord (s ++ t) := by
  obtain ⟨hchars, hfirst, c, hc, hnamed⟩ := h
  obtain ⟨first, rest, hs⟩ := List.exists_cons_of_ne_nil (List.ne_nil_of_mem hc)
  refine ⟨?_, ?_, c, ?_, hnamed⟩
  · rw [String.toList_append]
    exact List.forall_mem_append.2 ⟨hchars, ht⟩
  · rw [hs] at hfirst
    rw [String.toList_append, hs]
    exact hfirst
  · rw [String.toList_append]
    exact List.mem_append_left _ hc

/-! ## Suffixes -/

/-- A text that makes an identifier of any word which it is put after. -/
structure IsSuffix (s : String) : Prop where
  chars : ∀ c ∈ s.toList, IsWordChar c
  mark : ∃ c ∈ s.toList, ∀ k ∈ keywords, c ∉ k.toList

theorem isSuffix_lowLine : IsSuffix "_" := ⟨by simp [IsWordChar], '_', by decide, by decide +kernel⟩

theorem isSuffix_model : IsSuffix "Model" :=
  ⟨(by decide +kernel : IsWord "Model").chars, 'M', by decide, by decide +kernel⟩

theorem IsSuffix.append (h : IsSuffix s) (ht : ∀ c ∈ t.toList, IsWordChar c) : IsSuffix (s ++ t) := by
  obtain ⟨hchars, c, hc, hmark⟩ := h
  refine ⟨?_, c, ?_, hmark⟩
  · rw [String.toList_append]
    exact List.forall_mem_append.2 ⟨hchars, ht⟩
  · rw [String.toList_append]
    exact List.mem_append_left _ hc

theorem IsWord.isIdentifier_append (h : IsWord s) (ht : IsSuffix t) : IsIdentifier (s ++ t) := by
  refine ⟨h.append ht.chars, fun hkeyword => ?_⟩
  obtain ⟨c, hc, hmark⟩ := ht.mark
  refine hmark _ hkeyword ?_
  rw [String.toList_append]
  exact List.mem_append_right _ hc

theorem isWordChar_of_mem_toString {n : Nat} (h : c ∈ (toString n).toList) : IsWordChar c := by
  rw [Nat.toString_eq_ofList_toDigits, String.toList_ofList] at h
  exact .inr (.inl (Nat.isDigit_of_mem_toDigits (by decide) (by decide) h))

theorem IsIdentifier.candidate (h : IsIdentifier base) (hsuffix : IsSuffix suffix) (n : Nat) :
    IsIdentifier (candidate base suffix n) := by
  match n with
  | 0 => exact h
  | 1 => exact h.isIdentifier_append hsuffix
  | n + 2 =>
    have hnumber : IsSuffix (suffix ++ toString (n + 2)) :=
      hsuffix.append fun c => isWordChar_of_mem_toString
    rw [Source.candidate, numbered, String.append_assoc]
    exact h.isIdentifier_append hnumber

/-! ## Identifiers of names -/

theorem isWordChar_iff : IsWordChar c ↔ (c.isAlphanum || c == '_') = true := by
  simp [IsWordChar, Char.isAlphanum, or_assoc]

/-- A word that is a keyword gets a low line. -/
theorem IsWord.isIdentifier_escaped (h : IsWord s) :
    IsIdentifier (if s ∈ keywords then s ++ "_" else s) := by
  split
  · exact h.isIdentifier_append isSuffix_lowLine
  · rename_i hfree
    exact ⟨h, hfree⟩

/-- What is left of a name is a valid identifier, if the text that stands in for it is one. -/
theorem isIdentifier_identifier (hfallback : IsIdentifier fallback) (name : String) :
    IsIdentifier (identifier fallback name) := by
  unfold identifier
  generalize hkept : (name.toList.filter fun c => c.isAlphanum || c == '_') = kept
  have hchars : ∀ c ∈ kept, IsWordChar c := by
    intro c hc
    rw [← hkept] at hc
    exact isWordChar_iff.2 (List.mem_filter.1 hc).2
  dsimp only
  split
  · exact hfallback
  · rename_i hall
    apply IsWord.isIdentifier_escaped
    split
    · rw [String.ofList_append, String.ofList_toList]
      exact hfallback.append (by rwa [String.toList_ofList])
    · rename_i hfirst
      rw [isWord_iff, String.toList_ofList]
      exact ⟨hchars, by simpa using hfirst, by simpa using hall⟩

theorem isIdentifier_modelIdentifier (name : String) : IsIdentifier (modelIdentifier name) := by
  have hfallback : IsIdentifier "Model" := by decide +kernel
  rw [modelIdentifier]
  exact isIdentifier_identifier hfallback _

theorem isIdentifier_snakeIdentifier (name : String) : IsIdentifier (snakeIdentifier name) := by
  have hfallback : IsIdentifier "field" := by decide +kernel
  unfold snakeIdentifier
  exact isIdentifier_identifier hfallback _

/-- Making identifiers different keeps them valid. -/
theorem isIdentifier_of_mem_distinctFrom (hsuffix : IsSuffix suffix)
    (hbases : ∀ base ∈ bases, IsIdentifier base) (h : s ∈ distinctFrom suffix taken bases) :
    IsIdentifier s := by
  obtain ⟨base, hbase, n, rfl⟩ := exists_candidate_of_mem_distinctFrom h
  exact (hbases base hbase).candidate hsuffix n

theorem isIdentifier_of_mem_snakeIdentifiers {reserved names : List String}
    (h : s ∈ snakeIdentifiers reserved names) : IsIdentifier s := by
  refine isIdentifier_of_mem_distinctFrom isSuffix_lowLine (fun base hbase => ?_) h
  obtain ⟨name, -, rfl⟩ := List.mem_map.1 hbase
  exact isIdentifier_snakeIdentifier name

/-! ## Types -/

namespace TypeNames

variable {models : List Model} {c : Client}

/-- Also a name that no model has gets an identifier. -/
theorem isIdentifier_model (models : List Model) (c : Client) (name : String) :
    IsIdentifier ((ofModels models c).model name) := by
  by_cases hname : name ∈ models.map (·.name)
  · refine isIdentifier_of_mem_distinctFrom isSuffix_model (fun base hbase => ?_)
      (model_mem_identifiers hname)
    obtain ⟨key, -, rfl⟩ := List.mem_map.1 hbase
    exact isIdentifier_modelIdentifier key
  · rw [model, OrderedMap.get?_eq_none_iff.2 (mt mem_names_ofModels.1 hname), Option.getD_none]
    exact isIdentifier_modelIdentifier name

theorem isIdentifier_client (models : List Model) (c : Client) :
    IsIdentifier (ofModels models c).client := by
  have hfallback : IsIdentifier "Client" := by decide +kernel
  rw [client_ofModels]
  exact isIdentifier_identifier hfallback _

/-- Types have valid identifiers, whatever characters their names have. Models of different names have
different identifiers, also where others share a name, and none of these is that of the client or of a
type which every source has. -/
theorem types_identified (models : List Model) (c : Client) :
    (∀ name, IsIdentifier ((ofModels models c).model name)) ∧
    IsIdentifier (ofModels models c).client ∧
    (∀ m ∈ models, ∀ m' ∈ models, m.name ≠ m'.name →
      (ofModels models c).model m.name ≠ (ofModels models c).model m'.name) ∧
    ∀ m ∈ models, (ofModels models c).model m.name ∉ Support.names ∧
      (ofModels models c).model m.name ≠ (ofModels models c).client := by
  refine ⟨isIdentifier_model models c, isIdentifier_client models c, fun m hm m' hm' hne heq => ?_,
    fun m hm => ?_⟩
  · exact hne (model_injective (List.mem_map_of_mem hm) (List.mem_map_of_mem hm') heq)
  · have hfree := model_not_mem (c := c) (List.mem_map_of_mem (f := (·.name)) hm)
    rw [← client_ofModels models c, List.mem_cons, not_or] at hfree
    exact hfree.symm

/-- Names that are written in camel case alike, one that is a keyword in it, and one that has no
characters of identifiers. -/
def kennelModels : List Model :=
  ["kennel", "Kennel", "self", "2nd owner", "日本", "transport"].map modelNamed

def kennelClient : Client := { name := "KENNEL", baseEndpoint := "", methods := [] }

/-- The identifier of the client is the one that both kennels would have. -/
theorem kennels_identified :
    kennelModels.map ((ofModels kennelModels kennelClient).model ·.name) =
      ["KennelModel", "KennelModel2", "Self_", "Model2ndOwner", "Model", "TransportModel"] ∧
    (ofModels kennelModels kennelClient).client = "Kennel" ∧
    modelNamed "kennel" ∈ kennelModels ∧ modelNamed "Kennel" ∈ kennelModels ∧
    (ofModels kennelModels kennelClient).model (modelNamed "kennel").name ≠
      (ofModels kennelModels kennelClient).model (modelNamed "Kennel").name ∧
    (ofModels kennelModels kennelClient).model (modelNamed "kennel").name ∉ Support.names ∧
    (ofModels kennelModels kennelClient).model (modelNamed "kennel").name ≠
      (ofModels kennelModels kennelClient).client ∧
    ∀ name, IsIdentifier ((ofModels kennelModels kennelClient).model name) := by
  obtain ⟨hvalid, -, hdistinct, hfree⟩ := types_identified kennelModels kennelClient
  have hlower : modelNamed "kennel" ∈ kennelModels := List.mem_map_of_mem (by decide)
  have hupper : modelNamed "Kennel" ∈ kennelModels := List.mem_map_of_mem (by decide)
  obtain ⟨hsupport, hclient⟩ := hfree _ hlower
  exact ⟨by decide +kernel, by decide +kernel, hlower, hupper,
    hdistinct _ hlower _ hupper (by decide), hsupport, hclient, hvalid⟩

end TypeNames

end TypedClient.Source
