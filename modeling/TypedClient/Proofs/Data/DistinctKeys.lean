import Mathlib.Tactic.SplitIfs
import TypedClient.Loading
import TypedClient.Proofs.Data.Parts
import TypedClient.Proofs.Run

/-!
# Distinct keys

A text in which a mapping has a key twice is no data, whichever of the two notations it is in. So the
mappings of the data that is read have distinct keys, at every depth.
-/

namespace TypedClient

open Data

/-! ## JSON -/

namespace Json

/-! ### Scalars -/

section Scalar

variable {value : Data} {letters cs : List Char} {first : Char}

theorem literalTail_isScalar (h : value.IsScalar) :
    Ensures (literalTail value letters cs) fun r => r.1.IsScalar := by
  fun_induction literalTail value letters cs with
  | case1 => exact ensures_ok.2 h
  | case2 => exact ensures_error
  | case3 c cs es ih => exact ih
  | case4 => exact ensures_error

theorem literalTail_after_isScalar (h : value.IsScalar) :
    Ensures (literalTail.after value letters first cs) fun r => r.1.IsScalar := by
  unfold literalTail.after
  split
  · exact ensures_error
  · rename_i hread
    exact ensures_ok.2 (literalTail_isScalar h _ hread)

theorem scalar_isScalar (c : Char) (rest : List Char) :
    Ensures (scalar c rest) fun r => r.1.IsScalar := by
  unfold scalar
  extract_lets hle
  split
  · exact literalTail_after_isScalar trivial
  · exact literalTail_after_isScalar trivial
  · exact literalTail_after_isScalar trivial
  · exact ensures_bind.2 fun _ _ => ensures_ok.2 trivial
  · exact ensures_bind.2 fun _ _ => ensures_ok.2 trivial
  · split
    · exact ensures_bind.2 fun _ _ => ensures_ok.2 trivial
    · exact ensures_error

end Scalar

/-! ### Values -/

-- The recursion is that of the reader. What is left of the text gets shorter with each mark, also
-- where blanks are skipped before it.
mutual

theorem value_distinctKeys (depth : Nat) (cs : List Char) :
    Ensures (value depth cs) fun r => r.1.DistinctKeys := by
  have hskip := skipBlanks_length cs
  rw [value]
  split
  · exact ensures_error
  · split
    · exact ensures_error
    · rename_i rest hrest _ depth
      exact (elements_distinctKeys depth true rest).bind fun r hr =>
        ensures_ok.2 (distinctKeys_list_iff.2 hr)
  · split
    · exact ensures_error
    · rename_i rest hrest _ depth
      exact (members_distinctKeys depth true rest distinctKeys_mapping_nil).bind fun r hr =>
        ensures_ok.2 hr
  · rename_i c rest _ _ _
    exact (scalar_isScalar c rest).bind fun r hr => ensures_ok.2 hr.distinctKeys
termination_by 2 * cs.length
decreasing_by all_goals simp_all; omega

theorem elements_distinctKeys (depth : Nat) (first : Bool) (cs : List Char) :
    Ensures (elements depth first cs) fun r => ∀ d ∈ r.1, d.DistinctKeys := by
  have hskip := skipBlanks_length cs
  rw [elements]
  split
  · exact ensures_error
  · exact ensures_ok.2 (List.forall_mem_nil _)
  · rename_i rest hrest
    split
    · exact ensures_error
    · split
      · exact ensures_error
      · refine (value_distinctKeys depth rest).bind fun ⟨item, after, hafter⟩ hitem => ?_
        refine (elements_distinctKeys depth false after).bind fun r hr => ?_
        exact ensures_ok.2 (List.forall_mem_cons.2 ⟨hitem, hr⟩)
  · rename_i c rest _ _ hrest
    split
    · refine (value_distinctKeys depth (c :: rest)).bind fun ⟨item, after, hafter⟩ hitem => ?_
      have hlt : after.length < cs.length := by
        rw [hrest] at hskip
        exact Nat.lt_of_lt_of_le hafter hskip
      refine (elements_distinctKeys depth false after).bind fun r hr => ?_
      exact ensures_ok.2 (List.forall_mem_cons.2 ⟨hitem, hr⟩)
    · exact ensures_error
termination_by 2 * cs.length + 1
decreasing_by all_goals simp_all <;> omega

theorem members_distinctKeys (depth : Nat) (first : Bool) {known : List (Data × Data)}
    (cs : List Char) (h : DistinctKeys (.mapping known)) :
    Ensures (members depth first known cs) fun r => DistinctKeys (.mapping r.1) := by
  have hskip := skipBlanks_length cs
  rw [members]
  split
  · exact ensures_error
  · exact ensures_ok.2 h
  · rename_i rest hrest
    split
    · exact ensures_error
    · have hskip' := skipBlanks_length rest
      split
      · rename_i tail htail
        exact (member_distinctKeys depth tail h).bind fun r hr => ensures_ok.2 hr
      · exact ensures_error
  · rename_i rest hrest
    split
    · exact (member_distinctKeys depth rest h).bind fun r hr => ensures_ok.2 hr
    · exact ensures_error
  · exact ensures_error
termination_by 2 * cs.length + 1
decreasing_by all_goals simp_all; omega

theorem member_distinctKeys (depth : Nat) {known : List (Data × Data)} (cs : List Char)
    (h : DistinctKeys (.mapping known)) :
    Ensures (member depth known cs) fun r => DistinctKeys (.mapping r.1) := by
  rw [member, ensures_bind]
  intro ⟨key, rest, hrest⟩ _
  have hskip := skipBlanks_length rest
  dsimp only
  cases hkey : hasKey known (.text key) with
  | true =>
    rw [if_pos rfl]
    split <;> exact ensures_error
  | false =>
    rw [if_neg Bool.false_ne_true]
    split
    · rename_i tail htail
      refine (value_distinctKeys depth tail).bind fun ⟨v, after, hafter⟩ hv => ?_
      have hknown : DistinctKeys (.mapping (known ++ [(.text key, v)])) :=
        distinctKeys_append_singleton.2 ⟨h, hkey, hv⟩
      exact (members_distinctKeys depth false after hknown).bind fun r hr => ensures_ok.2 hr
    · exact ensures_error
termination_by 2 * cs.length
decreasing_by all_goals simp_all; omega

end

theorem distinctKeys_of_read {s : String} {d : Data} (h : read s = .ok d) : DistinctKeys d := by
  unfold read at h
  split at h
  · rename_i hdocument
    cases h
    unfold document at hdocument
    split at hdocument
    · cases hdocument
    · rename_i hvalue
      split at hdocument
      · cases hdocument
        exact value_distinctKeys _ _ _ hvalue
      · cases hdocument
  · cases h

end Json

/-! ## YAML -/

namespace Yaml.Building

variable {α β : Type} {x : Building α} {f : α → Building β} {a : α} {P : α → Prop} {Q : β → Prop}
  {tag : Option String} {value : Building Data}

/-- What is built, whatever may be reused before, has the property. -/
def Builds (x : Building α) (P : α → Prop) : Prop := ∀ n, Ensures (x.run n) fun r => P r.1

theorem builds_pure (h : P a) : Builds (pure a) P := fun _ => ensures_ok.2 h

theorem builds_any : Builds x fun _ => True := fun _ _ _ => trivial

theorem builds_fault : Builds fault P := fun _ => ensures_error

theorem Builds.bind (hx : Builds x P) (hf : ∀ a, P a → Builds (f a) Q) : Builds (x >>= f) Q := by
  intro n
  rw [StateT.run_bind, ensures_bind]
  exact fun r hr => hf r.1 (hx n r hr) r.2

theorem Builds.map {g : α → β} (hx : Builds x P) (hg : ∀ a, P a → Q (g a)) : Builds (g <$> x) Q := by
  rw [← bind_pure_comp]
  exact hx.bind fun a ha => builds_pure (hg a ha)

theorem builds_tagged (h : Builds value DistinctKeys) : Builds (tagged tag value) DistinctKeys := by
  unfold tagged
  split
  · exact h
  · exact builds_fault
  · exact h.map fun _ => distinctKeys_tagged_iff.2

/-! ### Scalars -/

theorem isScalar_of_wholeMeaning {n : Int} {d : Data} (h : wholeMeaning n = some (.data d)) :
    d.IsScalar := by
  unfold wholeMeaning at h
  split at h
  · cases h
    trivial
  · split at h <;> cases h

theorem isScalar_of_plainMeaning {s : String} {d : Data} (h : plainMeaning s = .data d) :
    d.IsScalar := by
  unfold plainMeaning at h
  split at h
  · cases h
    trivial
  · split at h
    · cases h
      trivial
    · rename_i hwhole
      obtain ⟨n, -, hn⟩ := Option.bind_eq_some_iff.1 hwhole
      subst h
      exact isScalar_of_wholeMeaning hn
    · split at h <;> cases h <;> trivial

theorem isScalar_of_taggedMeaning {tag s : String} {d : Data}
    (h : taggedMeaning tag s = some (.data d)) : d.IsScalar := by
  unfold taggedMeaning at h
  split_ifs at h
  · obtain ⟨b, -, hb⟩ := Option.map_eq_some_iff.1 h
    cases hb
    trivial
  · obtain ⟨n, -, hn⟩ := Option.bind_eq_some_iff.1 h
    exact isScalar_of_wholeMeaning hn
  · obtain ⟨b, -, hb⟩ := Option.map_eq_some_iff.1 h
    cases hb
    trivial
  · cases h
    trivial
  · cases h
    trivial

theorem builds_meaning {m : Option Meaning} (h : ∀ d, m = some (.data d) → d.IsScalar) :
    Builds (meaning m) DistinctKeys := by
  unfold meaning
  split
  · exact builds_pure (h _ rfl).distinctKeys
  · exact builds_fault

theorem builds_scalar (tag : Option String) (text : String) (plain : Bool) :
    Builds (scalar tag text plain) DistinctKeys := by
  have hopen : Builds (meaning (some (if plain then plainMeaning text else .data (.text text))))
      DistinctKeys := by
    refine builds_meaning fun d hd => ?_
    rw [Option.some_inj] at hd
    split_ifs at hd
    · exact isScalar_of_plainMeaning hd
    · cases hd
      trivial
  unfold scalar
  split
  · exact hopen
  · split
    · exact builds_tagged hopen
    · exact builds_meaning fun d => isScalar_of_taggedMeaning

/-! ### Nodes -/

variable (anchored : List (Nat × Node))

mutual

theorem builds_node (depth : Nat) (n : Node) : Builds (node anchored depth n) DistinctKeys := by
  cases n with
  | scalar anchor tag text plain =>
    rw [node]
    exact builds_scalar tag text plain
  | sequence anchor tag ns =>
    rw [node]
    exact builds_tagged (builds_list depth ns)
  | mapping anchor tag es =>
    rw [node]
    exact builds_tagged (builds_mapping depth es)
  | reuse number =>
    rw [node]
    refine builds_any.bind fun _ _ => ?_
    split
    · exact builds_scalar _ _ _
    · exact builds_tagged (builds_list depth _)
    · exact builds_tagged (builds_mapping depth _)
    · exact builds_fault
  | fault =>
    rw [node]
    exact builds_fault
termination_by (depth, 1, 0)

theorem builds_list (depth : Nat) (ns : List Node) :
    Builds (list anchored depth ns) DistinctKeys := by
  cases depth with
  | zero =>
    rw [list]
    exact builds_fault
  | succ depth =>
    rw [list]
    exact (builds_items depth ns).map fun _ => distinctKeys_list_iff.2
termination_by (depth, 0, 0)

theorem builds_items (depth : Nat) (ns : List Node) :
    Builds (items anchored depth ns) fun ds => ∀ d ∈ ds, DistinctKeys d := by
  cases ns with
  | nil =>
    rw [items]
    exact builds_pure (List.forall_mem_nil _)
  | cons n ns =>
    rw [items]
    refine (builds_node depth n).bind fun d hd => ?_
    refine (builds_items depth ns).bind fun ds hds => ?_
    exact builds_pure (List.forall_mem_cons.2 ⟨hd, hds⟩)
termination_by (depth, 2, ns.length)

theorem builds_mapping (depth : Nat) (es : List (Node × Node)) :
    Builds (mapping anchored depth es) DistinctKeys := by
  cases depth with
  | zero =>
    rw [mapping]
    exact builds_fault
  | succ depth =>
    rw [mapping]
    exact (builds_entries depth [] es distinctKeys_mapping_nil).map fun _ h => h
termination_by (depth, 0, 0)

theorem builds_entries (depth : Nat) (known : List (Data × Data)) (es : List (Node × Node))
    (h : DistinctKeys (.mapping known.reverse)) :
    Builds (entries anchored depth known es) fun entries => DistinctKeys (.mapping entries) := by
  cases es with
  | nil =>
    rw [entries]
    exact builds_pure h
  | cons e es =>
    rw [entries]
    refine (builds_node depth e.1).bind fun key _ => ?_
    cases hkey : hasKey known key with
    | true => exact builds_fault
    | false =>
      refine (builds_node depth e.2).bind fun value hvalue => ?_
      refine builds_entries depth ((key, value) :: known) es ?_
      have hnew : hasKey known.reverse key = false := by rwa [hasKey, List.any_reverse]
      rw [List.reverse_cons, distinctKeys_append_singleton]
      exact ⟨h, hnew, hvalue⟩
termination_by (depth, 2, es.length)

end

end Yaml.Building

theorem Yaml.distinctKeys_of_read {s : String} {d : Data} (h : Yaml.read s = .ok d) :
    DistinctKeys d := by
  unfold Yaml.read at h
  dsimp only at h
  split at h
  · cases h
  · rename_i hnode
    split at h
    · cases h
      exact Building.builds_node _ _ _ _ _ hnode
    · cases h
    · cases h

/-! ## Texts -/

theorem distinctKeys_of_readData {text : String} {d : Data} (h : readData text = .ok d) :
    DistinctKeys d := by
  unfold readData at h
  split at h
  · split at h
    · rename_i hread
      cases h
      exact Json.distinctKeys_of_read hread
    · cases h
  · split at h
    · rename_i hread
      cases h
      exact Yaml.distinctKeys_of_read hread
    · cases h

end TypedClient
