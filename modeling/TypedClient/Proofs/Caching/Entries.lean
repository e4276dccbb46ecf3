import TypedClient.Cache
import TypedClient.Proofs.OrderedMap

/-!
# Entries of a cache

There is one entry for a key, and an insertion adds an entry where there is none. So what is found under
a key is found there ever after.
-/

namespace TypedClient.TextCache

variable {α ε : Type} {c c' c'' : TextCache α} {text : String} {k : UInt64} {a e : α}

theorem entry?_eq_some_iff : c.entry? k = some a ↔ (k, a) ∈ c.entries :=
  ⟨OrderedMap.mem_of_lookup_eq_some, OrderedMap.lookup_of_mem c.distinct⟩

theorem get?_eq_some_iff : c.get? text = some a ↔ (key text, a) ∈ c.entries := entry?_eq_some_iff

/-- All that is found in `c` is found in `c'`. -/
def Keeps (c c' : TextCache α) : Prop := ∀ k e, c.entry? k = some e → c'.entry? k = some e

theorem Keeps.refl (c : TextCache α) : c.Keeps c := fun _ _ h => h

theorem Keeps.trans (h : c.Keeps c') (h' : c'.Keeps c'') : c.Keeps c'' :=
  fun k e he => h' k e (h k e he)

/-! ## Insertion -/

theorem insertNew_of_some (h : c.get? text = some e) (a : α) : c.insertNew text a = (e, c) := by
  unfold insertNew
  split
  · rename_i known hknown
    cases hknown.symm.trans h
    rfl
  · rename_i hnone
    cases hnone.symm.trans h

theorem insertNew_of_none (h : c.get? text = none) (a : α) :
    (c.insertNew text a).1 = a ∧ (c.insertNew text a).2.entries = c.entries ++ [(key text, a)] := by
  unfold insertNew
  split
  · rename_i hsome
    cases hsome.symm.trans h
  · exact ⟨rfl, rfl⟩

theorem keeps_insertNew (c : TextCache α) (text : String) (a : α) :
    c.Keeps (c.insertNew text a).2 := by
  cases h : c.get? text with
  | some e =>
    rw [insertNew_of_some h]
    exact .refl c
  | none =>
    intro k e he
    rw [entry?_eq_some_iff] at he ⊢
    rw [(insertNew_of_none h a).2]
    exact List.mem_append_left _ he

/-- What an insertion gives back is found under the text from then on. -/
theorem get?_insertNew (c : TextCache α) (text : String) (a : α) :
    (c.insertNew text a).2.get? text = some (c.insertNew text a).1 := by
  cases h : c.get? text with
  | some e => rw [insertNew_of_some h, h]
  | none =>
    obtain ⟨hentry, hentries⟩ := insertNew_of_none h a
    rw [get?_eq_some_iff, hentries, hentry]
    exact List.mem_append_right _ (List.mem_singleton_self _)

/-! ## Resolving -/

theorem keep_error (c : TextCache α) (text : String) (e : ε) : c.keep text (.error e) = (.error e, c) :=
  rfl

theorem keep_ok (c : TextCache α) (text : String) (a : α) :
    c.keep text (.ok a : Except ε α) = (.ok (c.insertNew text a).1, (c.insertNew text a).2) :=
  rfl

section Resolve

variable {m : Type → Type} [Monad m] {resolve : Unit → m (Except ε α)}

/-- Nothing is resolved where there is an entry. -/
theorem getOrResolveM_of_some (h : c.get? text = some e) :
    c.getOrResolveM text resolve = pure (.ok e, c) := by
  rw [getOrResolveM, h]

theorem getOrResolveM_of_none (h : c.get? text = none) :
    c.getOrResolveM text resolve = (return c.keep text (← resolve ())) := by
  rw [getOrResolveM, h]

end Resolve

end TypedClient.TextCache
