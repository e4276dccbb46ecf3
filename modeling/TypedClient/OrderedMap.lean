/-! # Ordered maps

A map from names to values that remembers the order in which its names were first given. Giving a
name again changes its value and keeps its place.
-/

namespace TypedClient

/-- Entries in insertion order; no name occurs twice. -/
structure OrderedMap (α : Type) where
  entries : List (String × α)
  distinct : (entries.map Prod.fst).Nodup

namespace OrderedMap

variable {α β : Type}

def empty : OrderedMap α := ⟨[], List.nodup_nil⟩

instance : EmptyCollection (OrderedMap α) := ⟨empty⟩
instance : Inhabited (OrderedMap α) := ⟨empty⟩

def names (m : OrderedMap α) : List String := m.entries.map Prod.fst

def values (m : OrderedMap α) : List α := m.entries.map Prod.snd

def size (m : OrderedMap α) : Nat := m.entries.length

def isEmpty (m : OrderedMap α) : Bool := m.entries.isEmpty

def get? (m : OrderedMap α) (name : String) : Option α := m.entries.lookup name

def contains (m : OrderedMap α) (name : String) : Bool := m.names.contains name

/-- The place of a name in insertion order. -/
def position? (m : OrderedMap α) (name : String) : Option Nat := m.names.idxOf? name

/-! ## Insertion -/

/-- `entries` with the value of `name` replaced, if it is there. -/
def replaced (entries : List (String × α)) (name : String) (value : α) : List (String × α) :=
  entries.map fun e => if e.1 = name then (name, value) else e

@[simp] theorem names_replaced (entries : List (String × α)) (name : String) (value : α) :
    (replaced entries name value).map Prod.fst = entries.map Prod.fst := by
  induction entries with
  | nil => rfl
  | cons e es ih =>
    simp only [replaced, List.map_cons, List.cons.injEq]
    refine ⟨?_, ih⟩
    split <;> simp_all

/-- Gives `name` the value `value`: in place when the name is known, else at the end. -/
def insert (m : OrderedMap α) (name : String) (value : α) : OrderedMap α :=
  if h : name ∈ m.entries.map Prod.fst then
    ⟨replaced m.entries name value, by rw [names_replaced]; exact m.distinct⟩
  else
    ⟨m.entries ++ [(name, value)], by
      rw [List.map_append, List.nodup_append]
      refine ⟨m.distinct, by simp, ?_⟩
      intro a ha b hb
      simp only [List.map_cons, List.map_nil, List.mem_singleton] at hb
      subst hb
      intro hab
      exact h (hab ▸ ha)⟩

/-- An entry of the map with one more is the new one or was there before. -/
theorem mem_insert {m : OrderedMap α} {name : String} {value : α} {e : String × α}
    (h : e ∈ (m.insert name value).entries) : e = (name, value) ∨ e ∈ m.entries := by
  unfold insert at h
  split at h
  · obtain ⟨old, hold, rfl⟩ := List.mem_map.1 h
    split
    · exact .inl rfl
    · exact .inr hold
  · rcases List.mem_append.1 h with h | h
    · exact .inr h
    · exact .inl (List.mem_singleton.1 h)

def insertAll (m : OrderedMap α) (entries : List (String × α)) : OrderedMap α :=
  entries.foldl (fun m e => m.insert e.1 e.2) m

/-- A later value for a name wins and stands at the place of the first. -/
def ofList (entries : List (String × α)) : OrderedMap α := empty.insertAll entries

theorem mem_insertAll {m : OrderedMap α} {entries : List (String × α)} {e : String × α}
    (h : e ∈ (m.insertAll entries).entries) : e ∈ entries ∨ e ∈ m.entries := by
  induction entries generalizing m with
  | nil => exact .inr h
  | cons first rest ih =>
    rcases ih (m := m.insert first.1 first.2) h with h | h
    · exact .inl (List.mem_cons_of_mem _ h)
    · rcases mem_insert h with rfl | h
      · exact .inl List.mem_cons_self
      · exact .inr h

theorem mem_ofList {entries : List (String × α)} {e : String × α}
    (h : e ∈ (ofList entries).entries) : e ∈ entries :=
  (mem_insertAll h).resolve_right List.not_mem_nil

/-- Both maps, those of `m` first. -/
def append (m other : OrderedMap α) : OrderedMap α := m.insertAll other.entries

instance : Append (OrderedMap α) := ⟨append⟩

/-- The same names in the same order, each with a new value. -/
def map (f : String → α → β) (m : OrderedMap α) : OrderedMap β :=
  ⟨m.entries.map fun e => (e.1, f e.1 e.2), by
    rw [List.map_map]
    exact m.distinct⟩

end OrderedMap

end TypedClient
