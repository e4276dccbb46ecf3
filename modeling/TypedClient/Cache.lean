import TypedClient.Generation
import TypedClient.Text.Digest

/-! # Caching

What is made from texts, shared by several runs. An entry is kept under the key of its text and never
replaced, and failures are not kept.
-/

namespace TypedClient

/-- Entries under keys, in the order in which they were made. -/
structure TextCache (α : Type) where
  entries : List (UInt64 × α)
  /-- There is one entry for a key. -/
  distinct : (entries.map Prod.fst).Nodup

namespace TextCache

variable {α ε : Type} {m : Type → Type} [Monad m]

def empty : TextCache α := ⟨[], List.nodup_nil⟩

def size (c : TextCache α) : Nat := c.entries.length

def isEmpty (c : TextCache α) : Bool := c.entries.isEmpty

/-- The key of a text. Two texts share one if they have the same digest. -/
def key (text : String) : UInt64 := Text.digest text

/-- The entry under a key. -/
def entry? (c : TextCache α) (k : UInt64) : Option α := c.entries.lookup k

def get? (c : TextCache α) (text : String) : Option α := c.entry? (key text)

theorem not_mem_of_get?_eq_none {c : TextCache α} {text : String} (h : c.get? text = none) :
    key text ∉ c.entries.map Prod.fst := by
  rw [get?, entry?, List.lookup_eq_none_iff] at h
  intro hmem
  obtain ⟨e, he, hkey⟩ := List.mem_map.1 hmem
  exact absurd hkey.symm (by simpa using h e he)

/-- Keeps `a` for a text that has no entry; the entry for the text after that. -/
def insertNew (c : TextCache α) (text : String) (a : α) : α × TextCache α :=
  match h : c.get? text with
  | some known => (known, c)
  | none       =>
    (a, {
      entries := c.entries ++ [(key text, a)]
      distinct := by
        rw [List.map_append, List.nodup_append]
        refine ⟨c.distinct, by simp, ?_⟩
        rintro k hk _ hnew rfl
        obtain rfl : k = key text := by simpa using hnew
        exact not_mem_of_get?_eq_none h hk })

/-- Keeps what a text is resolved to; the entry for the text after that. A failure is not kept. -/
def keep (c : TextCache α) (text : String) : Except ε α → Except ε α × TextCache α
  | .error e => (.error e, c)
  | .ok a    =>
    let (entry, c) := c.insertNew text a
    (.ok entry, c)

/-- The entry for a text. Only when there is none, `resolve` is asked for one. -/
def getOrResolveM (c : TextCache α) (text : String) (resolve : Unit → m (Except ε α)) :
    m (Except ε α × TextCache α) :=
  match c.get? text with
  | some known => pure (.ok known, c)
  | none       => return c.keep text (← resolve ())

def getOrResolve (c : TextCache α) (text : String) (resolve : Unit → Except ε α) :
    Except ε α × TextCache α :=
  Id.run (c.getOrResolveM text fun u => pure (resolve u))

end TextCache

/-- Documents that are loaded and resolved. -/
abbrev Cache := TextCache Resolved

namespace Cache

variable {m : Type → Type} [Monad m]

/-- Generates from a text by way of the cache, which `resolve` fills. -/
def generateM (c : Cache) (resolve : String → m (Except Failure Resolved)) (s : Settings)
    (text : String) : m (Except Failure Generation × Cache) := do
  let (resolved, c) ← c.getOrResolveM text fun _ => resolve text
  pure (resolved.bind s.generateFrom, c)

/-- Generates from a text by way of the cache. -/
def generate (c : Cache) (s : Settings) (text : String) : Except Failure Generation × Cache :=
  Id.run (c.generateM (fun text => pure (Resolved.ofText text)) s text)

end Cache

end TypedClient
