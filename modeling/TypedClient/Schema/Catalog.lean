import TypedClient.FreshName
import TypedClient.Text.Casing
import TypedClient.Failure
import TypedClient.Schema.Document
import TypedClient.Schema.Reference

/-! # The catalog of definitions

Reading a document gathers its named schemas. An object schema written inline is hoisted: it
becomes a definition of its own under a name that no other schema has.
-/

namespace TypedClient.Schema

structure Catalog where
  /-- The named object schemas. -/
  declared : OrderedMap Definition
  /-- The inline object schemas. -/
  hoisted : OrderedMap Definition
  aliases : OrderedMap TypeRef
  /-- All names in use. -/
  taken : List String

namespace Catalog

/-- An empty catalog in which the names of the document's own schemas are taken. -/
def withNames (names : List String) : Catalog := ⟨∅, ∅, ∅, names⟩

/-- The name that a hoisted schema gets from its place, unless it is taken. -/
def hoistBase (place : String) : String :=
  let base := Text.upperCamel place
  match base.toList.head? with
  | some c => if c.isDigit then "Inline" ++ base else base
  | none   => "Inline"

/-- Takes a fresh name for a schema hoisted from `place`. -/
def claim (c : Catalog) (place : String) : String × Catalog :=
  let name := freshName c.taken (numbered (hoistBase place))
  (name, { c with taken := name :: c.taken })

def declare (c : Catalog) (d : Definition) : Catalog :=
  { c with declared := c.declared.insert d.name d }

def addAlias (c : Catalog) (name : String) (type : TypeRef) : Catalog :=
  { c with aliases := c.aliases.insert name type }

def hoist (c : Catalog) (d : Definition) : Catalog :=
  { c with hoisted := c.hoisted.insert d.name d }

/-- All definitions, the declared ones first. -/
def definitions (c : Catalog) : OrderedMap Definition := c.declared ++ c.hoisted

end Catalog

/-- A conversion of a document: it fills the catalog, also as far as it gets when it fails. -/
abbrev Conversion := ExceptT Failure (StateM Catalog)

namespace Conversion

def claim (place : String) : Conversion String := do
  let (name, catalog) := (← get).claim place
  set catalog
  pure name

def declare (d : Definition) : Conversion Unit := modify (·.declare d)

def addAlias (name : String) (type : TypeRef) : Conversion Unit :=
  modify (·.addAlias name type)

/-- Keeps a hoisted definition and refers to it. -/
def hoist (d : Definition) : Conversion TypeRef := do
  modify (·.hoist d)
  pure (.reference d.name)

/-- The entry that a reference leads to. -/
def target (kind : ReferenceKind) (reference : String) (place : Location) : Conversion String :=
  liftExcept (kind.target reference place)
where
  liftExcept {α : Type} : Except Failure α → Conversion α
    | .ok a    => pure a
    | .error e => throw e

end Conversion

end TypedClient.Schema
