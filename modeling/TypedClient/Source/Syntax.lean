/-! # Syntax of the generated source

The declarations, statements, expressions and types that generated source is made of. Paths,
literals and fixed lines are kept as text.
-/

namespace TypedClient.Source

inductive TypeExpr where
  /-- A type by its path, applied to arguments. -/
  | named (path : String) (arguments : List TypeExpr)
  | borrowed (t : TypeExpr)
  | tuple (items : List TypeExpr)

namespace TypeExpr

def plain (path : String) : TypeExpr := .named path []

def boxed (t : TypeExpr) : TypeExpr := .named "Box" [t]

def option (t : TypeExpr) : TypeExpr := .named "Option" [t]

def vector (t : TypeExpr) : TypeExpr := .named "Vec" [t]

def mapTo (t : TypeExpr) : TypeExpr :=
  .named "std::collections::BTreeMap" [plain "String", t]

def unit : TypeExpr := .tuple []

end TypeExpr

inductive Expr where
  /-- A path, a name or a literal. -/
  | word (text : String)
  | closure (text : String)
  | field (owner : Expr) (name : String)
  | call (path : String) (arguments : List Expr)
  | method (receiver : Expr) (name : String) (arguments : List Expr)
  /-- A macro applied to arguments. -/
  | invoke (name : String) (arguments : List Expr)
  | borrow (e : Expr)
  | negate (e : Expr)
  /-- The value of a result; a failure is returned. -/
  | propagate (e : Expr)
  | tuple (items : List Expr)
  /-- A record; a field without a value has that of the variable of its name. -/
  | construct (name : String) (fields : List (String × Option Expr))
  | cases (subject : Expr) (arms : List String)

inductive Condition where
  | holds (e : Expr)
  /-- The value has the form of a pattern. -/
  | matched (pattern : String) (e : Expr)

inductive Statement where
  | line (text : String)
  | bind (pattern : String) (value : Expr)
  | run (e : Expr)
  /-- The value of the block that the statement ends. -/
  | result (e : Expr)
  | when (condition : Condition) (body : List Statement)
  | choose (condition : Expr) (yes no : Expr)

inductive Attribute where
  | doc (text : String)
  | plain (text : String)
  | applied (name : String) (arguments : List String)

structure Parameter where
  name : String
  type : TypeExpr

structure Function where
  attributes : List Attribute
  isPublic : Bool
  name : String
  /-- The parameter for the value that a method is called on. -/
  receiver : Option String
  parameters : List Parameter
  returns : TypeExpr
  body : List Statement

structure RecordField where
  attributes : List Attribute
  isPublic : Bool
  name : String
  type : TypeExpr

/-- A bound on a type parameter: its name and the trait it has. -/
structure Bound where
  name : String
  trait : String

structure Record where
  attributes : List Attribute
  name : String
  bound : Option Bound
  fields : List RecordField

/-- The methods of a type, its own or those of a trait. -/
structure Implementation where
  bound : Option Bound
  trait : Option String
  type : TypeExpr
  functions : List Function

inductive Item where
  /-- A text constant. -/
  | constant (attributes : List Attribute) (name : String) (literal : String)
  | record (r : Record)
  | implementation (i : Implementation)

end TypedClient.Source
