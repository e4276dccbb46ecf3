import TypedClient.Source.ClientCode

/-!
# Names that code declares and uses

The types and functions that the source declares at its top level, and, for a function, the variables
of its body and the functions that the body calls. Code that is kept as text is read for them.
-/

namespace TypedClient.Source

/-! ## Declarations -/

/-- The word that follows a keyword at the beginning of a text. -/
def wordAfter? (keyword text : String) : Option String :=
  (keyword.toList.isPrefixOf? text.toList).map fun rest =>
    String.ofList (rest.takeWhile fun c => c.isAlphanum || c == '_')

namespace Code

/-- The head of a block. -/
def head? : Code → Option String
  | .line _       => none
  | .block head _ => some head

/-- The type or trait that a block declares. -/
def typeName? (c : Code) : Option String :=
  c.head?.bind fun head =>
    ["pub struct ", "pub enum ", "pub trait "].findSome? (wordAfter? · head)

def functionName? (c : Code) : Option String := c.head?.bind (wordAfter? "pub fn ")

end Code

namespace Support

def typeNames : List String := code.filterMap Code.typeName?

def functionNames : List String := code.filterMap Code.functionName?

theorem typeNames_eq :
    typeNames = ["TransportError", "ClientError", "Transport", "RenderValue", "ToParam"] := by
  decide

theorem functionNames_eq : functionNames = ["encode_path_segment"] := by
  decide

end Support

def Item.typeName? : Item → Option String
  | .record r         => some r.name
  | .constant _ _ _   => none
  | .implementation _ => none

/-! ## Code that is kept as text -/

/-- Whether a character may be within a path. -/
def isPathChar (c : Char) : Bool := c.isAlphanum || c == '_' || c == ':' || c == '.'

/-- The variables of a pattern, which ends before a type or an arrow. Other words in it begin with a
capital, but for one keyword. -/
def patternNames (pattern : String) : List String :=
  let words := (pattern.toList.takeWhile fun c => c != ':' && c != '=').splitOnP
    fun c => !(c.isAlphanum || c == '_')
  (words.filter fun w => w.head?.any (·.isLower) && w != "mut".toList).map String.ofList

/-- The functions called in a text: what stands before each opening parenthesis. -/
def calledIn (text : String) : List String :=
  (text.toList.splitOn '(').dropLast.map fun cs =>
    String.ofList (cs.reverse.takeWhile isPathChar).reverse

/-! ## Expressions -/

namespace Expr

mutual

/-- The expression and all expressions in it. -/
def parts : Expr → List Expr
  | .word text                      => [.word text]
  | .closure text                   => [.closure text]
  | .field owner name               => .field owner name :: owner.parts
  | .call path arguments            => .call path arguments :: allParts arguments
  | .method receiver name arguments =>
    .method receiver name arguments :: receiver.parts ++ allParts arguments
  | .invoke name arguments          => .invoke name arguments :: allParts arguments
  | .borrow e                       => .borrow e :: e.parts
  | .negate e                       => .negate e :: e.parts
  | .propagate e                    => .propagate e :: e.parts
  | .tuple items                    => .tuple items :: allParts items
  | .construct name fields          => .construct name fields :: fieldParts fields
  | .cases subject arms             => .cases subject arms :: subject.parts
termination_by e => 4 * sizeOf e

def allParts : List Expr → List Expr
  | []      => []
  | e :: es => e.parts ++ allParts es
termination_by es => 4 * sizeOf es

def fieldParts : List (String × Option Expr) → List Expr
  | []                     => []
  | (_, none) :: fields    => fieldParts fields
  | (_, some e) :: fields  => e.parts ++ fieldParts fields
termination_by fields => 4 * sizeOf fields

end

/-- The variables that an expression itself binds. -/
def binds : Expr → List String
  | .cases _ arms => arms.flatMap patternNames
  | .closure text => patternNames (String.ofList ((text.toList.drop 1).takeWhile (· ≠ '|')))
  | _             => []

/-- The functions that an expression itself calls. -/
def calls : Expr → List String
  | .call path _  => [path]
  | .cases _ arms => arms.flatMap calledIn
  | .closure text => calledIn text
  | _             => []

attribute [simp] parts binds calls

/-- The variables that are bound within an expression. -/
def locals (e : Expr) : List String := e.parts.flatMap binds

/-- The functions that are called within an expression. -/
def callees (e : Expr) : List String := e.parts.flatMap calls

variable {e : Expr} {es : List Expr} {text path name : String} {arms : List String}

theorem flatMap_allParts (f : Expr → List String) (es : List Expr) :
    (allParts es).flatMap f = es.flatMap fun e => e.parts.flatMap f := by
  induction es with
  | nil => rw [allParts, List.flatMap_nil, List.flatMap_nil]
  | cons e es ih => rw [allParts, List.flatMap_append, List.flatMap_cons, ih]

@[simp] theorem flatMap_locals (es : List Expr) : (allParts es).flatMap binds = es.flatMap locals :=
  flatMap_allParts _ _

@[simp] theorem flatMap_callees (es : List Expr) :
    (allParts es).flatMap calls = es.flatMap callees :=
  flatMap_allParts _ _

@[simp] theorem locals_word : (word text).locals = [] := by
  simp [locals]

@[simp] theorem locals_field : (field e name).locals = e.locals := by
  simp [locals]

@[simp] theorem locals_call : (call path es).locals = es.flatMap locals := by
  simp [locals]

@[simp] theorem locals_method : (method e name es).locals = e.locals ++ es.flatMap locals := by
  simp [locals]

@[simp] theorem locals_invoke : (invoke name es).locals = es.flatMap locals := by
  simp [locals]

@[simp] theorem locals_borrow : (borrow e).locals = e.locals := by
  simp [locals]

@[simp] theorem locals_propagate : (propagate e).locals = e.locals := by
  simp [locals]

@[simp] theorem locals_tuple : (tuple es).locals = es.flatMap locals := by
  simp [locals]

@[simp] theorem locals_cases : (cases e arms).locals = arms.flatMap patternNames ++ e.locals := by
  simp [locals]

@[simp] theorem callees_word : (word text).callees = [] := by
  simp [callees]

@[simp] theorem callees_field : (field e name).callees = e.callees := by
  simp [callees]

@[simp] theorem callees_call : (call path es).callees = path :: es.flatMap callees := by
  simp [callees]

@[simp] theorem callees_method : (method e name es).callees = e.callees ++ es.flatMap callees := by
  simp [callees]

@[simp] theorem callees_invoke : (invoke name es).callees = es.flatMap callees := by
  simp [callees]

@[simp] theorem callees_borrow : (borrow e).callees = e.callees := by
  simp [callees]

@[simp] theorem callees_propagate : (propagate e).callees = e.callees := by
  simp [callees]

@[simp] theorem callees_tuple : (tuple es).callees = es.flatMap callees := by
  simp [callees]

@[simp] theorem callees_cases : (cases e arms).callees = arms.flatMap calledIn ++ e.callees := by
  simp [callees]

end Expr

/-! ## Statements -/

namespace Statement

mutual

/-- The statement and all statements in it. -/
def parts : Statement → List Statement
  | .when condition body => .when condition body :: allParts body
  | s                    => [s]

def allParts : List Statement → List Statement
  | []      => []
  | s :: ss => s.parts ++ allParts ss

end

/-- The variables that a statement itself binds. -/
def binds : Statement → List String
  | .bind pattern _             => patternNames pattern
  | .when (.matched pattern _) _ => patternNames pattern
  | _                           => []

def calls : Statement → List String
  | .line text => calledIn text
  | _          => []

/-- The expressions of a statement, without those of the statements in it. -/
def expressions : Statement → List Expr
  | .line _                => []
  | .bind _ value          => [value]
  | .run e                 => [e]
  | .result e              => [e]
  | .when (.holds e) _     => [e]
  | .when (.matched _ e) _ => [e]
  | .choose condition yes no => [condition, yes, no]

attribute [simp] parts binds calls expressions

/-- The variables that a statement binds, without those of the statements in it. -/
def ownLocals (s : Statement) : List String := s.binds ++ s.expressions.flatMap Expr.locals

/-- The functions that a statement calls, without those of the statements in it. -/
def ownCallees (s : Statement) : List String := s.calls ++ s.expressions.flatMap Expr.callees

/-- The variables that a statement binds at any depth. -/
def locals (s : Statement) : List String := s.parts.flatMap ownLocals

/-- The functions that a statement calls at any depth. -/
def callees (s : Statement) : List String := s.parts.flatMap ownCallees

variable {s : Statement} {ss : List Statement} {e : Expr} {text pattern : String}
  {condition : Condition}

theorem flatMap_allParts (f : Statement → List String) (ss : List Statement) :
    (allParts ss).flatMap f = ss.flatMap fun s => s.parts.flatMap f := by
  induction ss with
  | nil => rfl
  | cons s ss ih => rw [allParts, List.flatMap_append, List.flatMap_cons, ih]

@[simp] theorem flatMap_locals (ss : List Statement) :
    (allParts ss).flatMap ownLocals = ss.flatMap locals :=
  flatMap_allParts _ _

@[simp] theorem flatMap_callees (ss : List Statement) :
    (allParts ss).flatMap ownCallees = ss.flatMap callees :=
  flatMap_allParts _ _

@[simp] theorem locals_bind : (bind pattern e).locals = patternNames pattern ++ e.locals := by
  simp [locals, ownLocals]

@[simp] theorem locals_run : (run e).locals = e.locals := by
  simp [locals, ownLocals]

@[simp] theorem locals_result : (result e).locals = e.locals := by
  simp [locals, ownLocals]

@[simp] theorem locals_line : (line text).locals = [] := by
  simp [locals, ownLocals]

@[simp] theorem locals_when_holds : (when (.holds e) ss).locals = e.locals ++ ss.flatMap locals := by
  simp [locals, ownLocals]

@[simp] theorem locals_when_matched : (when (.matched pattern e) ss).locals =
    patternNames pattern ++ e.locals ++ ss.flatMap locals := by
  simp [locals, ownLocals]

@[simp] theorem callees_bind : (bind pattern e).callees = e.callees := by
  simp [callees, ownCallees]

@[simp] theorem callees_run : (run e).callees = e.callees := by
  simp [callees, ownCallees]

@[simp] theorem callees_result : (result e).callees = e.callees := by
  simp [callees, ownCallees]

@[simp] theorem callees_line : (line text).callees = calledIn text := by
  simp [callees, ownCallees]

@[simp] theorem callees_when_holds :
    (when (.holds e) ss).callees = e.callees ++ ss.flatMap callees := by
  simp [callees, ownCallees]

@[simp] theorem callees_when_matched :
    (when (.matched pattern e) ss).callees = e.callees ++ ss.flatMap callees := by
  simp [callees, ownCallees]

end Statement

namespace Function

def locals (f : Function) : List String := f.body.flatMap Statement.locals

def callees (f : Function) : List String := f.body.flatMap Statement.callees

end Function

end TypedClient.Source
