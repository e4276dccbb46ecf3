import TypedClient.Source.Layout
import TypedClient.Source.Literal
import TypedClient.Source.Syntax
import TypedClient.Text.Blank

/-! # Printing the generated source

The layout of each form of syntax.
-/

namespace TypedClient.Source

open Layout (step soft softOut space spaceOut hard never lines listed commaItems totalWidth)

/-! ## Types -/

mutual

def TypeExpr.layout : TypeExpr → List Layout
  | .named path []        => [.text path]
  | .named path arguments => .text path :: listed step "<" ">" (typeLayouts arguments)
  | .borrowed t           => .text "&" :: t.layout
  | .tuple items          => listed step "(" ")" (typeLayouts items)

def typeLayouts : List TypeExpr → List (List Layout)
  | []      => []
  | t :: ts => t.layout :: typeLayouts ts

end

/-! ## Expressions -/

namespace Expr

/-- Whether an expression is a name no longer than one step of indentation. -/
def isShortName : Expr → Bool
  | .word text => text.length ≤ 4 && text.toList.all fun c => c.isAlphanum || c == '_'
  | _          => false

/-- Whether an expression, as a sole argument, stands directly between the parentheses. -/
def isBlockLike : Expr → Bool
  | .tuple _       => true
  | .construct _ _ => true
  | .closure _     => true
  | .cases _ _     => true
  | _              => false

/-- Whether an opening brace after an expression goes to a line of its own when the expression is
broken. -/
def mayBreak : Expr → Bool
  | .field _ _    => true
  | .method _ _ _ => true
  | .borrow e     => e.mayBreak
  | .negate e     => e.mayBreak
  | .propagate e  => e.mayBreak
  | _             => false

/-- The widest record that stays on one line. -/
def recordWidth : Nat := 34

/-- The place before a dot; there is none after a short name that begins a line. -/
def dot (first : Bool) (e : Expr) : List Layout :=
  if first && e.isShortName then [] else [soft]

mutual

/-- The layout of an argument of a macro: a line may be broken before each dot, and only where it
must be. -/
def inMacro : Expr → List Layout
  | .word text       => [.text text]
  | .field e name    => inMacro e ++ [soft, .text ("." ++ name)]
  | .method e name arguments =>
    inMacro e ++ [soft, .text ("." ++ name ++ "(")] ++ allInMacro arguments ++ [.text ")"]
  | e                => e.layout false
termination_by e => 4 * sizeOf e + 2

def allInMacro : List Expr → List Layout
  | []      => []
  | [e]     => inMacro e
  | e :: es => inMacro e ++ [.text ",", space] ++ allInMacro es
termination_by es => 4 * sizeOf es

/-- The layout of an expression; `first` if it begins a line. -/
def layout (first : Bool) : Expr → List Layout
  | .word text         => [.text text]
  | .closure text      => [.text text]
  | .field e name      =>
    [.group step true (chain first e ++ dot first e ++ [.text ("." ++ name)])]
  | .method e name arguments =>
    let indent := if first && e.isShortName then -step else 0
    [.group step true (chain first e ++ dot first e ++ [.text ("." ++ name),
      .group indent true (argumentLayout arguments)])]
  | .propagate e       => [.group step true (chain first e ++ [.text "?"])]
  | .call path arguments => .text path :: argumentLayout arguments
  | .invoke name arguments =>
    [.text (name ++ "!("),
      .group step true [soft, .group 0 false (allInMacro arguments), softOut], .text ")"]
  | .borrow e          => .text "&" :: e.layout false
  | .negate e          => .text "!" :: e.layout false
  | .tuple items       => listed step "(" ")" (layouts items)
  | .construct name fields =>
    let body := [.group (-step) false [.text name], .text " \x7b"] ++ fieldLayouts true fields
    [.group step true (if recordWidth < totalWidth body then body ++ [.unfit] else body),
      .text "\x7d"]
  | .cases subject arms =>
    [.group 0 false ([.text "match "]
      ++ [.group 0 true (subject.layout false ++ [if subject.mayBreak then space else .text " "])]
      ++ [.text "\x7b", .group step true (lines (arms.map fun a => [.text a])), .text "\x7d"])]
termination_by e => 4 * sizeOf e + 1

/-- The layout of what stands before a dot. -/
def chain (first : Bool) : Expr → List Layout
  | .field e name      => chain first e ++ dot first e ++ [.text ("." ++ name)]
  | .method e name arguments =>
    chain first e ++ dot first e
      ++ [.text ("." ++ name), .group 0 true (argumentLayout arguments)]
  | .propagate e       => chain first e ++ [.text "?"]
  | .call path arguments => .group (-step) true [.text path] :: argumentLayout arguments
  | e                  => [.group (-step) true (e.layout false)]
termination_by e => 4 * sizeOf e + 2

def argumentLayout (arguments : List Expr) : List Layout :=
  match arguments with
  | [e] =>
    let inner := e.layout false
    if e.isBlockLike then [.text "("] ++ inner ++ [.text ")"] else listed step "(" ")" [inner]
  | es  => listed step "(" ")" (layouts es)
termination_by 4 * sizeOf arguments + 1

def layouts : List Expr → List (List Layout)
  | []      => []
  | e :: es => e.layout false :: layouts es
termination_by es => 4 * sizeOf es

/-- The fields of a record, each after a blank; `start` before the first one. -/
def fieldLayouts (start : Bool) : List (String × Option Expr) → List Layout
  | [] => if start then [] else [.line { blanks := 1, offset := -step, ending := "," }]
  | (name, value) :: rest =>
    (if start then [space] else [.text ",", space])
      ++ .text name :: fieldValue value ++ fieldLayouts false rest
termination_by fields => 4 * sizeOf fields

def fieldValue : Option Expr → List Layout
  | some e => [.text ": ", .group 0 false (e.layout false)]
  | none   => []
termination_by value => 4 * sizeOf value

end

end Expr

/-! ## Statements -/

/-- A condition and the blank or line break after it, at the indentation of the statement. -/
def Condition.layout (c : Condition) : List Layout :=
  let (e, test) := match c with
    | .holds e           => (e, e.layout false)
    | .matched pattern e => (e,
      [.group 0 false [.text "let ", .group 0 false [.text pattern], .text " = ", never,
        .group 0 false (e.layout false)]])
  [.group (-step) true [.group 0 true (test ++ [if e.mayBreak then space else .text " "])]]

/-- A block that holds a single expression. -/
def smallBlock (e : Expr) : List Layout :=
  [.text "\x7b", space, .group 0 false (e.layout true), spaceOut, .text "\x7d"]

mutual

def Statement.layout : Statement → List Layout
  | .line text          => [.text text]
  | .bind pattern value =>
    [.group 0 false ([.text "let ", .text pattern, .text " = ", never] ++ value.layout false
      ++ [.text ";"])]
  | .run e              => [.group 0 false (e.layout true ++ [.text ";"])]
  | .result e           => [.group 0 false (e.layout true)]
  | .when condition body =>
    [.group 0 false [.group step true
      ([.text "if "] ++ condition.layout ++ [.text "\x7b"] ++ lines (statementLayouts body)
        ++ [.text "\x7d"])]]
  | .choose condition yes no =>
    [.group 0 false [.group step true
      ([.text "if "] ++ (Condition.holds condition).layout ++ smallBlock yes ++ [.text " else "]
        ++ smallBlock no)]]

def statementLayouts : List Statement → List (List Layout)
  | []      => []
  | s :: ss => s.layout :: statementLayouts ss

end

/-! ## Attributes -/

/-- Whether a text stays within a block comment: its own comments are closed in the right order. -/
def isBlockComment (depth : Nat) : List Char → Bool
  | '/' :: '*' :: cs => isBlockComment (depth + 1) cs
  | '*' :: '/' :: cs => if depth = 0 then false else isBlockComment (depth - 1) cs
  | _ :: cs          => isBlockComment depth cs
  | []               => depth = 0

def dropTrailingSpaces (cs : List Char) : List Char := Text.dropTrailing (· == ' ') cs

/-- The text without blanks at the ends of all lines but the last. -/
def dropInteriorSpaces (cs : List Char) : List Char :=
  let parts := cs.splitOn '\n'
  ['\n'].intercalate (parts.dropLast.map dropTrailingSpaces ++ parts.getLast?.toList)

/-- A text as documentation: a line comment, a block comment when it has several lines, or the
attribute itself when a comment cannot hold it. -/
def docText (s : String) : String :=
  let cs := s.toList
  if !cs.contains '\n' && cs.head? != some '/' then
    "///" ++ String.ofList (dropTrailingSpaces cs)
  else if isBlockComment 0 cs && cs.head? != some '*' && cs.head? != some '/' then
    "/**" ++ String.ofList (dropInteriorSpaces cs) ++ "*/"
  else "#[doc = " ++ literal s ++ "]"

def Attribute.layout : Attribute → List Layout
  | .doc s                  => [.text (docText s), hard]
  | .plain text             => [.text ("#[" ++ text ++ "]"), hard]
  | .applied name arguments =>
    let items := arguments.map fun a => [Layout.text a]
    [.text ("#[" ++ name ++ "("),
      .group step true (soft :: [.text ",", space].intercalate items ++ [softOut]),
      .text ")]", hard]

/-! ## Items -/

def attributeLayouts (attributes : List Attribute) : List Layout :=
  attributes.flatMap (·.layout)

def visibility (isPublic : Bool) : String := if isPublic then "pub " else ""

/-- The type parameter with its bound. -/
def boundLayout : Option Bound → List Layout
  | none   => []
  | some b =>
    listed 0 "<" ">" [[.text b.name, .group step false [.text ": ", .text b.trait]]]

/-- Lines in braces; `head` stands before them. -/
def braces (head : List Layout) (body : List (List Layout)) : List Layout :=
  [.group step true (head ++ [.text " ", .text "\x7b"] ++ lines body), .text "\x7d"]

def Function.layout (f : Function) : List Layout :=
  let parameters := f.receiver.toList.map (fun r => [Layout.text r])
    ++ f.parameters.map fun p => .text (p.name ++ ": ") :: p.type.layout
  let head :=
    [.text (visibility f.isPublic ++ "fn " ++ f.name), .text "(", never]
      ++ (if parameters.isEmpty then [] else [.group 0 true (soft :: commaItems parameters)])
      ++ [.text ")", .group (-step) true (.text " -> " :: f.returns.layout)]
  attributeLayouts f.attributes ++ braces head (statementLayouts f.body)

def RecordField.layout (f : RecordField) : List Layout :=
  attributeLayouts f.attributes
    ++ .text (visibility f.isPublic ++ f.name ++ ": ") :: f.type.layout ++ [.text ","]

def Record.layout (r : Record) : List Layout :=
  attributeLayouts r.attributes
    ++ braces (.text ("pub struct " ++ r.name) :: boundLayout r.bound)
      (r.fields.map (·.layout))

def Implementation.layout (i : Implementation) : List Layout :=
  let target := match i.trait with
    | some t => [.text t, space, .text "for "] ++ i.type.layout
    | none   => i.type.layout
  braces
    [.group (-step) false
      ([.group step true (.text "impl" :: boundLayout i.bound), .text " "] ++ target)]
    (i.functions.map (·.layout))

def Item.layout : Item → List Layout
  | .constant attributes name text =>
    attributeLayouts attributes
      ++ [.group 0 true [.text ("pub const " ++ name ++ ": &str = "), never,
        .text (literal text ++ ";")]]
  | .record r         => r.layout
  | .implementation i => i.layout

/-- The text of items, each beginning on a line of its own. -/
def printItems (items : List Item) : String :=
  Layout.render (items.flatMap fun i => i.layout ++ [hard])

end TypedClient.Source
