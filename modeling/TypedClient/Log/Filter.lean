import TypedClient.Log.Event
import TypedClient.Text.Alphanumeric

/-! # Log filters

Which events are shown. A filter is a list of directives such as `info`, `part=debug` or
`[span]=trace`; for an event the directive that fits it most closely decides.
-/

namespace TypedClient.Log

/-- A field that a directive asks for, with the value it must have. -/
structure FieldTest where
  name : String
  value : Option String
  deriving DecidableEq, Repr

structure Directive where
  /-- What the source of an event begins with. -/
  source : Option String := none
  /-- The name of the span that an event is in. -/
  span : Option String := none
  field : Option FieldTest := none
  /-- The highest rank that is shown; nothing is shown at rank zero. -/
  rank : Nat
  deriving DecidableEq, Repr

/-- Splits at the first character in `p`. -/
def cut (p : Char → Bool) (cs : List Char) : List Char × List Char :=
  (cs.takeWhile (!p ·), cs.dropWhile (!p ·))

/-- A name, and a value after an equals sign. -/
def FieldTest.ofChars (cs : List Char) : FieldTest :=
  let (name, rest) := cut (· == '=') cs
  { name := String.ofList name
    value := if rest.isEmpty then none
      else some (String.ofList (cut (· == '=') (rest.drop 1)).1) }

namespace Directive

/-- The rank of a level by its name or number. -/
def rank? (s : String) : Option Nat :=
  match s.toLower with
  | "off"   => some 0
  | "0"     => some 0
  | "error" => some 1
  | "1"     => some 1
  | "warn"  => some 2
  | "2"     => some 2
  | "info"  => some 3
  | "3"     => some 3
  | "debug" => some 4
  | "4"     => some 4
  | "trace" => some 5
  | "5"     => some 5
  | _       => none

/-- Shows all events. -/
def fullRank : Nat := 5

/-- Sets the rank from what stands after the equals sign. -/
def withLevel (d : Directive) (level : List Char) : Option Directive :=
  if level.isEmpty then some { d with rank := fullRank }
  else (rank? (String.ofList level)).map fun rank => { d with rank }

/-- What may follow the part in brackets. -/
def afterSpan (d : Directive) : List Char → Option Directive
  | []          => some d
  | '=' :: rest => d.withLevel rest
  | _           => none

/-- The part in brackets, after the opening one. -/
def spanPart (d : Directive) (cs : List Char) : Option Directive :=
  let (name, rest) := cut (fun c => c == ']' || c == '\x7b') cs
  let name := String.ofList name
  match rest with
  | ']' :: rest    => afterSpan { d with span := some name } rest
  | '\x7b' :: rest =>
    let (field, rest) := cut (· == '\x7d') rest
    let d := { d with
      span := if name.isEmpty then none else some name
      field := some (FieldTest.ofChars field) }
    match field, rest with
    | [], _                     => none
    | _, '\x7d' :: ']' :: rest => d.afterSpan rest
    | _, _                      => none
  | _              => none

/-- Reads a directive. A word alone is a level, or else a source of which all is shown. -/
def ofText? (s : String) : Option Directive :=
  let all : Directive := { rank := fullRank }
  match s.toList with
  | []          => some all
  | '[' :: rest => spanPart all rest
  | c :: cs     =>
    if !(c == '-' || c == ':' || c == '_' || Text.isAlphanumeric c) then none
    else
      let (word, rest) := cut (fun c => c == '=' || c == '[') (c :: cs)
      let word := String.ofList word
      match rest with
      | '=' :: level => { all with source := some word }.withLevel level
      | '[' :: rest  => spanPart { all with source := some word } rest
      | _            =>
        match rank? word with
        | some rank => some { rank }
        | none      => some { all with source := some word }

/-- Whether a directive is about the spans that events are in. -/
def isAboutSpans (d : Directive) : Bool := d.span.isSome || d.field.isSome

/-- Whether a directive is about single events. -/
def isAboutEvents (d : Directive) : Bool :=
  d.span.isNone && d.field.all (·.value.isNone)

def fitsSource (d : Directive) (source : String) : Bool :=
  d.source.all fun s => source.startsWith s

/-- How closely a directive fits what it fits: by the length of its source, and then by whether it asks
for a field. -/
def closeness (d : Directive) : Nat :=
  2 * ((d.source.map fun s => s.utf8ByteSize + 1).getD 0) + if d.field.isSome then 1 else 0

/-- Of two directives that fit, the closer one; of equally close ones the second, unless the first one
asks for a field that comes later in the alphabet. -/
def closer (a b : Directive) : Directive :=
  if a.closeness = b.closeness then
    if (b.field.map (·.name)).getD "" < (a.field.map (·.name)).getD "" then a else b
  else if a.closeness < b.closeness then b else a

end Directive

structure Filter where
  directives : List Directive
  deriving DecidableEq, Repr

namespace Filter

/-- A filter that shows what is at least as important as a level. -/
def ofLevel (l : Level) : Filter := ⟨[{ rank := l.rank }]⟩

/-- Reads directives with commas between them. Without any, only errors are shown. -/
def ofText? (s : String) : Option Filter := do
  let texts := (s.splitOn ",").filter (!·.isEmpty)
  let directives ← texts.mapM Directive.ofText?
  if directives.isEmpty then ofLevel .error else some ⟨directives⟩

/-- Reads a filter; what cannot be read counts as the level of information. -/
def ofText (s : String) : Filter := (ofText? s).getD (ofLevel .info)

/-- The rank up to which the directives that fit show something. -/
def rankOf (f : Filter) (fits : Directive → Bool) : Nat :=
  match f.directives.filter fun d => d.isAboutEvents && fits d with
  | []      => 0
  | d :: ds => (ds.foldl Directive.closer d).rank

/-- The directives about spans that fit a span. -/
def aboutSpan (f : Filter) (s : Span) : List Directive :=
  f.directives.filter fun d =>
    d.isAboutSpans && d.fitsSource Span.source && d.span.all (· == s.name)
      && d.field.all fun t => s.fields.any (·.1 == t.name)

/-- Whether a span is shown with the events in it. -/
def showsSpan (f : Filter) (s : Span) : Bool :=
  !(f.aboutSpan s).isEmpty || Span.level.rank ≤ f.rankOf (·.fitsSource Span.source)

/-- Whether the span that an event is in makes it shown. -/
def showsWithin (f : Filter) (s : Span) (e : Event) : Bool :=
  (f.aboutSpan s).any fun d =>
    e.level.rank ≤ d.rank && d.field.all fun t =>
      t.value.all fun v => s.fields.any (· == (t.name, v))

/-- Whether an event is shown by itself. -/
def showsEvent (f : Filter) (e : Event) : Bool :=
  e.level.rank ≤ f.rankOf fun d =>
    d.fitsSource e.source && d.field.all fun t =>
      t.name == "message" || e.fields.any (·.1 == t.name)

/-- The line for an entry, if it is shown. -/
def line? (f : Filter) (e : Entry) : Option String :=
  if e.span.any (f.showsWithin · e.event) || f.showsEvent e.event then
    some (e.event.line (e.span.filter f.showsSpan))
  else none

/-- The lines that are shown. -/
def lines (f : Filter) (es : List Entry) : List String := es.filterMap f.line?

end Filter

end TypedClient.Log
