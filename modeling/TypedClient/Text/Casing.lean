/-! # Word casing

A name is read as a list of words: every character that is not an ASCII letter or digit separates
words, and so does a change of case. Names are then written in upper camel case or in snake case.
-/

namespace TypedClient.Text

/-- What the letters of the current word have been so far; digits leave it as it is. -/
inductive CaseRun where
  | fresh
  | lower
  | upper
  deriving DecidableEq

def CaseRun.after (run : CaseRun) (c : Char) : CaseRun :=
  if c.isLower then .lower else if c.isUpper then .upper else run

/-- Splits a run of letters and digits. A word ends before a capital that follows lower case, and
before the last capital of a run of capitals when a lower case letter follows it. `word` holds the
current word, last character first. -/
def splitCase (run : CaseRun) (word : List Char) : List Char → List (List Char)
  | [] => []
  | [c] => [(c :: word).reverse]
  | c :: next :: rest =>
    if run.after c = .lower ∧ next.isUpper then
      (c :: word).reverse :: splitCase .fresh [] (next :: rest)
    else if run = .upper ∧ c.isUpper ∧ next.isLower then
      word.reverse :: splitCase .fresh [c] (next :: rest)
    else
      splitCase (run.after c) (c :: word) (next :: rest)

/-- The runs of letters and digits of a name. -/
def alphanumericRuns (word : List Char) : List Char → List (List Char)
  | [] => [word.reverse]
  | c :: cs =>
    if c.isAlphanum then alphanumericRuns (c :: word) cs
    else word.reverse :: alphanumericRuns [] cs

/-- The words of a name, in order. -/
def words (cs : List Char) : List (List Char) :=
  (alphanumericRuns [] cs).flatMap (splitCase .fresh [])

def capitalized : List Char → List Char
  | [] => []
  | c :: cs => c.toUpper :: cs.map Char.toLower

def upperCamelChars (cs : List Char) : List Char :=
  (words cs).flatMap capitalized

def snakeChars (cs : List Char) : List Char :=
  List.intercalate ['_'] ((words cs).map (·.map Char.toLower))

/-- `pet store` becomes `PetStore`. -/
def upperCamel (name : String) : String :=
  String.ofList (upperCamelChars name.toList)

/-- `PetStore` becomes `pet_store`. -/
def snake (name : String) : String :=
  String.ofList (snakeChars name.toList)

end TypedClient.Text
