import TypedClient.Data.JsonText
import TypedClient.Loading

/-!
# The characters of a JSON text

A document in JSON notation is read from the characters of its text, and the characters of a text that
is put together from records and quotes come from theirs. So what such a text holds can be computed
from short pieces, and the text as a whole need not be decoded.
-/

namespace TypedClient

namespace Json

theorem toList_quote (s : String) :
    (quote s).toList = '"' :: s.toList.flatMap escape ++ ['"'] := by
  rw [quote, String.toList_ofList]

theorem toList_record (entries : List (String × String)) : (record entries).toList =
    '{' :: ([','].intercalate (entries.map fun e => (quote e.1).toList ++ ':' :: e.2.toList) ++
      ['}']) := by
  have hopen : "\x7b".toList = ['{'] := rfl
  have hclose : "\x7d".toList = ['}'] := rfl
  have hcomma : ",".toList = [','] := rfl
  have hcolon : ":".toList = [':'] := rfl
  rw [record, String.toList_append, String.toList_append, String.toList_intercalate, hopen, hclose,
    hcomma, List.map_map]
  simp [Function.comp_def, hcolon]

/-- Reads the characters of a JSON text, or says where reading stopped. -/
def readChars (cs : List Char) : Except Place Data :=
  match document cs with
  | .ok d => .ok d
  | .error left =>
    let bytes := (String.ofList cs).toUTF8.toList
    .error (Place.after (bytes.take (bytes.length - left)))

theorem read_eq_readChars (text : String) : read text = readChars text.toList := by
  unfold read readChars
  cases document text.toList with
  | ok d => rfl
  | error left => simp only [String.ofList_toList]

/-- The data of a document with these characters. -/
def documentData (cs : List Char) : Except Failure Data :=
  match readChars cs with
  | .ok (.mapping es) => .ok (Data.withTextKeys (.mapping es))
  | .ok _             => .error (.malformed .root .notMapping)
  | .error p          => .error (.malformed (.line p.line p.column) (.format "JSON"))

/-- A document without operations. -/
def idleText : String :=
  record [
    ("swagger", quote "2.0"),
    ("info", record [("title", quote "t"), ("version", quote "v")]),
    ("paths", record [])]

end Json

variable {text : String} {cs : List Char}

theorem readDocument_eq_documentData (h : text.toList = '{' :: cs) :
    readDocument text = Json.documentData ('{' :: cs) := by
  have hjson : isJsonText text = true := by
    rw [isJsonText, h]
    rfl
  rw [readDocument, readData, if_pos hjson, Json.read_eq_readChars, h, Json.documentData]
  cases Json.readChars ('{' :: cs) with
  | error p => rfl
  | ok d => cases d <;> rfl

theorem read_eq_documentData (h : text.toList = '{' :: cs) :
    Source.read text = (Json.documentData ('{' :: cs)).bind Source.ofData := by
  rw [Source.read, readDocument_eq_documentData h]

theorem load_eq_documentData (h : text.toList = '{' :: cs) :
    load text = ((Json.documentData ('{' :: cs)).bind Source.ofData).bind Source.document := by
  rw [load, read_eq_documentData h]

end TypedClient
