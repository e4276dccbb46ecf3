import TypedClient.Text.Blank

/-! # Media types

Requests and responses are JSON. A media type counts as JSON when it may carry it.
-/

namespace TypedClient.Schema

/-- The part of a media type before its parameters, in lower case. -/
def mediaEssence (media : String) : String :=
  String.ofList ((Text.trimBlanks (media.toList.takeWhile (· ≠ ';'))).map Char.toLower)

/-- Whether a media type names JSON, a format built on it, or anything at all. -/
def isJsonMedia (media : String) : Bool :=
  let essence := mediaEssence media
  essence == "*/*" || essence == "application/*" || essence.endsWith "json"

/-- Whether a list of media types leaves room for JSON. No declared type means JSON. -/
def admitsJson (media : List String) : Bool :=
  media.isEmpty || media.any isJsonMedia

end TypedClient.Schema
