/-! # Support code

The part of the generated source that is the same for all documents: how requests are sent, the
errors of a client, and how values are written as text and as parameters.
-/

namespace TypedClient.Source

/-- Lines of source, some of them in braces. -/
inductive Code where
  | line (text : String)
  /-- Indented lines in braces after a head. -/
  | block (head : String) (body : List Code)

namespace Code

def indent (line : String) : String := "    " ++ line

mutual

def lines : Code → List String
  | .line text       => [text]
  | .block head body => (head ++ " \x7b") :: (allLines body).map indent ++ ["\x7d"]

def allLines : List Code → List String
  | []      => []
  | c :: cs => c.lines ++ allLines cs

end

end Code

namespace Support

/-- The implementation of a trait that has a single function. -/
def implement (head function : String) (body : List Code) : Code :=
  .block ("impl" ++ head) [.block ("fn " ++ function) body]

def display (type : String) (body : List Code) : Code :=
  implement (" std::fmt::Display for " ++ type)
    "fmt(&self, f: &mut std::fmt::Formatter<'_>) -> std::fmt::Result" body

/-- A conversion by wrapping. -/
def wrapFrom (source target variant : String) : Code :=
  implement (" From<" ++ source ++ "> for " ++ target) ("from(err: " ++ source ++ ") -> Self")
    [.line (target ++ "::" ++ variant ++ "(err)")]

def transportError : List Code := [
  .line "/// Failure reported by a [`Transport`].",
  .line "#[derive(Debug, Clone, PartialEq, Eq)]",
  .block "pub struct TransportError" [.line "pub message: String,"],
  .block "impl TransportError" [
    .block "pub fn new(message: impl Into<String>) -> Self" [
      .block "TransportError" [.line "message: message.into(),"]]],
  display "TransportError" [.line "f.write_str(&self.message)"],
  .line "impl std::error::Error for TransportError \x7b\x7d"]

def clientError : List Code := [
  .line "/// Error returned by client methods. Transport and serialization",
  .line "/// failures are passed through unchanged.",
  .line "#[derive(Debug)]",
  .block "pub enum ClientError" [
    .line "Transport(TransportError),",
    .line "Serialization(serde_json::Error),"],
  display "ClientError" [
    .block "match self" [
      .line "ClientError::Transport(err) => write!(f, \"transport error: \x7b\x7d\", err),",
      .line ("ClientError::Serialization(err) => "
        ++ "write!(f, \"serialization error: \x7b\x7d\", err),")]],
  implement " std::error::Error for ClientError"
    "source(&self) -> Option<&(dyn std::error::Error + 'static)>" [
      .block "match self" [
        .line "ClientError::Transport(err) => Some(err),",
        .line "ClientError::Serialization(err) => Some(err),"]],
  wrapFrom "TransportError" "ClientError" "Transport",
  wrapFrom "serde_json::Error" "ClientError" "Serialization"]

/-- The parameters of the function that sends a request. -/
def sendParameters : List Code := [
  .line "fn send(",
  .line "    &self,",
  .line "    verb: &str,",
  .line "    url: &str,",
  .line "    query: &[(String, String)],",
  .line "    headers: &[(String, String)],",
  .line "    body: Option<Vec<u8>>,"]

def transport : List Code := [
  .line "/// Sends one request and returns the raw response body.",
  .line "///",
  .line "/// `url` is absolute with path parameters already substituted and",
  .line "/// percent-encoded. The body, when present, is JSON.",
  .block "pub trait Transport"
    (sendParameters ++ [.line ") -> Result<Vec<u8>, TransportError>;"]),
  .block "impl<T: Transport + ?Sized> Transport for &T"
    (sendParameters ++ [
      .block ") -> Result<Vec<u8>, TransportError>" [
        .line "(**self).send(verb, url, query, headers, body)"]])]

def renders (bound type : String) (body : List Code) : Code :=
  implement (bound ++ " RenderValue for " ++ type) "render_value(&self) -> String" body

def renderValue : List Code := [
  .line "/// Value text used by the models' `Display` implementations.",
  .block "pub trait RenderValue" [.line "fn render_value(&self) -> String;"],
  renders "" "String" [.line "self.clone()"],
  renders "" "i64" [.line "self.to_string()"],
  renders "" "f64" [.line "self.to_string()"],
  renders "" "bool" [.line "self.to_string()"],
  renders "" "serde_json::Value" [.line "self.to_string()"],
  renders "<T: RenderValue>" "Option<T>" [
    .block "match self" [
      .line "Some(value) => value.render_value(),",
      .line "None => \"null\".to_owned(),"]],
  renders "<T: RenderValue + ?Sized>" "Box<T>" [.line "(**self).render_value()"],
  renders "<T: RenderValue>" "Vec<T>" [
    .line "let items: Vec<String> = self.iter().map(RenderValue::render_value).collect();",
    .line "format!(\"[\x7b\x7d]\", items.join(\", \"))"],
  renders "<T: RenderValue>" "std::collections::BTreeMap<String, T>" [
    .line "let entries: Vec<String> = self",
    .line "    .iter()",
    .line "    .map(|(key, value)| format!(\"\x7b\x7d=\x7b\x7d\", key, value.render_value()))",
    .line "    .collect();",
    .line "format!(\"\x7b\x7b\x7b\x7d\x7d\x7d\", entries.join(\", \"))"]]

def converts (bound type : String) (body : List Code) : Code :=
  implement (bound ++ " ToParam for " ++ type) "to_param(&self) -> String" body

def toParam : List Code := [
  .line "/// Text form of a path, query or header parameter.",
  .block "pub trait ToParam" [.line "fn to_param(&self) -> String;"],
  converts "" "String" [.line "self.clone()"],
  converts "" "i64" [.line "self.to_string()"],
  converts "" "f64" [.line "self.to_string()"],
  converts "" "bool" [.line "self.to_string()"],
  converts "<T: ToParam>" "Vec<T>" [
    .line "let items: Vec<String> = self.iter().map(ToParam::to_param).collect();",
    .line "items.join(\",\")"]]

def encodePathSegment : List Code := [
  .line "/// Percent-encodes everything outside the RFC 3986 unreserved set so a",
  .line "/// path parameter stays a single segment.",
  .block "pub fn encode_path_segment(value: &str) -> String" [
    .line "let mut encoded = String::with_capacity(value.len());",
    .block "for byte in value.bytes()" [
      .block "match byte" [
        .block ("b'A'..=b'Z' | b'a'..=b'z' | b'0'..=b'9' | b'-' | b'.' | b'_' | b'~' =>") [
          .line "encoded.push(byte as char)"],
        .line "_ => encoded.push_str(&format!(\"%\x7b:02X\x7d\", byte)),"]],
    .line "encoded"]]

def code : List Code :=
  transportError ++ clientError ++ transport ++ renderValue ++ toParam ++ encodePathSegment

/-- The names that the support code takes, and those of types that all code uses. -/
def names : List String :=
  ["Transport", "TransportError", "ClientError", "RenderValue", "ToParam", "Result", "Option", "Vec",
    "String", "Box", "T"]

/-- The support code as text. -/
def text : String := String.join ((Code.allLines code).map (· ++ "\n"))

end Support

end TypedClient.Source
