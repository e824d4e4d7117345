import Dibibase.Library.Bytes
import Dibibase.Util.Numbers

/-!
# HTTP messages

Requests and responses of the endpoint for metrics, with the parser of requests and the text of
responses. Every message has the version 1.1, and its headers are kept in the order of their names.
-/

namespace Dibibase

open Library

namespace PromEndp

/-- `tolower` in the C locale. -/
def toLower (c : UInt8) : UInt8 := if 65 ≤ c ∧ c ≤ 90 then c + 32 else c

/-- `toupper` in the C locale. -/
def toUpper (c : UInt8) : UInt8 := if 97 ≤ c ∧ c ≤ 122 then c - 32 else c

lemma toLower_toLower (c : UInt8) : toLower (toLower c) = toLower c := by
  by_cases h : 65 ≤ c ∧ c ≤ 90
  · have hlow : ¬(65 ≤ c + 32 ∧ c + 32 ≤ 90) := by
      simp only [UInt8.le_iff_toNat_le, UInt8.toNat_add, UInt8.reduceToNat] at h ⊢
      omega
    rw [toLower, toLower, if_pos h, if_neg hlow]
  · rw [toLower, toLower, if_neg h, if_neg h]

/-- A `Uri`, of which only the path is supported. It is in lower case. -/
structure Uri where
  path : List UInt8
  lowercase : path.map toLower = path
  deriving DecidableEq

namespace Uri

/-- `Uri()`. -/
def empty : Uri := ⟨[], rfl⟩

/-- `Uri(path)`. -/
def ofPath (path : List UInt8) : Uri :=
  ⟨path.map toLower, by simp [toLower_toLower]⟩

end Uri

inductive HttpMethod where
  | get | head | post | put | delete | connect | options | trace | patch
  deriving DecidableEq, Repr

inductive HttpVersion where
  | http09 | http10 | http11 | http20
  deriving DecidableEq, Repr

inductive HttpStatusCode where
  | «continue» | switchingProtocols | earlyHints | ok | created | accepted
  | nonAuthoritativeInformation | noContent | resetContent | partialContent | multipleChoices
  | movedPermanently | found | notModified | badRequest | unauthorized | forbidden | notFound
  | methodNotAllowed | requestTimeout | imATeapot | internalServerError | notImplemented | badGateway
  | serviceUnvailable | gatewayTimeout | httpVersionNotSupported
  deriving DecidableEq, Repr

/-- The value of an enumerator. -/
def HttpStatusCode.code : HttpStatusCode → Int
  | «continue» => 100 | switchingProtocols => 101 | earlyHints => 103
  | ok => 200 | created => 201 | accepted => 202 | nonAuthoritativeInformation => 203
  | noContent => 204 | resetContent => 205 | partialContent => 206
  | multipleChoices => 300 | movedPermanently => 301 | found => 302 | notModified => 304
  | badRequest => 400 | unauthorized => 401 | forbidden => 403 | notFound => 404
  | methodNotAllowed => 405 | requestTimeout => 408 | imATeapot => 418
  | internalServerError => 500 | notImplemented => 501 | badGateway => 502
  | serviceUnvailable => 503 | gatewayTimeout => 504 | httpVersionNotSupported => 505

/-- `to_string` of a status code. Half of them have no text. -/
def HttpStatusCode.toText : HttpStatusCode → List UInt8
  | «continue» => text "Continue"
  | ok => text "OK"
  | accepted => text "Accepted"
  | movedPermanently => text "Moved Permanently"
  | found => text "Found"
  | badRequest => text "Bad Request"
  | forbidden => text "Forbidden"
  | notFound => text "Not Found"
  | methodNotAllowed => text "Method Not Allowed"
  | imATeapot => text "I'm a Teapot"
  | internalServerError => text "Internal Server Error"
  | notImplemented => text "Not Implemented"
  | badGateway => text "Bad Gateway"
  | _ => []

def HttpVersion.toText : HttpVersion → List UInt8
  | http09 => text "HTTP/0.9"
  | http10 => text "HTTP/1.0"
  | http11 => text "HTTP/1.1"
  | http20 => text "HTTP/2.0"

/-- `to_string` of a method. -/
def HttpMethod.toText : HttpMethod → List UInt8
  | get => text "GET"
  | head => text "HEAD"
  | post => text "POST"
  | put => text "PUT"
  | delete => text "DELETE"
  | connect => text "CONNECT"
  | options => text "OPTIONS"
  | trace => text "TRACE"
  | patch => text "PATCH"

/-- The exceptions of the C++ library that `HandleHttpData` tells apart, with their messages. -/
inductive StdException where
  | invalidArgument (what : List UInt8)
  | logicError (what : List UInt8)
  | other (what : List UInt8)
  deriving DecidableEq, Repr

/-- `string_to_method`. -/
def stringToMethod (method : List UInt8) : Except StdException HttpMethod :=
  let uppercase := method.map toUpper
  if uppercase = text "GET" then return .get
  else if uppercase = text "HEAD" then return .head
  else if uppercase = text "POST" then return .post
  else if uppercase = text "PUT" then return .put
  else if uppercase = text "DELETE" then return .delete
  else if uppercase = text "CONNECT" then return .connect
  else if uppercase = text "OPTIONS" then return .options
  else if uppercase = text "TRACE" then return .trace
  else if uppercase = text "PATCH" then return .patch
  else throw (.invalidArgument (text "Unexpected HTTP method"))

/-- `string_to_version`. -/
def stringToVersion (version : List UInt8) : Except StdException HttpVersion :=
  let uppercase := version.map toUpper
  if uppercase = text "HTTP/0.9" then return .http09
  else if uppercase = text "HTTP/1.0" then return .http10
  else if uppercase = text "HTTP/1.1" then return .http11
  else if uppercase = text "HTTP/2" ∨ uppercase = text "HTTP/2.0" then return .http20
  else throw (.invalidArgument (text "Unexpected HTTP version"))

/-! ### Messages -/

/-- The map of headers, in the order of the names. -/
abbrev Headers := List (List UInt8 × List UInt8)

/-- `headers_[key] = value`. -/
def Headers.set (key value : List UInt8) : Headers → Headers
  | [] => [(key, value)]
  | (k, v) :: headers =>
    if k = key then (k, value) :: headers
    else if stringLe key k then (key, value) :: (k, v) :: headers
    else (k, v) :: set key value headers

/-- `HttpMessageInterface`. -/
structure HttpMessage where
  version : HttpVersion := .http11
  headers : Headers := []
  content : List UInt8 := []
  deriving DecidableEq, Repr

/-- `SetContent` also sets the header for the length. -/
def HttpMessage.setContent (m : HttpMessage) (content : List UInt8) : HttpMessage :=
  { m with
    headers := m.headers.set (text "Content-Length") (toDecimal content.length)
    content }

structure HttpRequest extends HttpMessage where
  method : HttpMethod := .get
  uri : Uri := Uri.empty

structure HttpResponse extends HttpMessage where
  statusCode : HttpStatusCode := .ok

/-- `to_string` of a request. -/
def HttpRequest.toText (request : HttpRequest) : List UInt8 :=
  request.method.toText ++ [32] ++ request.uri.path ++ [32] ++ request.version.toText ++ text "\r\n" ++
    request.headers.flatMap (fun p => p.1 ++ text ": " ++ p.2 ++ text "\r\n") ++ text "\r\n" ++
    request.content

/-- A response with the content that `SetContent` gives it. -/
def HttpResponse.ofContent (statusCode : HttpStatusCode) (content : List UInt8) : HttpResponse :=
  { toHttpMessage := HttpMessage.setContent {} content, statusCode }

/-- `to_string` of a response. -/
def HttpResponse.toText (response : HttpResponse) (sendContent : Bool) : List UInt8 :=
  response.version.toText ++ [32] ++ toDecimal response.statusCode.code ++ [32] ++
    response.statusCode.toText ++ text "\r\n" ++
    response.headers.flatMap (fun p => p.1 ++ text ": " ++ p.2 ++ text "\r\n") ++ text "\r\n" ++
    if sendContent then response.content else []

/-! ### The parser of requests -/

/-- The text before the first occurrence of `pattern`, and the text behind it. -/
def splitFirst (pattern : List UInt8) : List UInt8 → Option (List UInt8 × List UInt8)
  | [] => none
  | c :: cs =>
    if pattern.isPrefixOf (c :: cs) then some ([], (c :: cs).drop pattern.length)
    else (splitFirst pattern cs).map (fun p => (c :: p.1, p.2))

/-- `iss >> token`: the next token of the stream and the rest. At the end of the stream the token is
empty, and the stream has then also met its end, so the format of a start line is never invalid. -/
def nextToken (s : List UInt8) : List UInt8 × List UInt8 :=
  let s := s.dropWhile isSpace
  (s.takeWhile (fun c => !isSpace c), s.dropWhile (fun c => !isSpace c))

/-- The lines that `getline` reads. Nothing follows the last line feed. -/
def getLines (s : List UInt8) : List (List UInt8) :=
  let lines := s.splitOn 10
  if lines.getLast? = some [] then lines.dropLast else lines

/-- The loop over the lines of the header. In a line without a colon the value is still the one of the
line before it. -/
def parseHeaders : List (List UInt8) → List UInt8 → Headers → Headers
  | [], _, headers => headers
  | line :: lines, value, headers =>
    let key := line.takeWhile (· ≠ 58)
    let value := if 58 ∈ line then (line.dropWhile (· ≠ 58)).drop 1 else value
    let key := key.filter (fun c => !isSpace c)
    let value := value.filter (fun c => !isSpace c)
    parseHeaders lines value (headers.set key value)

/-- `string_to_request`. -/
def stringToRequest (s : List UInt8) : Except StdException HttpRequest := do
  match splitFirst (text "\r\n") s with
  | none => throw (.invalidArgument (text "Could not find request start line"))
  | some (startLine, rest) =>
    let (headerLines, messageBody) := (splitFirst (text "\r\n\r\n") rest).getD ([], [])
    let (method, startLine) := nextToken startLine
    let (path, startLine) := nextToken startLine
    let (version, _) := nextToken startLine
    let request : HttpRequest := {}
    let request := { request with method := ← stringToMethod method }
    let request := { request with uri := Uri.ofPath path }
    if (← stringToVersion version) ≠ request.version then
      throw (.logicError (text "HTTP version not supported"))
    let request := { request with headers := parseHeaders (getLines headerLines) [] request.headers }
    return { request with toHttpMessage := request.toHttpMessage.setContent messageBody }

end PromEndp

end Dibibase
