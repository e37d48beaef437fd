import LoadCoach.Foundations.Digits
import LoadCoach.Foundations.IpAddress
import LoadCoach.Foundations.Traced
import LoadCoach.Values

/-! # The evidence client

`infrastructure/freeweight_client.py`: one bundle is fetched over HTTP from a host that may be
hostile.  `check_url` decides from a URL alone whether it may be requested; `fetch` follows
redirects by itself, a checked hop at a time, and `_read` takes the body chunk by chunk.

The HTTP library is not part of the program.  `Httpx` is what the client uses of its URLs, and the
server, the network and the resolver of names are a `World`: what every check and every request
meets, in the order in which they are made.  The client is a program with a trace.  A request is an
event of it, and so is each chunk that is received or kept. -/

namespace LoadCoach.Fetch

open Foundations Foundations.Traced

/-! ### What the client is built on -/

abbrev Bytes := List UInt8

/-- The URLs of the library, and the printing of two types. -/
structure Httpx (Url : Type) where
  /-- `httpx.URL(text)`, which may raise. -/
  parse : String → Option Url
  /-- `str(url)`. -/
  text : Url → String
  scheme : Url → String
  host : Url → String
  /-- The port, unless it is that of the scheme. -/
  port : Url → Option ℕ
  path : Url → String
  /-- `copy_with(path=…)`. -/
  withPath : Url → String → Url
  /-- `copy_set_param`. -/
  setParam : Url → String → String → Url
  /-- `join`, which may raise. -/
  join : Url → String → Option Url
  /-- `repr` of a text. -/
  repr : String → String
  /-- `str` of an address. -/
  address : IpAddress → String

/-- What a read of the body comes to in `iter_bytes`: a chunk, which is never empty; nothing, where
the bytes that came decode to none; the end; or an error. -/
inductive Piece where
  | chunk (bytes : Bytes) (nonempty : bytes ≠ [])
  | nothing
  | ended
  | broken

/-- An answer of the server. -/
structure Response where
  status : ℕ
  /-- `headers.get`. -/
  header : String → Option String
  /-- The body, read by read. -/
  body : ℕ → Piece

/-- `response.is_redirect`. -/
def Response.isRedirect (response : Response) : Bool :=
  300 ≤ response.status && response.status ≤ 399

/-- What the client meets. -/
structure World where
  /-- The addresses of a name, at the check of that number. -/
  resolve : ℕ → String → List String
  /-- The answer to the request of that number, or the text of a transport error. -/
  answer : ℕ → Except String Response

/-- `FetchPolicy`, without its timeouts. -/
structure FetchPolicy where
  allowedHosts : List String
  maxBytes : ℕ := 128 * 1024 * 1024
  maxRedirects : ℕ := 3

/-- `FetchedBundle`. -/
structure FetchedBundle where
  document : Bytes
  url : String
  contentType : String

/-- What the client does. -/
inductive FetchEvent (Url : Type) where
  /-- `check_url` returned, at the check of that number. -/
  | checked (attempt : ℕ) (url : String)
  | requested (attempt : ℕ) (url : Url) (headers : List (String × String))
  /-- The status and the content type of the answer were accepted. -/
  | accepted (attempt : ℕ) (contentType : String)
  /-- A chunk of the body was taken from the stream. -/
  | received (attempt : ℕ) (chunk : Bytes)
  | kept (chunk : Bytes)
  | closed (attempt : ℕ)

/-- `EvidenceSourceRefused`. -/
def refuse (reason message : String) (detail : Members) : Raised :=
  .suite "EVIDENCE_SOURCE_REFUSED" message (("reason", .str reason) :: detail)

/-- `EvidenceSourceUnreachable`. -/
def unreachableSource (reason message : String) (detail : Members) : Raised :=
  .suite "EVIDENCE_IMPORT_FAILED" message (("reason", .str reason) :: detail)

variable {Url : Type} (httpx : Httpx Url) (policy : FetchPolicy) (world : World)

/-- A run of a part of the client. -/
abbrev Client (Url α : Type) := Traced (FetchEvent Url) Raised α

/-! ### The rules of a URL -/

def allowedSchemes : List String := ["http", "https"]

/-- `_addresses_of`: what the host is, or what its name resolves to. -/
def addressesOf (resolve : String → List String) (host : String) : List IpAddress :=
  match ipAddress (stripChars ['[', ']'] host) with
  | some address => [address]
  | none => (resolve host).filterMap fun candidate => ipAddress (firstPart '%' candidate)

/-- `check_url`. -/
def checkUrl (resolve : String → List String) (url : String) : Except Raised Url :=
  let quoted := httpx.repr url
  match httpx.parse url with
  | none => .error (refuse "malformed_url" s!"{quoted} is not a URL LoadCoach can fetch." [])
  | some parsed =>
      let scheme := lower (httpx.scheme parsed)
      let host := httpx.host parsed
      let shown := httpx.repr host
      if scheme ∉ allowedSchemes then
        let named := httpx.repr (if scheme = "" then "(none)" else scheme)
        .error (refuse "scheme_not_allowed"
          s!"Evidence may be pulled over http or https only; {named} is refused (ADR-0026 §3)."
          [("scheme", .str scheme), ("url", .str url)])
      else if host = "" then
        .error (refuse "no_host" s!"{quoted} names no host." [("url", .str url)])
      else if lower host ∉ policy.allowedHosts.map lower then
        let allowed := if policy.allowedHosts = [] then "empty"
          else ", ".intercalate policy.allowedHosts
        .error (refuse "host_not_allowed"
          (s!"{shown} is not in evidence.allowed_source_hosts ({allowed}). " ++
            "A remote FreeWeight must be listed explicitly (ADR-0026 §3).")
          [("host", .str host), ("allowed_hosts", .arr (policy.allowedHosts.map .str))])
      else
        match (addressesOf resolve host).find? IpAddress.isLinkLocal with
        | some found =>
            let address := httpx.address found
            .error (refuse "link_local_address"
              (s!"{shown} names or resolves to the link-local address {address}, which is " ++
                "refused unconditionally — the cloud metadata range is the classic target " ++
                "(ADR-0026 §3).")
              [("host", .str host), ("address", .str address)])
        | none => .ok parsed

/-! ### Reading an answer -/

def acceptedMediaTypes : List String := ["application/json"]

/-- The media type of an answer. -/
def mediaType (response : Response) : String :=
  lower (strip (firstPart ';' ((response.header "content-type").getD "")))

/-- A media type of JSON. -/
def isJson (media : String) : Bool :=
  media ∈ acceptedMediaTypes || "+json".toList.isSuffixOf media.toList

/-- `_check_content_type`. -/
def checkContentType (response : Response) (url : String) : Except Raised String :=
  let raw := (response.header "content-type").getD ""
  let media := mediaType response
  if isJson media then .ok media
  else
    let shown := httpx.repr (if raw = "" then "(none)" else raw)
    .error (refuse "content_type_not_allowed"
      (s!"{url} answered with Content-Type {shown}; an evidence bundle is JSON " ++
        "(ADR-0026 §3, checked before parsing).")
      [("content_type", .str raw), ("url", .str url)])

/-- The check of the length an answer declares; `int` refuses some texts `isdigit` accepts. -/
def checkDeclared (response : Response) (url : String) : Except Raised Unit :=
  match response.header "content-length" with
  | none => .ok ()
  | some declared =>
      if isDigits declared then
        match intOfDigits declared with
        | none => .error .unexpected
        | some n =>
            let limit := policy.maxBytes
            if limit < n then
              .error (refuse "too_large"
                s!"{url} declared {declared} bytes; the import limit is {limit} (ADR-0026 §3)."
                [("declared_bytes", .int n), ("max_bytes", .int limit)])
            else .ok ()
      else .ok ()

/-- The loop of `_read`: the reads from the `i`-th on, with the chunks kept so far.  A read that comes
to nothing is followed by the next, inside `iter_bytes`. -/
def stream (attempt : ℕ) (url : String) (body : ℕ → Piece) :
    ℕ → ℕ → List Bytes → ℕ → Client Url (List Bytes)
  | 0, _, _, _ => unfinished
  | fuel + 1, i, chunks, size =>
      match body i with
      | .nothing => stream attempt url body fuel (i + 1) chunks size
      | .ended => pure chunks
      | .broken => raise .unexpected
      | .chunk bytes _ => do
          emit (.received attempt bytes)
          if policy.maxBytes < size + bytes.length then
            let limit := policy.maxBytes
            raise (refuse "too_large"
              (s!"{url} sent more than the {limit}-byte import limit; " ++
                "the transfer was stopped rather than read to the end (ADR-0026 §3).")
              [("max_bytes", .int limit), ("url", .str url)])
          else do
            emit (.kept bytes)
            stream attempt url body fuel (i + 1) (chunks ++ [bytes]) (size + bytes.length)

/-- What `_read` does of a body whose head it has accepted. -/
def readBody (fuel attempt : ℕ) (response : Response) (url contentType : String) :
    Client Url FetchedBundle := do
  lift (checkDeclared policy response url)
  let chunks ← stream policy attempt url response.body fuel 0 [] 0
  pure { document := chunks.flatten, url, contentType }

/-- `_read`. -/
def read (fuel attempt : ℕ) (response : Response) (target : Url) : Client Url FetchedBundle :=
  let url := httpx.text target
  let status := response.status
  Traced.finallyEmit (e := .closed attempt) <|
    if 400 ≤ status then
      raise (unreachableSource "http_status" s!"{url} answered {status}."
        [("status_code", .int status), ("url", .str url)])
    else do
      let contentType ← lift (checkContentType httpx response url)
      emit (.accepted attempt contentType)
      readBody policy fuel attempt response url contentType

/-! ### Requests -/

/-- `_send`. -/
def send (attempt : ℕ) (target : Url) (headers : List (String × String)) :
    Client Url Response := do
  emit (.requested attempt target headers)
  match world.answer attempt with
  | .ok response => pure response
  | .error message =>
      let url := httpx.text target
      raise (unreachableSource "transport_error" s!"Could not reach {url}: {message}"
        [("url", .str url)])

/-- `_next_hop`. -/
def nextHop (response : Response) (target : Url) (originHost : String) (redirects : ℕ) :
    Client Url Url :=
  let url := httpx.text target
  if policy.maxRedirects < redirects then
    let limit := policy.maxRedirects
    raise (refuse "too_many_redirects"
      s!"{url} redirected more than {limit} times (ADR-0026 §3)."
      [("url", .str url), ("max_redirects", .int limit)])
  else
    match httpx.join target ((response.header "location").getD "") with
    | none => raise .unexpected
    | some nxt =>
        if httpx.host nxt ≠ originHost then
          let shown := httpx.repr (httpx.host nxt)
          let origin := httpx.repr originHost
          raise (refuse "cross_host_redirect"
            (s!"{url} redirected to {shown}, a different host from {origin}; " ++
              "redirects are not followed across a host change, and no credential is ever " ++
              "forwarded across one (ADR-0026 §3).")
            [("url", .str url), ("redirect_host", .str (httpx.host nxt)),
             ("origin_host", .str originHost)])
        else do
          let _ ← lift (checkUrl httpx policy (world.resolve redirects) (httpx.text nxt))
          emit (.checked redirects (httpx.text nxt))
          pure nxt

/-- The loop of `fetch`, after so many redirects. -/
def follow (originHost : String) (headers : List (String × String)) :
    ℕ → ℕ → Url → Client Url FetchedBundle
  | 0, _, _ => unfinished
  | fuel + 1, redirects, target => do
      let response ← send httpx world redirects target headers
      if response.isRedirect then do
        emit (.closed redirects)
        let nxt ← nextHop httpx policy world response target originHost (redirects + 1)
        follow originHost headers fuel (redirects + 1) nxt
      else read httpx policy (fuel + 1) redirects response target

def evidenceExportPath : String := "/api/v1/evidence/export"

/-- `_with_export_path`. -/
def withExportPath (url : Url) : Url :=
  if httpx.path url = "" ∨ httpx.path url = "/" then httpx.withPath url evidenceExportPath
  else url

/-- The first URL that is requested; `since` is printed already. -/
def firstTarget (url : Url) (since : Option String) : Url :=
  match since with
  | some instant => httpx.setParam (withExportPath httpx url) "since" instant
  | none => withExportPath httpx url

/-- The headers of every request of a fetch. -/
def requestHeaders (credential : Option String) : List (String × String) :=
  ("Accept", "application/json") ::
    match credential with
    | none => []
    | some token => if token = "" then [] else [("Authorization", s!"Bearer {token}")]

/-- `fetch`. -/
def fetch (fuel : ℕ) (url : String) (since credential : Option String) :
    Client Url FetchedBundle := do
  let checked ← lift (checkUrl httpx policy (world.resolve 0) url)
  emit (.checked 0 url)
  let target := firstTarget httpx checked since
  follow httpx policy world (httpx.host target) (requestHeaders credential) fuel 0 target

end LoadCoach.Fetch
