import Nyabase.Lib.AsciiCase
import Nyabase.Lib.Result
import Nyabase.Lib.Text
import Nyabase.ProxyCommon.IpAddr

/-!
# Request heads: `tools/http-proxy/src/request.rs`

The HTTP proxy reads one request head, decides how its body is framed and writes the head the upstream
gets.  A head is a list of bytes; the strings of the source are lists of characters.  Predicates the
source evaluates on the bytes of a string are evaluated on its characters: every byte of a character
outside ASCII is at least `0x80`, so no test for an ASCII byte can tell the two apart.

The header loop is cut into one definition for each group of branches; `scanHeader` is one turn of the
loop and `scanHeaders` the loop.
-/

namespace Nyabase.HttpProxy

open Lib ProxyCommon

/-- `MAX_REQUEST_BODY_BYTES`. -/
def maxRequestBodyBytes : Nat := 16 * 1024 * 1024

def crlf : List Char := ['\r', '\n']

/-- What the proxy itself knows about the client. -/
structure ClientContext where
  peerIp : IpAddr
  https : Bool

inductive RequestMode where
  | fixedBody (bodyLen : Nat)
  | chunkedBody
  | webSocket (expectedAccept : List Char)
  deriving DecidableEq

structure RequestPlan where
  host : List Char
  header : List UInt8
  mode : RequestMode
  expectContinue : Bool

/-- The two functions of other crates the WebSocket branch calls: base64 decoding and
`derive_accept_key`. -/
structure HandshakeCrypto where
  decodeBase64 : List UInt8 → Option (List UInt8)
  deriveAcceptKey : List UInt8 → List Char

/-- A header name against one of the names the source spells out. -/
def named (name : List Char) (expected : String) : Bool :=
  eqIgnoreAsciiCase name expected.toList

/-- `char::is_whitespace`: the Unicode `White_Space` property. -/
def isWhiteSpace (c : Char) : Bool :=
  (0x09 ≤ c.toNat && c.toNat ≤ 0x0d) || c.toNat == 0x20 || c.toNat == 0x85 || c.toNat == 0xa0 ||
    c.toNat == 0x1680 || (0x2000 ≤ c.toNat && c.toNat ≤ 0x200a) || c.toNat == 0x2028 ||
    c.toNat == 0x2029 || c.toNat == 0x202f || c.toNat == 0x205f || c.toNat == 0x3000

/-- `str::trim`. -/
def trim (text : List Char) : List Char := trimBy isWhiteSpace text

def isHttpToken (value : List Char) : Bool :=
  !value.isEmpty && value.all fun c =>
    c.isAlphanum || "!#$%&'*+-.^_`|~".toList.contains c

def invalidHeaderValue (value : List Char) : Bool :=
  value.any fun c => (c.toNat < 0x20 && c != '\t') || c.toNat == 0x7f

/-- `u8::is_ascii_graphic`. -/
def isAsciiGraphic (c : Char) : Bool := 0x21 ≤ c.toNat && c.toNat ≤ 0x7e

/-- `u8::is_ascii_whitespace`. -/
def isAsciiWhitespace (c : Char) : Bool :=
  c == ' ' || c == '\t' || c == '\n' || c.toNat == 0x0c || c == '\r'

/-! ## Header names -/

def foldHeaderName (name : List Char) : List Char :=
  name.map fun c => if c.toLower = '_' ∨ c.toLower = '.' then '-' else c.toLower

/-- The client-address spellings `is_forwarding_header` lists besides the `x-forwarded-` family. -/
def clientAddressNames : List String :=
  ["forwarded", "x-real-ip", "true-client-ip", "cf-connecting-ip", "x-client-ip", "client-ip",
    "fastly-client-ip", "x-cluster-client-ip"]

def isForwardingHeader (name : List Char) : Bool :=
  "x-forwarded-".toList.isPrefixOf (foldHeaderName name) ||
    clientAddressNames.any fun known => foldHeaderName name == known.toList

def isFoldedAliasOfProxyHeader (name : List Char) : Bool :=
  (name.contains '_' || name.contains '.') &&
    ((["content-length", "transfer-encoding", "keep-alive", "proxy-connection"].any fun known =>
        foldHeaderName name == known.toList) ||
      "sec-websocket-".toList.isPrefixOf (foldHeaderName name))

/-- A header line the proxy writes itself. -/
def headerLine (name : String) (value : List Char) : List Char :=
  name.toList ++ ':' :: ' ' :: value

/-- The four lines the proxy writes about the client hop. -/
def forwardingLines (client : ClientContext) (hostAuthority : List Char) : List (List Char) :=
  let ip := client.peerIp.toCanonical.display
  let proto := if client.https then "https".toList else "http".toList
  [headerLine "X-Forwarded-For" ip, headerLine "X-Forwarded-Proto" proto,
    headerLine "X-Forwarded-Host" hostAuthority, headerLine "X-Real-IP" ip]

def forwardingHeaders (client : ClientContext) (hostAuthority : List Char) : List Char :=
  (forwardingLines client hostAuthority).flatMap (· ++ crlf)

/-! ## Request line and Host -/

/-- The method, target and version of a request line. -/
structure RequestParts where
  method : List Char
  target : List Char
  version : List Char

def parseRequestLine (line : List Char) : Except String RequestParts :=
  match line.splitOn ' ' with
  | [method, target, version] =>
    if !isHttpToken method || !target.all isAsciiGraphic || !(target.head? == some '/' || target == ['*']) ||
        !(version == "HTTP/1.0".toList || version == "HTTP/1.1".toList) then
      .error "malformed or unsupported HTTP request line"
    else .ok ⟨method, target, version⟩
  | _ => .error "malformed or unsupported HTTP request line"

/-- `port.parse::<u16>()` accepts it and it is not zero. -/
def validPort (port : List Char) : Bool :=
  !port.isEmpty && port.all Char.isDigit && Nat.ofDigitChars 10 port 0 < 2 ^ 16 && 0 < Nat.ofDigitChars 10 port 0

/-- The checks of `normalize_host_authority` on the part before the port. -/
def normalizeHostname (name : List Char) : Except String (List Char) :=
  let hostname := name.rdropWhile (· == '.')
  if hostname.isEmpty || hostname.head? == some '.' || decide (['.', '.'] <:+: hostname) ||
      !hostname.all (fun c => c.isAlphanum || c == '.' || c == '-') then
    .error "invalid Host name"
  else .ok (hostname.map Char.toLower)

/-- `normalize_host_authority` after its `trim`. -/
def normalizeAuthority (authority : List Char) : Except String (List Char) :=
  if authority.isEmpty || !authority.all isAscii ||
      authority.any (fun c => isAsciiWhitespace c || c == '/' || c == '\\' || c == '@') then
    .error "invalid Host authority"
  else
    match authority.splitOn ':' with
    | [] => normalizeHostname []
    | [name] => normalizeHostname name
    | [name, port] =>
      if validPort port then normalizeHostname name else .error "invalid Host port"
    | _ :: _ :: _ :: _ => .error "invalid Host port"

def normalizeHostAuthority (value : List Char) : Except String (List Char) :=
  normalizeAuthority (trim value)

/-! ## The header loop -/

/-- The variables the header loop of `request_plan` fills. -/
structure HeaderScan where
  contentLength : Option Nat := none
  transferEncoding : Option (List Char) := none
  expect : Option (List Char) := none
  hostCount : Nat := 0
  host : Option (List Char) := none
  hostAuthority : List Char := []
  connection : Option (List Char) := none
  upgrade : Option (List Char) := none
  websocketKey : Option (List Char) := none
  websocketVersion : Option (List Char) := none
  websocketProtocolSeen : Bool := false
  websocketExtensionsSeen : Bool := false
  websocketHeaderSeen : Bool := false
  rewritten : List Char

def scanHost (s : HeaderScan) (name value : List Char) : Except String HeaderScan :=
  if named name "host" then do
    let host ← normalizeHostAuthority value
    pure { s with hostCount := s.hostCount + 1, host := some host, hostAuthority := trim value }
  else pure s

def scanTransferEncoding (s : HeaderScan) (value : List Char) : Except String HeaderScan := do
  ensure s.transferEncoding.isNone "duplicate Transfer-Encoding header"
  pure { s with transferEncoding := some (trim value) }

def scanExpect (s : HeaderScan) (value : List Char) : Except String HeaderScan := do
  ensure s.expect.isNone "duplicate Expect header"
  pure { s with expect := some (trim value) }

def scanConnection (s : HeaderScan) (value : List Char) : Except String HeaderScan := do
  ensure s.connection.isNone "duplicate Connection header"
  pure { s with connection := some (trim value) }

def scanUpgrade (s : HeaderScan) (value : List Char) : Except String HeaderScan := do
  ensure s.upgrade.isNone "duplicate Upgrade header"
  pure { s with upgrade := some (trim value), websocketHeaderSeen := true }

/-- A body length: plain digits, at most `usize::MAX` and at most `MAX_REQUEST_BODY_BYTES`. -/
def parseContentLength (value : List Char) : Except String Nat := do
  ensure (!value.isEmpty && value.all Char.isDigit) "invalid Content-Length"
  ensure (Nat.ofDigitChars 10 value 0 < 2 ^ 64) "invalid Content-Length"
  ensure (Nat.ofDigitChars 10 value 0 ≤ maxRequestBodyBytes) "request body is too large"
  pure (Nat.ofDigitChars 10 value 0)

def scanContentLength (s : HeaderScan) (name value : List Char) : Except String HeaderScan :=
  if named name "content-length" then do
    ensure s.contentLength.isNone "duplicate Content-Length header"
    let parsed ← parseContentLength (trim value)
    pure { s with contentLength := some parsed }
  else pure s

/-- The `Sec-WebSocket-*` branches; the line itself is still forwarded. -/
def scanWebsocket (s : HeaderScan) (name value : List Char) : Except String HeaderScan :=
  if named name "sec-websocket-key" then do
    ensure s.websocketKey.isNone "duplicate Sec-WebSocket-Key header"
    pure { s with websocketKey := some (trim value), websocketHeaderSeen := true }
  else if named name "sec-websocket-version" then do
    ensure s.websocketVersion.isNone "duplicate Sec-WebSocket-Version header"
    pure { s with websocketVersion := some (trim value), websocketHeaderSeen := true }
  else if named name "sec-websocket-protocol" then do
    ensure (!s.websocketProtocolSeen) "duplicate Sec-WebSocket-Protocol header"
    pure { s with websocketProtocolSeen := true, websocketHeaderSeen := true }
  else if named name "sec-websocket-extensions" then do
    ensure (!s.websocketExtensionsSeen) "duplicate Sec-WebSocket-Extensions header"
    pure { s with websocketExtensionsSeen := true, websocketHeaderSeen := true }
  else if named name "sec-websocket-accept" then
    .error "Sec-WebSocket-Accept is forbidden in a client request"
  else pure s

/-- The branches after `is_forwarding_header`: framing, hop-by-hop and WebSocket fields, then the
line is forwarded as it came. -/
def scanForwarded (s : HeaderScan) (line name value : List Char) : Except String HeaderScan := do
  let s ← scanContentLength s name value
  if named name "connection" then scanConnection s value
  else if named name "upgrade" then scanUpgrade s value
  else
    let s ← scanWebsocket s name value
    if named name "proxy-connection" || named name "keep-alive" then pure s
    else pure { s with rewritten := s.rewritten ++ line ++ crlf }

/-- One turn of the header loop. -/
def scanHeader (s : HeaderScan) (line : List Char) : Except String HeaderScan := do
  let (name, value) ← okOr (splitOnce ':' line) "malformed request header"
  ensure (isHttpToken name) "malformed request header name"
  ensure (!invalidHeaderValue value) "malformed request header value"
  let s ← scanHost s name value
  if named name "transfer-encoding" then scanTransferEncoding s value
  else if named name "expect" then scanExpect s value
  else if isForwardingHeader name || isFoldedAliasOfProxyHeader name then pure s
  else scanForwarded s line name value

/-- The header loop: it stops at the first empty line. -/
def scanHeaders (s : HeaderScan) : List (List Char) → Except String HeaderScan
  | [] => pure s
  | [] :: _ => pure s
  | line :: rest => do
      let s ← scanHeader s line
      scanHeaders s rest

/-! ## After the loop -/

def headerHasToken (value : List Char) (expected : String) : Except String Bool :=
  let tokens := (value.splitOn ',').map trim
  if tokens.all isHttpToken then .ok (tokens.any fun token => named token expected)
  else .error "malformed comma-separated header token"

/-- Only the plain `chunked` coding: a list, a repeated coding or anything else is refused. -/
def codingIsChunked (s : HeaderScan) : Except String Bool :=
  match s.transferEncoding with
  | none => pure false
  | some value =>
    if named value "chunked" then pure true
    else .error "only Transfer-Encoding: chunked is supported"

/-- `chunked` in `request_plan`: only on HTTP/1.1 and never with a length. -/
def transferIsChunked (s : HeaderScan) (parts : RequestParts) : Except String Bool := do
  let chunked ← codingIsChunked s
  ensure (!(chunked && s.contentLength.isSome)) "Transfer-Encoding and Content-Length must not both be present"
  ensure (!(chunked && parts.version != "HTTP/1.1".toList)) "Transfer-Encoding requires HTTP/1.1"
  pure chunked

def expectsContinue (s : HeaderScan) (parts : RequestParts) : Except String Bool :=
  match s.expect with
  | none => pure false
  | some value =>
    if named value "100-continue" then pure (parts.version == "HTTP/1.1".toList)
    else .error "unsupported Expect header"

/-- The checks of the WebSocket branch; the result is the client's key. -/
def websocketKey (crypto : HandshakeCrypto) (s : HeaderScan) (parts : RequestParts)
    (chunked hasUpgrade : Bool) : Except String (List Char) := do
  ensure (parts.method == "GET".toList && parts.version == "HTTP/1.1".toList &&
      parts.target.head? == some '/') "WebSocket upgrade requires GET over HTTP/1.1"
  ensure (!(s.contentLength.isSome || chunked)) "WebSocket upgrade must not include a request body"
  ensure s.expect.isNone "WebSocket upgrade must not include Expect"
  ensure hasUpgrade "WebSocket Connection token is missing"
  ensure (s.upgrade.any (named · "websocket")) "only a WebSocket Upgrade is supported"
  ensure (s.websocketVersion == some "13".toList) "only WebSocket version 13 is supported"
  let key ← okOr s.websocketKey "Sec-WebSocket-Key is required"
  let decoded ← okOr (crypto.decodeBase64 (encodeUtf8 key)) "Sec-WebSocket-Key is invalid"
  ensure (decoded.length == 16) "Sec-WebSocket-Key is invalid"
  pure key

/-- The lines the proxy ends every forwarded head with. -/
def closingLines : RequestMode → List (List Char)
  | .webSocket _ =>
    [headerLine "Upgrade" "websocket".toList, headerLine "Connection" "Upgrade".toList]
  | .chunkedBody =>
    [headerLine "Transfer-Encoding" "chunked".toList, headerLine "Connection" "close".toList]
  | .fixedBody _ => [headerLine "Connection" "close".toList]

def RequestMode.hasBody : RequestMode → Bool
  | .fixedBody bodyLen => decide (0 < bodyLen)
  | .chunkedBody => true
  | .webSocket _ => false

def connectionHasUpgrade (s : HeaderScan) : Except String Bool :=
  match s.connection with
  | some value => headerHasToken value "upgrade"
  | none => pure false

/-- How the body is framed, from what the loop collected. -/
def requestMode (crypto : HandshakeCrypto) (s : HeaderScan) (parts : RequestParts)
    (chunked : Bool) : Except String RequestMode := do
  let hasUpgrade ← connectionHasUpgrade s
  if s.websocketHeaderSeen || s.upgrade.isSome || hasUpgrade then do
    let key ← websocketKey crypto s parts chunked hasUpgrade
    pure (.webSocket (crypto.deriveAcceptKey (encodeUtf8 key)))
  else if chunked then pure .chunkedBody
  else pure (.fixedBody (s.contentLength.getD 0))

/-- Everything `request_plan` does after the loop. -/
def finishPlan (crypto : HandshakeCrypto) (client : ClientContext) (parts : RequestParts)
    (s : HeaderScan) : Except String RequestPlan := do
  ensure (s.hostCount == 1) "exactly one Host header is required"
  let chunked ← transferIsChunked s parts
  let expectContinue ← expectsContinue s parts
  let mode ← requestMode crypto s parts chunked
  let host ← okOr s.host "Host header is empty or invalid"
  pure
    { host
      header := encodeUtf8 (s.rewritten ++ forwardingHeaders client s.hostAuthority ++
        (closingLines mode).flatMap (· ++ crlf) ++ crlf)
      mode
      expectContinue := expectContinue && mode.hasBody }

def headLines (text : List Char) : List (List Char) := splitOnPair '\r' '\n' text

def requestPlan (crypto : HandshakeCrypto) (header : List UInt8) (client : ClientContext) :
    Except String RequestPlan := do
  let text ← okOr (fromUtf8 header) "request header is not UTF-8"
  match headLines text with
  | [] => .error "missing request line"
  | [] :: _ => .error "missing request line"
  | requestLine :: lines => do
      let parts ← parseRequestLine requestLine
      ensure (!named parts.method "CONNECT") "CONNECT tunneling is disabled"
      let s ← scanHeaders { rewritten := requestLine ++ crlf } lines
      finishPlan crypto client parts s

end Nyabase.HttpProxy
