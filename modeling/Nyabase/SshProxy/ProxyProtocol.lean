import Nyabase.Lib.Result
import Nyabase.Lib.Text
import Nyabase.ProxyCommon.IpText

/-!
# The PROXY protocol on the public listener: `tools/ssh-proxy/src/proxy_protocol.rs`

The readers take the bytes that arrive before the deadline and return, with the client they found, the bytes they
have left in the stream.  A header that is not complete by then fails the connection, whether the stream ended or
the time did.
-/

namespace Nyabase.SshProxy

open Lib ProxyCommon

structure SocketAddr where
  ip : IpAddr
  port : UInt16
  deriving DecidableEq

inductive HeaderError where
  | incomplete
  | refused (message : List Char)
  deriving DecidableEq

def refuse {α : Type} (message : String) : Except HeaderError α := .error (.refused message.toList)

def client (ip : IpAddr) (port : UInt16) : SocketAddr := ⟨ip.toCanonical, port⟩

/-- `V1_MAX_LINE` -/
def v1MaxLine : Nat := 107

/-- `V2_SIGNATURE` -/
def v2Signature : List UInt8 := [13, 10, 13, 10, 0, 13, 10, 81, 85, 73, 84, 10]

def crlf : List UInt8 := [13, 10]

/-! ## Version 1 -/

def parseDigits (digits : List Char) : Option UInt16 :=
  if digits ≠ [] ∧ digits.all (isDigitOf 10) ∧ numeralValue 10 digits < 65536 then
    some (numeralValue 10 digits).toUInt16
  else none

/-- `u16::from_str`, which takes a leading plus sign. -/
def parseU16 (text : List Char) : Option UInt16 :=
  parseDigits (if text.head? = some '+' then text.tail else text)

def parseIp (family text : List Char) : Except HeaderError IpAddr :=
  let notAnAddress : HeaderError :=
    .refused ("PROXY v1 address `".toList ++ text ++ "` is not a ".toList ++ family ++ " address".toList)
  if family = "TCP4".toList then okOr ((parseIpv4 text).map .v4) notAnAddress
  else if family = "TCP6".toList then
    match h : parseIpv6 text with
    | some segments => .ok (.v6 ⟨segments, (parseIpv6_eq_some.mp h).length⟩)
    | none => .error notAnAddress
  else .error (.refused ("PROXY v1 protocol `".toList ++ family ++ "` is not supported".toList))

def parsePort (text : List Char) : Except HeaderError UInt16 :=
  let invalid : HeaderError := .refused ("PROXY v1 port `".toList ++ text ++ "` is invalid".toList)
  if text = [] ∨ (1 < text.length ∧ text.head? = some '0') then .error invalid
  else okOr (parseU16 text) invalid

/-- `parse_v1` once the protocol is known. -/
def parseV1Addresses (family : List Char) : List (List Char) → Except HeaderError SocketAddr
  | [source, destination, sourcePort, destinationPort] => do
      let source ← parseIp family source
      let _ ← parseIp family destination
      let sourcePort ← parsePort sourcePort
      let _ ← parsePort destinationPort
      pure (client source sourcePort)
  | _ => refuse "PROXY v1 header needs four address fields"

/-- The fields of a line after `PROXY`. -/
def parseV1Fields : List (List Char) → Except HeaderError (Option SocketAddr)
  | [] => refuse "PROXY v1 header has no protocol"
  | family :: fields =>
    if family = "UNKNOWN".toList then .ok none
    else (parseV1Addresses family fields).map some

/-- `parse_v1`: a line without its CRLF. -/
def parseV1 (line : List UInt8) : Except HeaderError (Option SocketAddr) := do
  let text ← okOr (fromUtf8 line) (.refused "PROXY v1 header is not ASCII".toList)
  match text.splitOn ' ' with
  | first :: fields => if first = "PROXY".toList then parseV1Fields fields else refuse "not a PROXY v1 header"
  | [] => refuse "not a PROXY v1 header"

/-- The loop of `read_v1`, which reads the stream byte by byte. -/
def readV1Line : (line stream : List UInt8) → Except HeaderError (List UInt8 × List UInt8)
  | line, [] =>
    if crlf <:+ line then .ok (line, [])
    else if line.length = v1MaxLine then refuse "PROXY v1 header longer than 107 bytes"
    else .error .incomplete
  | line, byte :: stream =>
    if crlf <:+ line then .ok (line, byte :: stream)
    else if line.length = v1MaxLine then refuse "PROXY v1 header longer than 107 bytes"
    else readV1Line (line ++ [byte]) stream

def readV1 (stream : List UInt8) : Except HeaderError (Option SocketAddr × List UInt8) := do
  let (line, rest) ← readV1Line [] stream
  let found ← parseV1 (line.take (line.length - 2))
  pure (found, rest)

/-! ## Version 2 -/

/-- `AsyncReadExt::read_exact`. -/
def readExact (count : Nat) (stream : List UInt8) : Except HeaderError (List UInt8 × List UInt8) :=
  if stream.length < count then .error .incomplete else .ok (stream.take count, stream.drop count)

/-- The IPv4 address in four bytes. -/
def octetsAt (bytes : List UInt8) : Octets :=
  (bytes.getD 0 0, bytes.getD 1 0, bytes.getD 2 0, bytes.getD 3 0)

/-- The IPv6 address in sixteen bytes. -/
def segmentsAt (bytes : List UInt8) : { segments : List UInt16 // segments.length = 8 } :=
  ⟨(List.range 8).map fun index => fromBeBytes (bytes.getD (2 * index) 0) (bytes.getD (2 * index + 1) 0), by simp⟩

def portAt (bytes : List UInt8) : UInt16 := fromBeBytes (bytes.getD 0 0) (bytes.getD 1 0)

/-- The addresses of a PROXY command, by the address family. -/
def parseV2Addresses (family : UInt8) (body : List UInt8) : Except HeaderError (Option SocketAddr) :=
  if family = 0x1 then
    if body.length < 12 then refuse "PROXY v2 IPv4 addresses are truncated"
    else .ok (some (client (.v4 (octetsAt body)) (portAt (body.drop 8))))
  else if family = 0x2 then
    if body.length < 36 then refuse "PROXY v2 IPv6 addresses are truncated"
    else .ok (some (client (.v6 (segmentsAt body)) (portAt (body.drop 32))))
  else if family = 0x0 ∨ family = 0x3 then .ok none
  else .error (.refused ("PROXY v2 address family ".toList ++ Nat.toDigits 10 family.toNat ++
    " is not supported".toList))

/-- `parse_v2`: the sixteen bytes before the body, and the body. -/
def parseV2 (fixed body : List UInt8) : Except HeaderError (Option SocketAddr) :=
  let version := fixed.getD 12 0 >>> 4
  let command := fixed.getD 12 0 &&& 0x0f
  if fixed.take 12 ≠ v2Signature then refuse "not a PROXY v2 header"
  else if version ≠ 2 then
    .error (.refused ("PROXY v2 header has version ".toList ++ Nat.toDigits 10 version.toNat))
  else if command = 0x0 then .ok none
  else if command = 0x1 then parseV2Addresses (fixed.getD 13 0 >>> 4) body
  else .error (.refused ("PROXY v2 command ".toList ++ Nat.toDigits 10 command.toNat ++ " is not supported".toList))

def readV2 (stream : List UInt8) : Except HeaderError (Option SocketAddr × List UInt8) := do
  let (fixed, rest) ← readExact 16 stream
  let (body, rest) ← readExact (fromBeBytes (fixed.getD 14 0) (fixed.getD 15 0)).toNat rest
  let found ← parseV2 fixed body
  pure (found, rest)

/-! ## The listener -/

/-- `read_client_address`: the first byte is looked at without being taken. -/
def readClientAddress (peer : SocketAddr) (stream : List UInt8) : Except HeaderError (SocketAddr × List UInt8) :=
  match stream.head? with
  | none => .ok (peer, stream)
  | some first =>
    if first = 80 then (readV1 stream).map fun (found, rest) => (found.getD peer, rest)
    else if first = 13 then (readV2 stream).map fun (found, rest) => (found.getD peer, rest)
    else .ok (peer, stream)

/-- The client of a header that names this source. -/
def SocketAddr.toClient (source : SocketAddr) : SocketAddr := client source.ip source.port

/-! ## The headers of the specification -/

inductive V1Family where
  | tcp4 | tcp6

def V1Family.text : V1Family → List Char
  | .tcp4 => "TCP4".toList
  | .tcp6 => "TCP6".toList

/-- An address of the family and a text of it. -/
def V1Address : V1Family → IpAddr → List Char → Prop
  | .tcp4, .v4 octets, text => text = displayIpv4 octets
  | .tcp6, .v6 segments, text => Ipv6Text segments.val text
  | _, _, _ => False

def portText (port : UInt16) : List Char := Nat.toDigits 10 port.toNat

/-- One end of a connection in a line: an address of the family and a port, with a text of each. -/
structure V1End (family : V1Family) (IsPort : List Char → UInt16 → Prop) where
  address : SocketAddr
  ipText : List Char
  portText : List Char
  ipOf : V1Address family address.ip ipText
  portOf : IsPort portText address.port

section

variable {family : V1Family} {IsPort : List Char → UInt16 → Prop}

/-- The fields of the line of a connection from one end to the other. -/
def V1End.fields (source destination : V1End family IsPort) : List (List Char) :=
  ["PROXY".toList, family.text, source.ipText, destination.ipText, source.portText, destination.portText]

def V1End.line (source destination : V1End family IsPort) : List Char := [' '].intercalate (source.fields destination)

/-- Lines of version 1 and the source they name, by what is a port and what may follow `UNKNOWN`. -/
inductive V1LineOf (IsPort : List Char → UInt16 → Prop) (IsIgnored : List UInt8 → Prop) :
    List UInt8 → Option SocketAddr → Prop where
  | proxied {family : V1Family} (source destination : V1End family IsPort) :
      V1LineOf IsPort IsIgnored (encodeUtf8 (source.line destination)) (some source.address)
  | unknown : V1LineOf IsPort IsIgnored (encodeUtf8 "PROXY UNKNOWN".toList) none
  | ignored {rest : List UInt8} (ignored : IsIgnored rest) :
      V1LineOf IsPort IsIgnored (encodeUtf8 "PROXY UNKNOWN ".toList ++ rest) none

end

def PlainPort (text : List Char) (port : UInt16) : Prop := text = portText port

/-- The lines of version 1.  What follows `UNKNOWN` is to be ignored, whatever it is. -/
def V1Line : List UInt8 → Option SocketAddr → Prop := V1LineOf PlainPort fun _ => True

/-- A header of version 1: a line up to the first CRLF, of 107 bytes at most. -/
def V1Header (header : List UInt8) (source : Option SocketAddr) : Prop :=
  ∃ line, header = line ++ crlf ∧ ¬ crlf <:+: line ∧ header.length ≤ v1MaxLine ∧ V1Line line source

def v4Bytes (octets : Octets) : List UInt8 :=
  [octets.1, octets.2.1, octets.2.2.1, octets.2.2.2]

def beBytes (value : UInt16) : List UInt8 := [(value >>> 8).toUInt8, value.toUInt8]

def v6Bytes (segments : List UInt16) : List UInt8 := segments.flatMap beBytes

/-- The body of a PROXY command: addresses and ports of the family, then extensions.  The transport protocol is
unspecified, a stream or datagrams. -/
inductive V2Body : UInt8 → List UInt8 → Option SocketAddr → Prop where
  | unspecified (body : List UInt8) : V2Body 0x0 body none
  | inet (source destination : Octets) (sourcePort destinationPort : UInt16)
      (extensions : List UInt8) :
      V2Body 0x1 (v4Bytes source ++ v4Bytes destination ++ beBytes sourcePort ++ beBytes destinationPort ++ extensions)
        (some ⟨.v4 source, sourcePort⟩)
  | inet6 (source destination : { segments : List UInt16 // segments.length = 8 })
      (sourcePort destinationPort : UInt16) (extensions : List UInt8) :
      V2Body 0x2 (v6Bytes source.val ++ v6Bytes destination.val ++ beBytes sourcePort ++ beBytes destinationPort ++
        extensions) (some ⟨.v6 source, sourcePort⟩)
  | unix (body : List UInt8) (addresses : 216 ≤ body.length) : V2Body 0x3 body none

/-- A header of version 2 and the source it names; the rest of a LOCAL command is to be ignored. -/
inductive V2Header : List UInt8 → Option SocketAddr → Prop where
  | localCommand (protocol : UInt8) (length : UInt16) (body : List UInt8) (all : body.length = length.toNat) :
      V2Header (v2Signature ++ [0x20, protocol] ++ beBytes length ++ body) none
  | proxyCommand {protocol : UInt8} {length : UInt16} {body : List UInt8} {source : Option SocketAddr}
      (transport : protocol &&& 0x0f ≤ 2) (bodyOf : V2Body (protocol >>> 4) body source)
      (all : body.length = length.toNat) :
      V2Header (v2Signature ++ [0x21, protocol] ++ beBytes length ++ body) source

/-! ## The encoders of the specification -/

/-- The header a relay writes for two addresses of one family. -/
def encodeV1 (family : V1Family) (source destination : IpAddr) (sourcePort destinationPort : UInt16) : List UInt8 :=
  encodeUtf8 ([' '].intercalate ["PROXY".toList, family.text, source.display, destination.display,
    portText sourcePort, portText destinationPort]) ++ crlf

/-- The header a relay writes for a body. -/
def encodeV2 (protocol : UInt8) (body : List UInt8) : List UInt8 :=
  v2Signature ++ [0x21, protocol] ++ beBytes body.length.toUInt16 ++ body

end Nyabase.SshProxy
