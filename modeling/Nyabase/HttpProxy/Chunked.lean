import Nyabase.HttpProxy.Request
import Nyabase.Lib.Hex
import Nyabase.Lib.Wp

/-!
# Chunked request bodies: `tools/http-proxy/src/chunked.rs`

`forward_chunked_body` decodes a chunked body as it streams in and writes it upstream with framing of
its own.  What the socket will deliver is a list of read results, so every way of cutting the stream
into reads is a value of the model.  The upstream may stop taking bytes after any number of them; what
it took stays in the state when the program fails, which is why the program runs in `EStateM`.  A
flush does nothing, as on the TCP stream the proxy writes to.

The two loops of `forward_chunked_body` are not bounded by the list of reads, since one read may hold
many chunks; they carry fuel, and `chunkLoop_fuel` and `trailerLoop_fuel` show that the fuel
`forwardChunkedBody` gives them never runs out.
-/

namespace Nyabase.HttpProxy

open Lib

/-- `MAX_CHUNK_LINE_BYTES`. -/
def maxChunkLineBytes : Nat := 4096

/-- `MAX_CHUNK_TRAILER_BYTES`. -/
def maxChunkTrailerBytes : Nat := 8192

def crlfBytes : List UInt8 := [0x0d, 0x0a]

/-! ## The client's side -/

/-- The result of one `read` on the client's socket; no bytes means that it closed. -/
inductive ReadEvent where
  | data (bytes : List UInt8)
  | failed (error : String)

/-- `Source`: the bytes `buffered[position..]` and the reads still to come. -/
structure Source where
  pending : List UInt8
  inbound : List ReadEvent

def closedInsideBody : String := "client closed the connection inside a chunked request body"

/-- What a read adds to the buffer in `fill`. -/
def ReadEvent.received : ReadEvent → Except String (List UInt8)
  | .data [] => .error closedInsideBody
  | .data bytes => .ok bytes
  | .failed error => .error error

/-- One look at the buffer in `Source::line`: `none` asks for more bytes. -/
def scanLine (max : Nat) (pending : List UInt8) : Option (Except String (List UInt8 × List UInt8)) :=
  match splitOnce 0x0a pending with
  | some (before, after) =>
    if before.getLast? ≠ some 0x0d then
      some (.error "chunked body line is not CRLF-terminated")
    else if before.dropLast.length > max then some (.error "chunked body line is too long")
    else if before.dropLast.contains 0x0d then
      some (.error "chunked body line contains a bare CR")
    else some (.ok (before.dropLast, after))
  | none =>
    if pending.length > max + 1 then some (.error "chunked body line is too long") else none

def lineLoop (max : Nat) (inbound : List ReadEvent) (pending : List UInt8) : Except String (List UInt8 × Source) :=
  match scanLine max pending, inbound with
  | some result, inbound => result.map fun (line, rest) => (line, ⟨rest, inbound⟩)
  | none, [] => .error closedInsideBody
  | none, event :: inbound => do
      let bytes ← event.received
      lineLoop max inbound (pending ++ bytes)

/-- `Source::line`: one CRLF-terminated line, without the CRLF. -/
def Source.line (max : Nat) (source : Source) : Except String (List UInt8 × Source) :=
  lineLoop max source.inbound source.pending

/-! ## The upstream's side -/

/-- What the upstream took, and how many bytes it still takes before its writes fail. -/
structure Sink where
  written : List UInt8
  room : Option Nat

/-- A program that writes upstream. -/
abbrev Forward := EStateM String Sink

/-- `AsyncWriteExt::write_all`. -/
def writeAll (bytes : List UInt8) : Forward Unit := fun sink =>
  match sink.room with
  | none => .ok () { sink with written := sink.written ++ bytes }
  | some room =>
    if bytes.length ≤ room then .ok () ⟨sink.written ++ bytes, some (room - bytes.length)⟩
    else .error "upstream write failed" ⟨sink.written ++ bytes.take room, some 0⟩

/-- `Source::copy_exact`.  Each turn writes what is buffered, up to `remaining`, and reads on when
that was not enough; writing no bytes does nothing. -/
def copyExact (inbound : List ReadEvent) (pending : List UInt8) (remaining : Nat) : Forward Source := do
  writeAll (pending.take remaining)
  if remaining ≤ pending.length then pure ⟨pending.drop remaining, inbound⟩
  else
    match inbound with
    | [] => throw closedInsideBody
    | event :: inbound => do
        let bytes ← ofResult event.received
        copyExact inbound bytes (remaining - pending.length)

/-! ## Chunk sizes and trailers -/

/-- Space and tab. -/
def isBlank (byte : UInt8) : Bool := byte == 0x20 || byte == 0x09

/-- A control character other than HTAB. -/
def isControl (byte : UInt8) : Bool := (byte < 0x20 && byte != 0x09) || byte == 0x7f

/-- `parse_chunk_size`: `chunk-size [ BWS ";" chunk-ext ]`. -/
def parseChunkSize (line : List UInt8) : Except String Nat := do
  let digits := line.takeWhile isHexDigit
  let rest := line.dropWhile isHexDigit
  ensure (!(digits.isEmpty || decide (digits.length > 16))) "invalid chunk size"
  let extension := rest.dropWhile isBlank
  ensure (rest.isEmpty || !(extension.head? != some 0x3b || extension.any isControl)) "invalid chunk extension"
  ensure (decide (hexValue digits < 2 ^ 64)) "invalid chunk size"
  pure (hexValue digits)

def validateTrailer (line : List UInt8) : Except String Unit := do
  let text ← okOr (fromUtf8 line) "malformed chunked trailer"
  let (name, value) ← okOr (splitOnce ':' text) "malformed chunked trailer"
  ensure (isHttpToken name && !invalidHeaderValue value) "malformed chunked trailer"

/-! ## The two loops -/

/-- One turn of the chunk loop, with what comes after it; `total` is the length of the data so far. -/
def chunkTurn (maxBody : Nat) (next : Source → Nat → Forward Source) (source : Source)
    (total : Nat) : Forward Source := do
  let (line, source) ← ofResult (source.line maxChunkLineBytes)
  let size ← ofResult (parseChunkSize line)
  if size = 0 then pure source
  else do
    ofResult (ensure (decide (total + size < 2 ^ 64) && decide (total + size ≤ maxBody)) "request body is too large")
    writeAll (hexBytes size ++ crlfBytes)
    let source ← copyExact source.inbound source.pending size
    let (line, source) ← ofResult (source.line 0)
    ofResult (ensure line.isEmpty "chunk data is not followed by CRLF")
    writeAll crlfBytes
    next source (total + size)

/-- The chunks up to the last-chunk line. -/
def chunkLoop (maxBody : Nat) : Nat → Source → Nat → Forward Source
  | 0, _, _ => throw "out of fuel"
  | fuel + 1, source, total => chunkTurn maxBody (chunkLoop maxBody fuel) source total

/-- One turn of the trailer loop; the empty line ends the section. -/
def trailerTurn (next : Source → Nat → Except String Source) (source : Source)
    (trailerBytes : Nat) : Except String Source := do
  let (line, source) ← source.line maxChunkTrailerBytes
  if line.isEmpty then pure source
  else do
    ensure (decide (trailerBytes + (line.length + 2) ≤ maxChunkTrailerBytes)) "chunked trailer section is too large"
    validateTrailer line
    next source (trailerBytes + (line.length + 2))

/-- The trailer lines up to the empty one. -/
def trailerLoop : Nat → Source → Nat → Except String Source
  | 0, _, _ => .error "out of fuel"
  | fuel + 1, source, trailerBytes => trailerTurn (trailerLoop fuel) source trailerBytes

/-- The bytes of the stream that a read can still deliver. -/
def streamOf : List ReadEvent → List UInt8
  | .data (byte :: bytes) :: inbound => byte :: bytes ++ streamOf inbound
  | _ => []

/-- Everything the client sent that was not consumed yet. -/
def Source.stream (source : Source) : List UInt8 := source.pending ++ streamOf source.inbound

def finalChunk : List UInt8 := [0x30, 0x0d, 0x0a, 0x0d, 0x0a]

/-- `forward_chunked_body` with so many turns at most of each of its loops. -/
def forwardWithin (turns maxBody : Nat) (initial : List UInt8) (inbound : List ReadEvent) : Forward Unit := do
  let source ← chunkLoop maxBody turns ⟨initial, inbound⟩ 0
  let source ← ofResult (trailerLoop turns source 0)
  ofResult (ensure source.pending.isEmpty "pipelined or cross-host follow-up request is forbidden")
  writeAll finalChunk

/-- `forward_chunked_body` from the bytes already read after the head and the reads to come.  Every turn of a loop
takes a line off the stream, so there are no more turns than bytes. -/
def forwardChunkedBody (maxBody : Nat) (initial : List UInt8) (inbound : List ReadEvent) : Forward Unit :=
  forwardWithin ((initial ++ streamOf inbound).length + 1) maxBody initial inbound

end Nyabase.HttpProxy
