import Nyabase.Common.Protocol
import Nyabase.Lib.AsciiCase
import Nyabase.Lib.Text

/-!
# Incus API paths: `parseIncusPath` of `packages/agent/src/policy.ts`

The agent reads a path once to judge the request and forwards it as it was given.  Segments are decoded
with `decodeURIComponent`; the query is read with `URLSearchParams`, whose keys and values are kept here
as the bytes they decode to (they are compared with ASCII names only).
-/

namespace Nyabase.Agent

open Lib Common String

/-! ## Percent decoding -/

def hexDigit? (c : Char) : Option Nat :=
  if isDigit c then some (c.toNat - '0'.toNat)
  else if 'a' ≤ c && c ≤ 'f' then some (c.toNat - 'a'.toNat + 10)
  else if 'A' ≤ c && c ≤ 'F' then some (c.toNat - 'A'.toNat + 10)
  else none

/-- The byte of a `%XX` escape. -/
def escapedByte? (high low : Char) : Option UInt8 := do
  let high ← hexDigit? high
  let low ← hexDigit? low
  return (16 * high + low).toUInt8

/-- The bytes of a percent-encoded text; `none` on an escape that is not `%XX`. -/
def percentDecode : List Char → Option (List UInt8)
  | [] => some []
  | '%' :: high :: low :: rest => do
      let byte ← escapedByte? high low
      let bytes ← percentDecode rest
      return byte :: bytes
  | '%' :: _ => none
  | c :: rest => do
      let bytes ← percentDecode rest
      return utf8EncodeChar c ++ bytes

/-- `decodeURIComponent`, `none` when it throws.  An escaped run has to be UTF-8 of its own; since the
bytes of a plain character never continue a sequence, that is UTF-8 of the whole. -/
def decodeURIComponent (text : List Char) : Option String :=
  ((percentDecode text).bind fromUtf8).map ofList

/-- The characters `encodeURIComponent` leaves as they are. -/
def isUnreserved (c : Char) : Bool :=
  isDigit c || ('a' ≤ c && c ≤ 'z') || ('A' ≤ c && c ≤ 'Z') || ['-', '_', '.', '!', '~', '*', '\'', '(', ')'].contains c

def upperHexDigit (n : Nat) : Char := if n < 10 then Char.ofNat (48 + n) else Char.ofNat (55 + n)

def encodeURIComponent (text : String) : String :=
  ofList <| text.toList.flatMap fun c =>
    if isUnreserved c then [c]
    else (utf8EncodeChar c).flatMap fun byte =>
      ['%', upperHexDigit (byte.toNat / 16), upperHexDigit (byte.toNat % 16)]

/-- The bytes of a form-encoded text: `+` is a blank, an escape that is not `%XX` stands for itself. -/
def formDecode : List Char → List UInt8
  | [] => []
  | '+' :: rest => 0x20 :: formDecode rest
  | '%' :: high :: low :: rest =>
    match escapedByte? high low with
    | some byte => byte :: formDecode rest
    | none => 0x25 :: formDecode (high :: low :: rest)
  | c :: rest => utf8EncodeChar c ++ formDecode rest

/-- The pairs `new URLSearchParams` reads off a query without its `?`. -/
def urlSearchParams (query : List Char) : List (List UInt8 × List UInt8) :=
  ((query.splitOn '&').filter fun part => part != []).map fun part =>
    match splitOnce '=' part with
    | some (key, value) => (formDecode key, formDecode value)
    | none => (formDecode part, [])

/-! ## Reading a path -/

/-- `ALLOWED_QUERY_KEYS`. -/
def allowedQueryKeys : List String := ["recursion", "path", "timeout", "secret", "project"]

def utf8Of (text : String) : List UInt8 := encodeUtf8 text.toList

def queryPairAllowed (pair : List UInt8 × List UInt8) : Bool :=
  (allowedQueryKeys.any fun key => utf8Of key == pair.1) && (pair.1 != utf8Of "project" || pair.2 == utf8Of "default")

structure ParsedPath where
  segments : List String
  query : List (List UInt8 × List UInt8)

/-- `/[\u0000-\u001f\u007f\\#]/`. -/
def refusedPathChar (c : Char) : Bool :=
  c.toNat ≤ 0x1f || c.toNat == 0x7f || c == '\\' || c == '#'

/-- `/%2e|%5c|%00/i`. -/
def refusedEscape (rawPath : List Char) : Bool :=
  (lower rawPath).tails.any fun tail =>
    ["%2e", "%5c", "%00"].any fun escape => escape.toList.isPrefixOf tail

def hasDotSegment (path : List Char) : Bool :=
  (path.splitOn '/').any fun segment => segment == ['.'] || segment == ['.', '.']

/-- Split and decode an Incus API path; `none` when it is refused. -/
def parseIncusPath (path : String) : Option ParsedPath :=
  match path.toList.splitOn '?' with
  | [] => none
  | rawPath :: rest =>
    if 1 < rest.length || !("/1.0".toList.isPrefixOf rawPath) || path.toList.any refusedPathChar ||
        refusedEscape rawPath || hasDotSegment rawPath ||
        (rawPath.tails.any fun tail => ['/', '/'].isPrefixOf tail) then
      none
    else do
      let segments ← ((rawPath.splitOn '/').drop 1).mapM decodeURIComponent
      let query := urlSearchParams (rest.headD [])
      if query.all queryPairAllowed then some { segments, query } else none

/-! ## Names that need no encoding -/

theorem isUnreserved_of_isLowerHex {c : Char} (h : isLowerHex c = true) : isUnreserved c = true := by
  simp only [isLowerHex, isDigit, Bool.or_eq_true, Bool.and_eq_true, decide_eq_true_eq] at h
  simp only [isUnreserved, isDigit, Bool.or_eq_true, Bool.and_eq_true, decide_eq_true_eq]
  obtain h | ⟨hlow, hhigh⟩ := h
  · exact .inl (.inl (.inl h))
  · have hz : 'f' ≤ 'z' := by decide
    exact .inl (.inl (.inr ⟨hlow, Char.le_trans hhigh hz⟩))

theorem encodeURIComponent_eq_self {text : String} (h : ∀ c ∈ text.toList, isUnreserved c = true) :
    encodeURIComponent text = text := by
  have hflat : ∀ chars : List Char, (∀ c ∈ chars, isUnreserved c = true) → (chars.flatMap fun c =>
        if isUnreserved c then [c]
        else (utf8EncodeChar c).flatMap fun byte =>
          ['%', upperHexDigit (byte.toNat / 16), upperHexDigit (byte.toNat % 16)]) = chars := by
    intro chars hchars
    induction chars with
    | nil => rfl
    | cons c chars ih =>
      rw [List.flatMap_cons, if_pos (hchars c List.mem_cons_self), ih fun d hd => hchars d (List.mem_cons_of_mem c hd)]
      rfl
  rw [encodeURIComponent, hflat text.toList h, ofList_toList]

/-- An encoding without `%` is the text itself. -/
theorem encodeURIComponent_of_no_percent {text : String} (h : '%' ∉ (encodeURIComponent text).toList) :
    encodeURIComponent text = text := by
  apply encodeURIComponent_eq_self
  intro c hc
  by_contra hreserved
  apply h
  rw [encodeURIComponent, toList_ofList, List.mem_flatMap]
  refine ⟨c, hc, ?_⟩
  rw [if_neg hreserved, List.mem_flatMap]
  -- every byte of a reserved character is written as an escape, and there is at least one
  obtain ⟨byte, hbyte⟩ := List.exists_mem_of_ne_nil (utf8EncodeChar c) utf8EncodeChar_ne_nil
  exact ⟨byte, hbyte, List.mem_cons_self⟩

end Nyabase.Agent
