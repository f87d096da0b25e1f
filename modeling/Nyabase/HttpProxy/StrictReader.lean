import Nyabase.HttpProxy.RequestScan

/-!
# A strict reader of request heads

The upstream's side of RFC 9112, written over bytes: lines end at CRLF, a field name is the token
before the first colon, only SP and HTAB are trimmed around a value, and the head ends at the first
empty line.  The reader knows nothing of the proxy; `strictRead_encode` says what it makes of the
UTF-8 encoding of field lines.
-/

namespace Nyabase.HttpProxy

open Lib ProxyCommon List

/-- A field as the upstream sees it. -/
structure Field where
  name : List Char
  value : List UInt8

def isOws (c : Char) : Bool := c == ' ' || c == '\t'

def isOwsByte (byte : UInt8) : Bool := byte == 0x20 || byte == 0x09

/-- `field-vchar`, SP and HTAB. -/
def isFieldByte (byte : UInt8) : Bool := byte == 0x09 || (0x20 ≤ byte && byte != 0x7f)

def readField (line : List UInt8) : Option Field := do
  let (name, value) ← splitOnce 0x3a line
  let name ← asciiText? name
  if isHttpToken name && value.all isFieldByte then some ⟨name, trimBy isOwsByte value⟩ else none

/-- The fields up to the empty line, and what follows it. -/
def readFields : List (List UInt8) → Option (List Field × List (List UInt8))
  | [] => none
  | [] :: rest => some ([], rest)
  | line :: rest => do
      let field ← readField line
      let (fields, rest) ← readFields rest
      some (field :: fields, rest)

/-- The fields of a head that ends exactly at its empty line. -/
def strictRead (bytes : List UInt8) : Option (List Field) :=
  match splitOnPair 0x0d 0x0a bytes with
  | [] => none
  | _requestLine :: lines =>
    match readFields lines with
    | some (fields, [[]]) => some fields
    | _ => none

def fieldsNamed (expected : String) (fields : List Field) : List Field :=
  fields.filter fun field => named field.name expected

/-! ## Characters of names and values -/

variable {c : Char}

theorem isAscii_of_isAlphanum (h : c.isAlphanum = true) : isAscii c = true := by
  delta Char.isAlphanum Char.isAlpha Char.isUpper Char.isLower Char.isDigit at h
  simp only [Bool.or_eq_true, Bool.and_eq_true, decide_eq_true_eq, UInt32.le_iff_toNat_le, ge_iff_le] at h
  simp only [isAscii, decide_eq_true_eq]
  have hval : c.toNat = c.val.toNat := rfl
  have hZ : 'Z'.val.toNat = 90 := rfl
  have hz : 'z'.val.toNat = 122 := rfl
  have h9 : '9'.val.toNat = 57 := rfl
  omega

/-- A token is ASCII without separators, so it holds neither a colon nor a line end. -/
theorem tokenChar {name : List Char} (h : isHttpToken name = true) (hc : c ∈ name) :
    isAscii c = true ∧ c ≠ ':' ∧ c ≠ '\r' := by
  have hchar := all_eq_true.mp (Bool.and_eq_true _ _ |>.mp h).2 c hc
  rcases Bool.or_eq_true _ _ |>.mp hchar with halnum | hmark
  · refine ⟨isAscii_of_isAlphanum halnum, ?_, ?_⟩
    · rintro rfl
      exact absurd halnum (by decide)
    · rintro rfl
      exact absurd halnum (by decide)
  · have hmarks : ∀ d ∈ "!#$%&'*+-.^_`|~".toList, isAscii d = true ∧ d ≠ ':' ∧ d ≠ '\r' := by
      simp [isAscii]
    exact hmarks c (contains_iff_mem.mp hmark)

theorem validChar {value : List Char} (h : invalidHeaderValue value = false) (hc : c ∈ value) :
    (0x20 ≤ c.toNat ∨ c = '\t') ∧ c.toNat ≠ 0x7f := by
  have hnot := any_eq_false.mp h c hc
  simp only [Bool.or_eq_true, Bool.and_eq_true, decide_eq_true_eq, bne_iff_ne, beq_iff_eq] at hnot
  refine ⟨?_, fun hdel => hnot (.inr hdel)⟩
  by_contra hlow
  simp only [not_or] at hlow
  exact hnot (.inl ⟨by omega, hlow.2⟩)

theorem FieldLine.no_cr {line : List Char} (h : FieldLine line) : '\r' ∉ line := by
  rw [h.eq]
  simp only [mem_append, mem_cons, not_or]
  refine ⟨fun hmem => (tokenChar h.token hmem).2.2 rfl, by decide, fun hmem => ?_⟩
  rcases (validChar h.valid hmem).1 with hlow | htab
  · exact absurd hlow (by decide)
  · exact absurd htab (by decide)

theorem toNat_toUInt8 (h : isAscii c = true) : c.toUInt8.toNat = c.toNat := by
  simp only [isAscii, decide_eq_true_eq, Char.toNat] at h
  simp only [Char.toUInt8, UInt32.toNat_toUInt8, Char.toNat]
  omega

/-! ## Reading encoded lines -/

theorem isFieldByte_of_mem_encodeUtf8 {value : List Char} (h : invalidHeaderValue value = false)
    {byte : UInt8} (hbyte : byte ∈ encodeUtf8 value) : isFieldByte byte = true := by
  obtain ⟨c, hc, hmem⟩ := mem_flatMap.mp hbyte
  simp only [isFieldByte, Bool.or_eq_true, beq_iff_eq, Bool.and_eq_true, decide_eq_true_eq,
    bne_iff_ne, UInt8.le_iff_toNat_le, ne_eq, ← UInt8.toNat_inj]
  cases hascii : isAscii c with
  | false =>
    have hle := UInt8.le_iff_toNat_le.mp (le_of_mem_utf8EncodeChar hascii hmem)
    simp only [UInt8.reduceToNat] at hle ⊢
    omega
  | true =>
    rw [utf8EncodeChar_ascii hascii, mem_singleton] at hmem
    obtain ⟨hlow, hdel⟩ := validChar h hc
    rw [hmem, toNat_toUInt8 hascii]
    simp only [UInt8.reduceToNat]
    rcases hlow with hlow | rfl
    · omega
    · exact .inl rfl

/-- Trimming SP and HTAB bytes trims SP and HTAB characters. -/
theorem trimBy_encodeUtf8 (value : List Char) :
    trimBy isOwsByte (encodeUtf8 value) = encodeUtf8 (trimBy isOws value) := by
  apply trimBy_flatMap
  · intro c hc
    rcases Bool.or_eq_true _ _ |>.mp hc with hc | hc
    · rw [beq_iff_eq.mp hc]
      exact all_eq_true.mp (by decide)
    · rw [beq_iff_eq.mp hc]
      exact all_eq_true.mp (by decide)
  · intro c hc
    refine ⟨String.utf8EncodeChar_ne_nil, fun byte hbyte => ?_⟩
    cases hascii : isAscii c with
    | false =>
      have hle := UInt8.le_iff_toNat_le.mp (le_of_mem_utf8EncodeChar hascii hbyte)
      simp only [isOwsByte, Bool.or_eq_false_iff, beq_eq_false_iff_ne, ne_eq, ← UInt8.toNat_inj]
      simp only [UInt8.reduceToNat] at hle ⊢
      omega
    | true =>
      rw [utf8EncodeChar_ascii hascii, mem_singleton] at hbyte
      simp only [isOws, Bool.or_eq_false_iff, beq_eq_false_iff_ne] at hc
      simp only [isOwsByte, Bool.or_eq_false_iff, beq_eq_false_iff_ne, hbyte]
      exact ⟨fun h => hc.1 (toUInt8_inj hascii (by decide) h), fun h => hc.2 (toUInt8_inj hascii (by decide) h)⟩

/-- The field the strict reader makes of a field line. -/
def strictField (line : List Char) : Field :=
  ⟨lineName line, encodeUtf8 (trimBy isOws (lineValue line))⟩

theorem readField_encode {line : List Char} (h : FieldLine line) :
    readField (encodeUtf8 line) = some (strictField line) := by
  have hcolon : (0x3a : UInt8) ∉ encodeUtf8 (lineName line) := by
    intro hmem
    have := (mem_encodeUtf8_iff (d := ':') (by decide) _).mp hmem
    exact (tokenChar h.token this).2.1 rfl
  have hencode : encodeUtf8 line = encodeUtf8 (lineName line) ++ 0x3a :: encodeUtf8 (lineValue line) := by
    conv_lhs => rw [h.eq, encodeUtf8_append]
    rfl
  have hbytes : (encodeUtf8 (lineValue line)).all isFieldByte = true :=
    all_eq_true.mpr fun byte hbyte => isFieldByte_of_mem_encodeUtf8 h.valid hbyte
  rw [readField, hencode, splitOnce_append _ hcolon]
  simp only [Option.bind_eq_bind, Option.bind_some]
  rw [asciiText?_encodeUtf8 fun c hc => (tokenChar h.token hc).1]
  simp [h.token, hbytes, trimBy_encodeUtf8, strictField]

theorem readFields_encode (lines : List (List Char)) (rest : List (List UInt8)) (h : ∀ line ∈ lines, FieldLine line) :
    readFields (lines.map encodeUtf8 ++ [] :: rest) = some (lines.map strictField, rest) := by
  induction lines with
  | nil => rfl
  | cons line lines ih =>
    have hline := h line (by simp)
    have hne : encodeUtf8 line ≠ [] := by
      intro hnil
      have := fromUtf8_encodeUtf8 line
      rw [hnil] at this
      exact hline.ne_nil (Option.some.inj ((fromUtf8_encodeUtf8 []).symm.trans this)).symm
    rw [map_cons, cons_append, readFields.eq_3 _ _ hne, readField_encode hline, ih fun l hl => h l (by simp [hl])]
    rfl

/-- A head made of terminated field lines is read back line by line. -/
theorem strictRead_encode {requestLine : List Char} {lines : List (List Char)} (hrequest : '\r' ∉ requestLine)
    (hlines : ∀ line ∈ lines, FieldLine line) :
    strictRead (encodeUtf8 ((requestLine :: lines).flatMap (· ++ crlf) ++ crlf)) = some (lines.map strictField) := by
  have hencode : encodeUtf8 ((requestLine :: lines).flatMap (· ++ crlf) ++ crlf) =
      ((requestLine :: lines).map encodeUtf8).flatMap (· ++ [0x0d, 0x0a]) ++ [0x0d, 0x0a] := by
    simp only [encodeUtf8, flatMap_append, flatMap_assoc, flatMap_map]
    rfl
  have hcr : ∀ block ∈ (requestLine :: lines).map encodeUtf8, (0x0d : UInt8) ∉ block := by
    intro block hblock hmem
    obtain ⟨line, hline, rfl⟩ := mem_map.mp hblock
    have hmem := (mem_encodeUtf8_iff (d := '\r') (by decide) line).mp hmem
    rcases mem_cons.mp hline with rfl | hline
    · exact hrequest hmem
    · exact (hlines line hline).no_cr hmem
  have hsplit : splitOnPair (0x0d : UInt8) 0x0a [0x0d, 0x0a] = [[], []] := by decide
  rw [strictRead, hencode, splitOnPair_flatMap _ _ hcr, hsplit, map_cons, cons_append]
  simp [readFields_encode lines [[]] hlines]

theorem fieldsNamed_map_strictField (expected : String) (lines : List (List Char)) :
    fieldsNamed expected (lines.map strictField) = (linesNamed expected lines).map strictField := by
  rw [fieldsNamed, filter_map]
  rfl

end Nyabase.HttpProxy
