import Nyabase.HttpProxy.Chunked
import Nyabase.HttpProxy.StrictReader

/-!
# Chunked messages

The grammar of RFC 9112 §7.1 as relations on bytes: a message is a list of chunks, a last-chunk line
and a trailer section.  It is stated over what may follow a chunk size, since the decoder lets more
pass there than the RFC's `chunk-ext`; a recipient ignores extensions, so they carry no payload.

The one result here is that the grammar is prefix-free with unique reading
(`ChunkedMessage.unique`): a byte string starts with at most one message, of one list of chunks.
-/

namespace Nyabase.HttpProxy

open Lib List

/-! ## Extensions -/

/-- What the decoder lets follow a chunk size: nothing, or blanks, a semicolon and no control
character. -/
def IsExtension (ext : List UInt8) : Prop :=
  ext = [] ∨ ((ext.dropWhile isBlank).head? = some 0x3b ∧ ∀ byte ∈ ext, isControl byte = false)

/-- A `token` of bytes. -/
def IsTokenBytes (bytes : List UInt8) : Prop :=
  ∃ name, asciiText? bytes = some name ∧ isHttpToken name = true

/-- The inside of a `quoted-string`: `qdtext` and `quoted-pair`s. -/
inductive QuotedText : List UInt8 → Prop
  | nil : QuotedText []
  | qdtext {byte : UInt8} {rest : List UInt8} : isControl byte = false → byte ≠ 0x22 →
      byte ≠ 0x5c → QuotedText rest → QuotedText (byte :: rest)
  | pair {byte : UInt8} {rest : List UInt8} : isControl byte = false → QuotedText rest →
      QuotedText (0x5c :: byte :: rest)

/-- `[ BWS "=" BWS chunk-ext-val ]`. -/
inductive ChunkExtValue : List UInt8 → Prop
  | none : ChunkExtValue []
  | token {left right value : List UInt8} : left.all isBlank = true → right.all isBlank = true →
      IsTokenBytes value → ChunkExtValue (left ++ 0x3d :: (right ++ value))
  | quoted {left right text : List UInt8} : left.all isBlank = true → right.all isBlank = true →
      QuotedText text → ChunkExtValue (left ++ 0x3d :: (right ++ 0x22 :: (text ++ [0x22])))

/-- `chunk-ext` of RFC 9112 §7.1.1. -/
inductive ChunkExt : List UInt8 → Prop
  | nil : ChunkExt []
  | cons {left right name value rest : List UInt8} : left.all isBlank = true →
      right.all isBlank = true → IsTokenBytes name → ChunkExtValue value → ChunkExt rest →
      ChunkExt (left ++ 0x3b :: (right ++ (name ++ (value ++ rest))))

theorem isControl_of_isBlank {byte : UInt8} (h : isBlank byte = true) : isControl byte = false := by
  simp only [isBlank, Bool.or_eq_true, beq_iff_eq] at h
  rcases h with rfl | rfl
  · decide
  · decide

theorem isControl_of_blanks {blanks : List UInt8} (h : blanks.all isBlank = true) :
    ∀ byte ∈ blanks, isControl byte = false := fun byte hbyte =>
  isControl_of_isBlank (all_eq_true.mp h byte hbyte)

variable {bytes ext line rest rest' : List UInt8} {size : Nat} {chunks chunks' : List (List UInt8)}

/-- The bytes of a token are visible ASCII. -/
theorem IsTokenBytes.isControl (h : IsTokenBytes bytes) {byte : UInt8} (hbyte : byte ∈ bytes) :
    isControl byte = false := by
  obtain ⟨name, hname, htoken⟩ := h
  have hmap : name = bytes.map Char.ofUInt8 ∧ bytes.all (· < 128) = true := by
    obtain ⟨hall, hname⟩ := Option.ite_none_right_eq_some.mp hname
    exact ⟨(Option.some.inj hname).symm, hall⟩
  have hlt := all_eq_true.mp hmap.2 byte hbyte
  have hmem : Char.ofUInt8 byte ∈ name := by
    rw [hmap.1]
    exact mem_map_of_mem hbyte
  have hchar := all_eq_true.mp (Bool.and_eq_true _ _ |>.mp htoken).2 _ hmem
  have hall : ∀ byte : Fin 256, decide (UInt8.ofFin byte < 128) = true →
      ((Char.ofUInt8 (UInt8.ofFin byte)).isAlphanum ||
        "!#$%&'*+-.^_`|~".toList.contains (Char.ofUInt8 (UInt8.ofFin byte))) = true →
      HttpProxy.isControl (UInt8.ofFin byte) = false := by
    decide +kernel
  exact hall byte.toFin hlt hchar

theorem QuotedText.isControl {text : List UInt8} (h : QuotedText text) : ∀ byte ∈ text, isControl byte = false := by
  induction h with
  | nil => simp
  | qdtext hbyte _ _ _ ih => exact forall_mem_cons.mpr ⟨hbyte, ih⟩
  | pair hbyte _ ih =>
    simp only [forall_mem_cons]
    exact ⟨by decide, hbyte, ih⟩

theorem ChunkExtValue.isControl {value : List UInt8} (h : ChunkExtValue value) :
    ∀ byte ∈ value, isControl byte = false := by
  cases h with
  | none => simp
  | token hleft hright hvalue =>
    simp only [forall_mem_append, forall_mem_cons]
    exact ⟨isControl_of_blanks hleft, by decide, isControl_of_blanks hright, fun _ => hvalue.isControl⟩
  | quoted hleft hright htext =>
    simp only [forall_mem_append, forall_mem_cons]
    exact ⟨isControl_of_blanks hleft, by decide, isControl_of_blanks hright, by decide, htext.isControl,
      by decide, by simp⟩

theorem ChunkExt.isControl (h : ChunkExt ext) : ∀ byte ∈ ext, isControl byte = false := by
  induction h with
  | nil => simp
  | cons hleft hright hname hvalue _ ih =>
    simp only [forall_mem_append, forall_mem_cons]
    exact ⟨isControl_of_blanks hleft, by decide, isControl_of_blanks hright, fun _ => hname.isControl,
      hvalue.isControl, ih⟩

/-- Every extension of the RFC passes the decoder. -/
theorem ChunkExt.isExtension (h : ChunkExt ext) : IsExtension ext := by
  have hcontrol := h.isControl
  cases h with
  | nil => exact .inl rfl
  | cons hleft _ _ _ _ =>
    refine .inr ⟨?_, hcontrol⟩
    rw [dropWhile_append_of_pos (all_eq_true.mp hleft)]
    rfl

/-! ## Messages -/

/-- `chunk-size` and what follows it, for a given kind of extension. -/
def SizeLine (Ext : List UInt8 → Prop) (line : List UInt8) (size : Nat) : Prop :=
  ∃ digits ext, line = digits ++ ext ∧ digits ≠ [] ∧ digits.all isHexDigit = true ∧ hexValue digits = size ∧ Ext ext

/-- The chunks of a message, up to and including its last-chunk line. -/
inductive ChunkLines (Ext : List UInt8 → Prop) : List (List UInt8) → List UInt8 → Prop
  | last {line : List UInt8} : SizeLine Ext line 0 → ChunkLines Ext [] (line ++ crlfBytes)
  | chunk {line data bytes : List UInt8} {chunks : List (List UInt8)} :
      SizeLine Ext line data.length → data ≠ [] → ChunkLines Ext chunks bytes →
      ChunkLines Ext (data :: chunks) (line ++ (crlfBytes ++ (data ++ (crlfBytes ++ bytes))))

/-- A `field-line` of the trailer section. -/
def IsTrailer (line : List UInt8) : Prop := (readField line).isSome = true

/-- The lines of a trailer section and the empty line that ends the message. -/
def trailerSection (trailers : List (List UInt8)) : List UInt8 :=
  trailers.flatMap (· ++ crlfBytes) ++ crlfBytes

/-- A complete chunked message with these chunks. -/
def ChunkedMessage (Ext : List UInt8 → Prop) (chunks : List (List UInt8)) (bytes : List UInt8) : Prop :=
  ∃ head trailers, ChunkLines Ext chunks head ∧ (∀ line ∈ trailers, IsTrailer line) ∧
    bytes = head ++ trailerSection trailers

theorem SizeLine.mono {Ext Ext' : List UInt8 → Prop} (hext : ∀ ext, Ext ext → Ext' ext) (h : SizeLine Ext line size) :
    SizeLine Ext' line size := by
  obtain ⟨digits, ext, hline, hne, hdigits, hsize, hExt⟩ := h
  exact ⟨digits, ext, hline, hne, hdigits, hsize, hext ext hExt⟩

theorem ChunkLines.mono {Ext Ext' : List UInt8 → Prop} (hext : ∀ ext, Ext ext → Ext' ext)
    (h : ChunkLines Ext chunks bytes) : ChunkLines Ext' chunks bytes := by
  induction h with
  | last hline => exact .last (hline.mono hext)
  | chunk hline hne _ ih => exact .chunk (hline.mono hext) hne ih

/-- A message of the RFC is one for the decoder. -/
theorem ChunkedMessage.isExtension (h : ChunkedMessage ChunkExt chunks bytes) :
    ChunkedMessage IsExtension chunks bytes := by
  obtain ⟨head, trailers, hhead, htrailers, hbytes⟩ := h
  exact ⟨head, trailers, hhead.mono fun _ hext => hext.isExtension, htrailers, hbytes⟩

/-! ## Unique reading -/

/-- A line without CR is delimited by the CRLF after it. -/
theorem append_crlf_inj {line' : List UInt8} (h : (0x0d : UInt8) ∉ line) (h' : (0x0d : UInt8) ∉ line')
    (heq : line ++ (crlfBytes ++ rest) = line' ++ (crlfBytes ++ rest')) : line = line' ∧ rest = rest' := by
  have hsplit := splitOnce_append (0x0a :: rest) h
  have hsplit' := splitOnce_append (0x0a :: rest') h'
  have hsame : line ++ 0x0d :: (0x0a :: rest) = line' ++ 0x0d :: (0x0a :: rest') := heq
  rw [hsame, hsplit'] at hsplit
  obtain ⟨hline, hrest⟩ := Prod.mk.inj (Option.some.inj hsplit)
  exact ⟨hline.symm, (List.cons.inj hrest).2.symm⟩

section

variable (h : SizeLine IsExtension line size)

include h

theorem SizeLine.no_cr : (0x0d : UInt8) ∉ line := by
  obtain ⟨digits, ext, rfl, -, hdigits, -, hext⟩ := h
  intro hmem
  rcases mem_append.mp hmem with hmem | hmem
  · exact absurd (all_eq_true.mp hdigits _ hmem) (by decide)
  · rcases hext with rfl | ⟨-, hcontrol⟩
    · exact absurd hmem (by simp)
    · exact absurd (hcontrol _ hmem) (by decide)

omit h in
/-- What follows the digits does not start with a digit. -/
theorem IsExtension.takeWhile (h : IsExtension ext) : ext.takeWhile isHexDigit = [] := by
  cases ext with
  | nil => rfl
  | cons byte ext =>
    rcases h with h | ⟨hhead, -⟩
    · exact absurd h (by simp)
    have hnot : isHexDigit byte = false := by
      by_cases hblank : isBlank byte = true
      · simp only [isBlank, Bool.or_eq_true, beq_iff_eq] at hblank
        rcases hblank with rfl | rfl
        · decide
        · decide
      · rw [dropWhile_cons_of_neg hblank, List.head?_cons] at hhead
        rw [Option.some.inj hhead]
        decide
    rw [takeWhile_cons_of_neg (by simp [hnot])]

theorem SizeLine.takeWhile : hexValue (line.takeWhile isHexDigit) = size := by
  obtain ⟨digits, ext, rfl, -, hdigits, hsize, hext⟩ := h
  rw [takeWhile_append_of_pos (all_eq_true.mp hdigits), hext.takeWhile, append_nil, hsize]

theorem SizeLine.size_unique {size' : Nat} (h' : SizeLine IsExtension line size') : size = size' :=
  h.takeWhile.symm.trans h'.takeWhile

end

theorem IsTrailer.ne_nil (h : IsTrailer line) : line ≠ [] := by
  rintro rfl
  exact absurd (show (readField []).isSome = true from h) (by decide)

theorem IsTrailer.no_cr (h : IsTrailer line) : (0x0d : UInt8) ∉ line := by
  obtain ⟨field, hfield⟩ := Option.isSome_iff_exists.mp h
  obtain ⟨⟨name, value⟩, hsplit, hfield⟩ := Option.bind_eq_some_iff.mp hfield
  obtain ⟨text, htext, hfield⟩ := Option.bind_eq_some_iff.mp hfield
  split at hfield
  swap
  · exact absurd hfield (by simp)
  rename_i hvalid
  obtain ⟨htoken, hvalue⟩ := Bool.and_eq_true _ _ |>.mp hvalid
  rw [(splitOnce_eq_some_iff.mp hsplit).1]
  simp only [mem_append, mem_cons, not_or]
  refine ⟨fun hmem => ?_, by decide, fun hmem => ?_⟩
  · exact absurd (IsTokenBytes.isControl ⟨text, htext, htoken⟩ hmem) (by decide)
  · exact absurd (all_eq_true.mp hvalue _ hmem) (by decide)

/-- One list of chunks and one end: by induction on the chunks, each size line delimits itself and
fixes the length of the data after it. -/
theorem ChunkLines.unique {bytes' : List UInt8} (h : ChunkLines IsExtension chunks bytes)
    (h' : ChunkLines IsExtension chunks' bytes') (heq : bytes ++ rest = bytes' ++ rest') :
    chunks = chunks' ∧ rest = rest' := by
  induction h generalizing chunks' bytes' with
  | last hline =>
    cases h' with
    | last hline' =>
      simp only [append_assoc] at heq
      exact ⟨rfl, (append_crlf_inj hline.no_cr hline'.no_cr heq).2⟩
    | chunk hline' hne _ =>
      simp only [append_assoc] at heq
      obtain ⟨rfl, -⟩ := append_crlf_inj hline.no_cr hline'.no_cr heq
      exact absurd (length_eq_zero_iff.mp (hline'.size_unique hline)) hne
  | chunk hline hne _ ih =>
    cases h' with
    | last hline' =>
      simp only [append_assoc] at heq
      obtain ⟨rfl, -⟩ := append_crlf_inj hline.no_cr hline'.no_cr heq
      exact absurd (length_eq_zero_iff.mp (hline.size_unique hline')) hne
    | chunk hline' _ hchunks' =>
      simp only [append_assoc] at heq
      obtain ⟨rfl, hdata⟩ := append_crlf_inj hline.no_cr hline'.no_cr heq
      obtain ⟨rfl, hrest⟩ := append_inj hdata (hline.size_unique hline')
      obtain ⟨rfl, hend⟩ := ih hchunks' (append_cancel_left hrest)
      exact ⟨rfl, hend⟩

/-- The lines of two sections end together: a trailer is not empty, as the line after the last one is. -/
theorem trailerSection_unique {trailers trailers' : List (List UInt8)} (h : ∀ line ∈ trailers, IsTrailer line)
    (h' : ∀ line ∈ trailers', IsTrailer line)
    (heq : trailerSection trailers ++ rest = trailerSection trailers' ++ rest') : rest = rest' := by
  unfold trailerSection at heq
  induction trailers generalizing trailers' with
  | nil =>
    cases trailers' with
    | nil => simpa using heq
    | cons line' trailers' =>
      have hline' := h' line' (by simp)
      simp only [flatMap_cons, append_assoc] at heq
      exact absurd (@append_crlf_inj [] _ _ _ not_mem_nil hline'.no_cr heq).1.symm hline'.ne_nil
  | cons line trailers ih =>
    have hline := h line (by simp)
    simp only [flatMap_cons, append_assoc] at heq
    cases trailers' with
    | nil => exact absurd (@append_crlf_inj _ _ _ [] hline.no_cr not_mem_nil heq).1 hline.ne_nil
    | cons line' trailers' =>
      simp only [flatMap_cons, append_assoc] at heq
      have htail := (append_crlf_inj hline.no_cr (h' line' (by simp)).no_cr heq).2
      exact ih (forall_mem_cons.mp h).2 (forall_mem_cons.mp h').2 (by simpa using htail)

/-- A byte string starts with at most one chunked message. -/
theorem ChunkedMessage.unique {bytes' : List UInt8} (h : ChunkedMessage IsExtension chunks bytes)
    (h' : ChunkedMessage IsExtension chunks' bytes') (heq : bytes ++ rest = bytes' ++ rest') :
    chunks = chunks' ∧ rest = rest' := by
  obtain ⟨head, trailers, hhead, htrailers, rfl⟩ := h
  obtain ⟨head', trailers', hhead', htrailers', rfl⟩ := h'
  simp only [append_assoc] at heq
  obtain ⟨hchunks, htail⟩ := hhead.unique hhead' heq
  exact ⟨hchunks, trailerSection_unique htrailers htrailers' htail⟩

end Nyabase.HttpProxy
