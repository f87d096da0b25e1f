import Nyabase.HttpProxy.StrictReader
import Nyabase.ProxyCommon.IpText

/-!
# The framing the upstream sees

The proxy decides how a request body is framed and forwards the head.  Here the head it wrote is read
by the strict reader: the upstream sees one Host with the hostname the proxy routed by, the body
framing the proxy itself will use, and the Connection field the proxy wrote.

There is one gap.  The proxy trims header values with Unicode white space, the upstream trims SP and
HTAB only, and the Host and Content-Length lines are forwarded as the client sent them.  The two
readings agree exactly when those values are padded with SP and HTAB alone (`PaddingIsOws`).
-/

namespace Nyabase.HttpProxy

open Lib ProxyCommon List

/-! ## What the upstream should see -/

/-- The hostname of a Host value as the strict reader trimmed it. -/
def hostnameOf (value : List UInt8) : Option (List Char) :=
  (asciiText? value).bind fun text => (normalizeAuthority text).toOption

/-- The number a plain digit string writes. -/
def plainDigits (value : List UInt8) : Option Nat :=
  (asciiText? value).bind fun text =>
    if !text.isEmpty && text.all Char.isDigit then some (Nat.ofDigitChars 10 text 0) else none

/-- The Connection option the proxy writes for a request of this mode. -/
def connectionOption : RequestMode → List Char
  | .webSocket _ => "Upgrade".toList
  | _ => "close".toList

/-- The body framing of the fields agrees with the mode. -/
def FramesBody (fields : List Field) : RequestMode → Prop
  | .fixedBody n =>
    fieldsNamed "transfer-encoding" fields = [] ∧ ((fieldsNamed "content-length" fields = [] ∧ n = 0) ∨
        ∃ field, fieldsNamed "content-length" fields = [field] ∧ plainDigits field.value = some n)
  | .chunkedBody =>
    (∃ field, fieldsNamed "transfer-encoding" fields = [field] ∧ field.value = encodeUtf8 "chunked".toList) ∧
      fieldsNamed "content-length" fields = []
  | .webSocket _ =>
    fieldsNamed "transfer-encoding" fields = [] ∧ fieldsNamed "content-length" fields = []

/-- A strict reader of the forwarded head sees the request the proxy accepted. -/
def StrictlyFramed (plan : RequestPlan) : Prop :=
  ∃ fields, strictRead plan.header = some fields ∧
    (∃ field, fieldsNamed "host" fields = [field] ∧ hostnameOf field.value = some plan.host) ∧
    FramesBody fields plan.mode ∧
    fieldsNamed "connection" fields = [⟨"Connection".toList, encodeUtf8 (connectionOption plan.mode)⟩]

/-- The header lines of a request head. -/
def requestFields (header : List UInt8) : List (List Char) :=
  match (fromUtf8 header).map headLines with
  | some (_ :: lines) => fieldLines lines
  | _ => []

/-- A line's value is padded with SP and HTAB only: trimming the other white space characters as well removes
nothing more. -/
abbrev PaddedByOws (line : List Char) : Prop := trimBy isOws (lineValue line) = trim (lineValue line)

/-- The Host and Content-Length values of a request are padded with SP and HTAB only. -/
def PaddingIsOws (header : List UInt8) : Prop :=
  ∀ line ∈ requestFields header, (named (lineName line) "host" || named (lineName line) "content-length") = true →
    PaddedByOws line

instance (header : List UInt8) : Decidable (PaddingIsOws header) :=
  inferInstanceAs (Decidable (∀ line ∈ requestFields header, _ → _))

theorem PlanOf.requestFields_eq {client : ClientContext} {header : List UInt8} {plan : RequestPlan}
    {requestLine hostLine : List Char} {lines : List (List Char)}
    (h : PlanOf client header plan requestLine lines hostLine) : requestFields header = fieldLines lines := by
  simp [requestFields, h.text]

/-! ## The lines the proxy writes -/

/-- The names of the forwarding lines. -/
def forwardingNames : List (List Char) :=
  ["X-Forwarded-For".toList, "X-Forwarded-Proto".toList, "X-Forwarded-Host".toList, "X-Real-IP".toList]

variable {expected : String}

theorem linesNamed_eq_nil {lines : List (List Char)}
    (h : ∀ name ∈ lines.map lineName, named name expected = false) : linesNamed expected lines = [] := by
  rw [linesNamed, filter_eq_nil_iff]
  intro line hline
  simp [h (lineName line) (mem_map_of_mem hline)]

theorem linesNamed_forwardingLines (client : ClientContext) (authority : List Char)
    (h : ∀ name ∈ forwardingNames, named name expected = false) :
    linesNamed expected (forwardingLines client authority) = [] := by
  apply linesNamed_eq_nil
  exact h

/-- An address is visible ASCII, so it is a valid header value. -/
theorem invalidHeaderValue_display (ip : IpAddr) : invalidHeaderValue (' ' :: ip.display) = false := by
  rw [invalidHeaderValue, any_eq_false]
  intro c hc
  simp only [Bool.or_eq_true, Bool.and_eq_true, decide_eq_true_eq, bne_iff_ne, beq_iff_eq]
  rcases mem_cons.mp hc with rfl | hc
  · decide
  · have hrange := ip.isAddressText_display.range c hc
    omega

theorem invalidHeaderValue_trim {value : List Char} (h : invalidHeaderValue value = false) :
    invalidHeaderValue (' ' :: trim value) = false := by
  rw [invalidHeaderValue, any_eq_false] at h ⊢
  intro c hc
  rcases mem_cons.mp hc with rfl | hc
  · decide
  · exact h c (mem_of_mem_trimBy hc)

theorem fieldLine_forwardingLines (client : ClientContext) {authority : List Char}
    (h : invalidHeaderValue (' ' :: authority) = false) :
    ∀ line ∈ forwardingLines client authority, FieldLine line := by
  have hdisplay := invalidHeaderValue_display client.peerIp.toCanonical
  have hproto : invalidHeaderValue (' ' :: (if client.https then "https".toList else "http".toList)) = false := by
    cases client.https <;> decide
  intro line hline
  simp only [forwardingLines, mem_cons, not_mem_nil, or_false] at hline
  rcases hline with rfl | rfl | rfl | rfl
  · exact fieldLine_headerLine (by decide) (by decide) hdisplay
  · exact fieldLine_headerLine (by decide) (by decide) hproto
  · exact fieldLine_headerLine (by decide) (by decide) h
  · exact fieldLine_headerLine (by decide) (by decide) hdisplay

theorem fieldLine_closingLines (mode : RequestMode) : ∀ line ∈ closingLines mode, FieldLine line := by
  intro line hline
  cases mode with
  | webSocket accept | chunkedBody =>
    simp only [closingLines, mem_cons, not_mem_nil, or_false] at hline
    rcases hline with rfl | rfl <;> exact fieldLine_headerLine (by decide) (by decide) (by decide)
  | fixedBody n =>
    simp only [closingLines, mem_singleton] at hline
    rw [hline]
    exact fieldLine_headerLine (by decide) (by decide) (by decide)

/-! ## The request line -/

variable {line : List Char}

/-- An accepted request line has no line end inside. -/
theorem no_cr_of_parseRequestLine {parts : RequestParts} (h : parseRequestLine line = .ok parts) : '\r' ∉ line := by
  unfold parseRequestLine at h
  split at h
  swap
  · exact absurd h (by simp)
  rename_i method target version hsplit
  split at h
  · exact absurd h (by simp)
  rename_i hvalid
  simp only [Bool.or_eq_true, Bool.not_eq_true', not_or, Bool.not_eq_false] at hvalid
  obtain ⟨⟨⟨hmethod, htarget⟩, -⟩, hversion⟩ := hvalid
  have hline : line = method ++ ' ' :: (target ++ ' ' :: version) := by
    have : List.intercalate [' '] (line.splitOn ' ') = line := intercalate_splitOn ' '
    rw [hsplit] at this
    simpa [List.intercalate] using this.symm
  rw [hline]
  simp only [mem_append, mem_cons, not_or]
  refine ⟨fun hmem => (tokenChar hmethod hmem).2.2 rfl, by decide, fun hmem => ?_, by decide, ?_⟩
  · have := all_eq_true.mp htarget _ hmem
    exact absurd this (by decide)
  · rcases hversion with hversion | hversion
    · rw [beq_iff_eq.mp hversion]
      decide
    · rw [beq_iff_eq.mp hversion]
      decide

/-! ## Padding -/

/-- In an ASCII text without control characters the only white space is SP and HTAB. -/
theorem isWhiteSpace_eq_isOws {c : Char} (hascii : isAscii c = true)
    (hvalid : (0x20 ≤ c.toNat ∨ c = '\t') ∧ c.toNat ≠ 0x7f) : isWhiteSpace c = isOws c := by
  have hsp : c = ' ' ↔ c.toNat = 0x20 := (Char.toNat_inj (d := ' ')).symm
  have htab : c = '\t' ↔ c.toNat = 0x09 := (Char.toNat_inj (d := '\t')).symm
  rw [Bool.eq_iff_iff]
  simp only [isWhiteSpace, isOws, Bool.or_eq_true, Bool.and_eq_true, decide_eq_true_eq, beq_iff_eq, hsp, htab]
  simp only [isAscii, decide_eq_true_eq] at hascii
  rw [htab] at hvalid
  omega

/-- A value that is ASCII once SP and HTAB are trimmed has no other white space around it. -/
theorem trimBy_isOws_eq_trim {value : List Char} (hvalid : invalidHeaderValue value = false) {text : List Char}
    (h : asciiText? (encodeUtf8 (trimBy isOws value)) = some text) : trimBy isOws value = trim value := by
  obtain ⟨-, hascii⟩ := eq_of_asciiText?_encodeUtf8 h
  have hows : ∀ c, isOws c = true → isWhiteSpace c = true := by
    intro c hc
    rcases Bool.or_eq_true _ _ |>.mp hc with hc | hc
    · rw [beq_iff_eq.mp hc]
      decide
    · rw [beq_iff_eq.mp hc]
      decide
  calc trimBy isOws value = trimBy isOws (trimBy isOws value) := (trimBy_trimBy (fun _ hc => hc) value).symm
    _ = trim (trimBy isOws value) := by
        apply trimBy_congr
        intro c hc
        exact (isWhiteSpace_eq_isOws (hascii c hc) (validChar hvalid (mem_of_mem_trimBy hc))).symm
    _ = trim value := trimBy_trimBy hows value

/-- What is read of an ASCII value is read by the strict reader exactly when the padding is SP and HTAB. -/
theorem asciiText?_strictField_bind {α : Type} {read : List Char → Option α} {found : α} (hline : FieldLine line)
    (hascii : ∀ c ∈ trim (lineValue line), isAscii c = true) (hread : read (trim (lineValue line)) = some found) :
    (asciiText? (strictField line).value).bind read = some found ↔ PaddedByOws line := by
  constructor
  · intro h
    obtain ⟨text, htext, -⟩ := Option.bind_eq_some_iff.mp h
    exact trimBy_isOws_eq_trim hline.valid htext
  · intro h
    rw [strictField, h, asciiText?_encodeUtf8 hascii, Option.bind_some, hread]

theorem hostnameOf_strictField {host : List Char} (hline : FieldLine line)
    (hhost : normalizeHostAuthority (lineValue line) = .ok host) :
    hostnameOf (strictField line).value = some host ↔ PaddedByOws line := by
  refine asciiText?_strictField_bind hline ?_ (by rw [← normalizeHostAuthority, hhost]; rfl)
  rw [normalizeHostAuthority, normalizeAuthority] at hhost
  split at hhost
  · exact absurd hhost (by simp)
  · rename_i hauthority
    simp only [Bool.or_eq_true, Bool.not_eq_true', not_or, Bool.not_eq_false, all_eq_true] at hauthority
    exact hauthority.1.2

theorem plainDigits_strictField {n : Nat} (hline : FieldLine line)
    (hlength : parseContentLength (trim (lineValue line)) = .ok n) :
    plainDigits (strictField line).value = some n ↔ PaddedByOws line := by
  obtain ⟨hdigits, hlength⟩ := ensure_bind_eq_ok.mp hlength
  obtain ⟨-, hlength⟩ := ensure_bind_eq_ok.mp hlength
  obtain ⟨-, hlength⟩ := ensure_bind_eq_ok.mp hlength
  refine asciiText?_strictField_bind hline (fun c hc => ?_) (by rw [if_pos hdigits, Except.ok.inj hlength])
  have hdigit := all_eq_true.mp (Bool.and_eq_true _ _ |>.mp hdigits).2 c hc
  exact isAscii_of_isAlphanum (by simp [Char.isAlphanum, hdigit])

/-! ## The fields of an accepted head -/

section Accepted

variable {client : ClientContext} {header : List UInt8} {plan : RequestPlan}
  {requestLine hostLine : List Char} {lines : List (List Char)}

/-- The header lines of the head the upstream gets. -/
def outputLines (client : ClientContext) (plan : RequestPlan) (hostLine : List Char)
    (lines : List (List Char)) : List (List Char) :=
  forwardedLines (fieldLines lines) ++ forwardingLines client (trim (lineValue hostLine)) ++ closingLines plan.mode

section

variable (h : PlanOf client header plan requestLine lines hostLine)

include h

theorem PlanOf.hostLine_mem : hostLine ∈ fieldLines lines ∧ named (lineName hostLine) "host" = true := by
  have hmem : hostLine ∈ linesNamed "host" (fieldLines lines) := by simp [h.hostLines]
  exact mem_filter.mp hmem

theorem PlanOf.fieldLine_outputLines : ∀ line ∈ outputLines client plan hostLine lines, FieldLine line := by
  intro line hline
  have hhost := h.fieldLine hostLine h.hostLine_mem.1
  rcases mem_append.mp hline with hline | hline
  · rcases mem_append.mp hline with hline | hline
    · exact h.fieldLine line (mem_filter.mp hline).1
    · exact fieldLine_forwardingLines client (invalidHeaderValue_trim hhost.valid) line hline
  · exact fieldLine_closingLines plan.mode line hline

/-- The strict reader sees one field for each line of the output. -/
theorem PlanOf.strictRead_eq :
    strictRead plan.header = some ((outputLines client plan hostLine lines).map strictField) := by
  obtain ⟨parts, hparts⟩ := h.request
  rw [h.planHeader]
  exact strictRead_encode (no_cr_of_parseRequestLine hparts) h.fieldLine_outputLines

omit h in
/-- A name the proxy neither strips nor writes: its fields are the client's lines. -/
theorem PlanOf.fieldsNamed_client (hkept : forwardable expected.toList = true)
    (hforwarding : ∀ name ∈ forwardingNames, named name expected = false)
    (hclosing : linesNamed expected (closingLines plan.mode) = []) :
    fieldsNamed expected ((outputLines client plan hostLine lines).map strictField) =
      (linesNamed expected (fieldLines lines)).map strictField := by
  rw [fieldsNamed_map_strictField, outputLines, linesNamed_append, linesNamed_append,
    linesNamed_forwardedLines hkept, linesNamed_forwardingLines _ _ hforwarding, hclosing,
    append_nil, append_nil]

omit h in
/-- A name the proxy strips: its fields are those of the closing lines. -/
theorem PlanOf.fieldsNamed_proxy (hstripped : forwardable expected.toList = false)
    (hforwarding : ∀ name ∈ forwardingNames, named name expected = false) :
    fieldsNamed expected ((outputLines client plan hostLine lines).map strictField) =
      (linesNamed expected (closingLines plan.mode)).map strictField := by
  rw [fieldsNamed_map_strictField, outputLines, linesNamed_append, linesNamed_append,
    linesNamed_forwardedLines_eq_nil hstripped, linesNamed_forwardingLines _ _ hforwarding,
    nil_append, nil_append]

theorem PlanOf.fieldsNamed_host :
    fieldsNamed "host" ((outputLines client plan hostLine lines).map strictField) = [strictField hostLine] := by
  rw [PlanOf.fieldsNamed_client (by decide) (by decide) (by cases plan.mode <;> rfl), h.hostLines]
  rfl

/-- The framing of the output, up to how the Content-Length value is padded. -/
theorem PlanOf.framesBody_iff : FramesBody ((outputLines client plan hostLine lines).map strictField) plan.mode ↔
    ∀ line ∈ linesNamed "content-length" (fieldLines lines), PaddedByOws line := by
  have hlength := h.bodyLength
  have hte : fieldsNamed "transfer-encoding" ((outputLines client plan hostLine lines).map strictField) = _ :=
    PlanOf.fieldsNamed_proxy (by decide) (by decide)
  have hcl : fieldsNamed "content-length" ((outputLines client plan hostLine lines).map strictField) = _ :=
    PlanOf.fieldsNamed_client (by decide) (by decide) (by cases plan.mode <;> rfl)
  generalize plan.mode = mode at hlength hte ⊢
  cases mode with
  | fixedBody n =>
    rw [FramesBody, hte, hcl]
    rcases hlength with ⟨hnil, hn⟩ | ⟨line, hline, hn⟩
    · simp [hnil, hn]
      rfl
    have hmem : line ∈ linesNamed "content-length" (fieldLines lines) := by simp [hline]
    have hfield := h.fieldLine line (mem_filter.mp hmem).1
    have hiff := plainDigits_strictField hfield hn
    simp only [hline, map_cons, map_nil, mem_singleton, forall_eq]
    constructor
    · rintro ⟨-, ⟨hnil, -⟩ | ⟨field, hone, hdigits⟩⟩
      · exact absurd hnil (by simp)
      · obtain rfl : strictField line = field := by simpa using hone
        exact hiff.mp hdigits
    · intro htrim
      exact ⟨rfl, .inr ⟨_, rfl, hiff.mpr htrim⟩⟩
  | chunkedBody =>
    rw [FramesBody, hte, hcl]
    have hnil : linesNamed "content-length" (fieldLines lines) = [] := hlength
    simp only [hnil, map_nil, not_mem_nil, false_imp_iff, implies_true, iff_true]
    exact ⟨⟨_, rfl, rfl⟩, trivial⟩
  | webSocket accept =>
    rw [FramesBody, hte, hcl]
    have hnil : linesNamed "content-length" (fieldLines lines) = [] := hlength
    simp only [hnil, map_nil, not_mem_nil, false_imp_iff, implies_true, iff_true]
    exact ⟨rfl, trivial⟩

theorem PlanOf.strictlyFramed_iff : StrictlyFramed plan ↔
    PaddedByOws hostLine ∧ ∀ line ∈ linesNamed "content-length" (fieldLines lines), PaddedByOws line := by
  have hhostLine := h.fieldLine hostLine h.hostLine_mem.1
  rw [← h.framesBody_iff, ← hostnameOf_strictField hhostLine h.host]
  constructor
  · rintro ⟨fields, hread, ⟨field, hone, hhost⟩, hbody, -⟩
    obtain rfl : (outputLines client plan hostLine lines).map strictField = fields :=
      Option.some.inj (h.strictRead_eq.symm.trans hread)
    rw [h.fieldsNamed_host] at hone
    obtain rfl : strictField hostLine = field := by simpa using hone
    exact ⟨hhost, hbody⟩
  · rintro ⟨hhost, hbody⟩
    refine ⟨_, h.strictRead_eq, ⟨_, h.fieldsNamed_host, hhost⟩, hbody, ?_⟩
    rw [PlanOf.fieldsNamed_proxy (by decide) (by decide)]
    cases plan.mode <;> rfl

theorem PlanOf.paddingIsOws_iff : PaddingIsOws header ↔
    PaddedByOws hostLine ∧ ∀ line ∈ linesNamed "content-length" (fieldLines lines), PaddedByOws line := by
  rw [PaddingIsOws, h.requestFields_eq]
  constructor
  · intro hpadding
    refine ⟨hpadding hostLine h.hostLine_mem.1 (by simp [h.hostLine_mem.2]), fun line hline => ?_⟩
    obtain ⟨hmem, hnamed⟩ := mem_filter.mp hline
    exact hpadding line hmem (by simp [hnamed])
  · rintro ⟨hhost, hlengths⟩ line hline hnamed
    rcases Bool.or_eq_true _ _ |>.mp hnamed with hnamed | hnamed
    · have hmem : line ∈ linesNamed "host" (fieldLines lines) :=
        mem_filter.mpr ⟨hline, hnamed⟩
      rw [h.hostLines, mem_singleton] at hmem
      rwa [hmem]
    · exact hlengths line (mem_filter.mpr ⟨hline, hnamed⟩)

end

end Accepted

/-! ## No request smuggling -/

/-- For every accepted request, the upstream sees the request the proxy accepted exactly when the
Host and Content-Length values are padded with SP and HTAB only. -/
theorem strictlyFramed_iff_paddingIsOws (crypto : HandshakeCrypto) (header : List UInt8)
    (client : ClientContext) (plan : RequestPlan) (h : requestPlan crypto header client = .ok plan) :
    StrictlyFramed plan ↔ PaddingIsOws header := by
  obtain ⟨requestLine, lines, hostLine, hplan⟩ := planOf_of_requestPlan h
  rw [hplan.strictlyFramed_iff, hplan.paddingIsOws_iff]

/-- A handshake whose base64 decoder accepts nothing; only requests without an upgrade use it. -/
def noHandshake : HandshakeCrypto := ⟨fun _ => none, fun _ => []⟩

def localClient : ClientContext := ⟨.v4 (127, 0, 0, 1), false⟩

/-- A request with the given padding before its Content-Length. -/
def paddedRequest (padding : String) : List UInt8 :=
  encodeUtf8 ("POST / HTTP/1.1\r\nHost: a\r\nContent-Length:".toList ++ padding.toList ++ "5\r\n\r\n".toList)

/-- A request padded with a space or with U+00A0 is accepted, with a body of five bytes. -/
theorem requestPlan_paddedRequest (padding : String) (h : padding ∈ [" ", "\u00a0"]) :
    ∃ plan, requestPlan noHandshake (paddedRequest padding) localClient = .ok plan ∧ plan.mode = .fixedBody 5 := by
  have hmode : (requestPlan noHandshake (paddedRequest padding) localClient).toOption.map
      RequestPlan.mode = some (.fixedBody 5) := by
    simp only [mem_cons, not_mem_nil, or_false] at h
    rcases h with rfl | rfl
    · decide +kernel
    · decide +kernel
  cases hplan : requestPlan noHandshake (paddedRequest padding) localClient with
  | error e =>
    rw [hplan] at hmode
    exact absurd hmode (by simp [Except.toOption])
  | ok plan =>
    rw [hplan] at hmode
    exact ⟨plan, rfl, Option.some.inj hmode⟩

theorem strictlyFramed_of_space_padding : ∃ plan, requestPlan noHandshake (paddedRequest " ") localClient = .ok plan ∧
      StrictlyFramed plan := by
  obtain ⟨plan, hplan, -⟩ := requestPlan_paddedRequest " " (by decide)
  refine ⟨plan, hplan, (strictlyFramed_iff_paddingIsOws _ _ _ _ hplan).mpr ?_⟩
  decide

/-- `Content-Length: U+00A0 5` is accepted as a body of five bytes and forwarded as it came; the
upstream does not read five there. -/
theorem not_strictlyFramed_of_nbsp_padding :
    ∃ plan, requestPlan noHandshake (paddedRequest "\u00a0") localClient = .ok plan ∧
      plan.mode = .fixedBody 5 ∧ ¬ StrictlyFramed plan := by
  obtain ⟨plan, hplan, hmode⟩ := requestPlan_paddedRequest "\u00a0" (by decide)
  obtain ⟨requestLine, lines, hostLine, hplanOf⟩ := planOf_of_requestPlan hplan
  refine ⟨plan, hplan, hmode, fun hframed => ?_⟩
  have hpadding : PaddingIsOws (paddedRequest "\u00a0") :=
    hplanOf.paddingIsOws_iff.mpr (hplanOf.strictlyFramed_iff.mp hframed)
  exact absurd hpadding (by decide)

end Nyabase.HttpProxy
