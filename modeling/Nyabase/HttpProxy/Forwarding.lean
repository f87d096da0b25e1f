import Nyabase.HttpProxy.Framing

/-!
# Forwarding headers cannot be spoofed

An upstream learns the client's address, scheme and host from the forwarding headers alone, so what
the client sends under such a name must never reach it, in any spelling a server may fold into the
real one.  Here the forwarded head is read by the strict reader and compared with the lines the proxy
writes; the header loop skips a client's forwarding line whole (`scanHeader_forwarding`), so a second
request that differs only in such lines gives the same head.
-/

namespace Nyabase.HttpProxy

open Lib ProxyCommon List

/-- The Host authority of a request, as `request_plan` records it. -/
def hostAuthorityOf (header : List UInt8) : List Char :=
  match linesNamed "host" (requestFields header) with
  | [] => []
  | line :: _ => trim (lineValue line)

/-- The folded names of the fields the proxy interprets or rewrites. -/
def IsProxyField (folded : List Char) : Prop :=
  folded ∈ ["content-length".toList, "transfer-encoding".toList, "keep-alive".toList, "proxy-connection".toList] ∨
    "sec-websocket-".toList <+: folded

instance (folded : List Char) : Decidable (IsProxyField folded) :=
  inferInstanceAs (Decidable (_ ∨ _))

def isForwardingLine (line : List Char) : Bool := isForwardingHeader (lineName line)

/-- The request line and the header lines of a request, without its forwarding lines. -/
def withoutForwarding (header : List UInt8) : Option (List (List Char)) :=
  (fromUtf8 header).map fun text =>
    match headLines text with
    | [] => []
    | requestLine :: lines =>
      requestLine :: (fieldLines lines).filter fun line => !isForwardingLine line

/-! ## The fields of the output -/

theorem isFoldedAlias_of_isProxyField {name : List Char} (h : IsProxyField (foldHeaderName name))
    (hspelling : '_' ∈ name ∨ '.' ∈ name) : isFoldedAliasOfProxyHeader name = true := by
  have hcontains : (name.contains '_' || name.contains '.') = true := by
    simpa [Bool.or_eq_true] using hspelling
  rw [isFoldedAliasOfProxyHeader, hcontains, Bool.true_and, Bool.or_eq_true]
  rcases h with hmem | hprefix
  · left
    simpa using hmem
  · right
    exact isPrefixOf_iff_prefix.mpr hprefix

theorem not_stripped_of_forwardable {name : List Char} (h : forwardable name = true) :
    isForwardingHeader name = false ∧ isFoldedAliasOfProxyHeader name = false := by
  simp only [forwardable, Bool.not_eq_true', Bool.or_eq_false_iff] at h
  exact ⟨h.1.1.1.1.1.2, h.1.1.1.1.2⟩

variable {line : List Char}

theorem isForwardingLine_of_mem_forwardingLines {client : ClientContext} {authority : List Char}
    (h : line ∈ forwardingLines client authority) : isForwardingLine line = true := by
  have hname : lineName line ∈ (forwardingLines client authority).map lineName := mem_map_of_mem h
  have hall : ∀ name ∈ forwardingNames, isForwardingHeader name = true := by decide
  exact hall _ hname

/-- The names of the closing lines: none describes the client hop and none is an alias. -/
theorem lineName_of_mem_closingLines {mode : RequestMode} (h : line ∈ closingLines mode) :
    isForwardingHeader (lineName line) = false ∧ '_' ∉ lineName line ∧ '.' ∉ lineName line := by
  have hnames : (closingLines mode).map lineName ⊆
      ["Upgrade".toList, "Connection".toList, "Transfer-Encoding".toList] := by
    cases mode with
    | webSocket accept =>
      show ["Upgrade".toList, "Connection".toList] ⊆ _
      decide
    | chunkedBody => decide
    | fixedBody n =>
      show ["Connection".toList] ⊆ _
      decide
  have hall : ∀ name ∈ ["Upgrade".toList, "Connection".toList, "Transfer-Encoding".toList],
      isForwardingHeader name = false ∧ '_' ∉ name ∧ '.' ∉ name := by
    decide
  exact hall _ (hnames (mem_map_of_mem h))

section Accepted

variable {client : ClientContext} {plan : RequestPlan} {hostLine : List Char} {lines : List (List Char)}

/-- Of the output's lines, the forwarding ones are those the proxy wrote. -/
theorem filter_isForwardingLine_outputLines : (outputLines client plan hostLine lines).filter isForwardingLine =
      forwardingLines client (trim (lineValue hostLine)) := by
  have hkept : (forwardedLines (fieldLines lines)).filter isForwardingLine = [] := by
    rw [filter_eq_nil_iff]
    intro line hline
    have hforwardable := (mem_filter.mp hline).2
    simp [isForwardingLine, (not_stripped_of_forwardable hforwardable).1]
  have hwritten : (forwardingLines client (trim (lineValue hostLine))).filter isForwardingLine =
      forwardingLines client (trim (lineValue hostLine)) :=
    filter_eq_self.mpr fun line hline => isForwardingLine_of_mem_forwardingLines hline
  have hclosing : (closingLines plan.mode).filter isForwardingLine = [] := by
    rw [filter_eq_nil_iff]
    intro line hline
    simp [isForwardingLine, (lineName_of_mem_closingLines hline).1]
  rw [outputLines, filter_append, filter_append, hkept, hwritten, hclosing, nil_append, append_nil]

/-- No output line is a folded spelling of a field the proxy interprets. -/
theorem spelling_of_mem_outputLines {line : List Char} (h : line ∈ outputLines client plan hostLine lines)
    (hfield : IsProxyField (foldHeaderName (lineName line))) : '_' ∉ lineName line ∧ '.' ∉ lineName line := by
  rcases mem_append.mp h with h | h
  · rcases mem_append.mp h with h | h
    · have hforwardable := (mem_filter.mp h).2
      have halias := (not_stripped_of_forwardable hforwardable).2
      exact not_or.mp fun hspelling => absurd (isFoldedAlias_of_isProxyField hfield hspelling) (by simp [halias])
    · have hname : lineName line ∈ (forwardingLines client (trim (lineValue hostLine))).map lineName :=
        mem_map_of_mem h
      have hall : ∀ name ∈ forwardingNames, '_' ∉ name ∧ '.' ∉ name := by decide
      exact hall _ hname
  · exact (lineName_of_mem_closingLines h).2

end Accepted

/-! ## Two requests that differ in forwarding lines only -/

/-- A forwarding line that the loop accepts changes none of its variables. -/
theorem scanHeader_forwarding {s s' : HeaderScan} (hforwarding : isForwardingLine line = true)
    (h : scanHeader s line = .ok s') : s' = s := by
  obtain ⟨⟨name, value⟩, hsplit, h⟩ := bind_eq_ok.mp h
  have hsplit : splitOnce ':' line = some (name, value) := okOr_eq_ok.mp hsplit
  have hname : isForwardingHeader name = true := by
    simpa [isForwardingLine, lineName, hsplit] using hforwarding
  have hnot : ∀ expected : String, isForwardingHeader expected.toList = false → named name expected = false := by
    intro expected hexpected
    by_contra hnamed
    have hsame := eq_of_named isForwardingHeader_lower (Bool.not_eq_false _ |>.mp hnamed)
    rw [hname, hexpected] at hsame
    exact Bool.noConfusion hsame
  obtain ⟨-, h⟩ := ensure_bind_eq_ok.mp h
  obtain ⟨-, h⟩ := ensure_bind_eq_ok.mp h
  obtain ⟨s₁, hs₁, h⟩ := bind_eq_ok.mp h
  rw [scanHost, hnot "host" (by decide)] at hs₁
  obtain rfl : s = s₁ := Except.ok.inj hs₁
  rw [hnot "transfer-encoding" (by decide), hnot "expect" (by decide), hname] at h
  exact (Except.ok.inj h).symm

/-- Leaving out the forwarding lines leaves the loop's result as it was. -/
theorem scanHeaders_withoutForwarding (lines : List (List Char)) {s s' : HeaderScan}
    (h : scanHeaders s lines = .ok s') :
    scanHeaders s ((fieldLines lines).filter fun line => !isForwardingLine line) = .ok s' := by
  induction lines generalizing s with
  | nil => exact h
  | cons line lines ih =>
    cases line with
    | nil => exact h
    | cons c line =>
      obtain ⟨s₁, hs₁, h⟩ := bind_eq_ok.mp h
      have htail := ih h
      have hcons : fieldLines ((c :: line) :: lines) = (c :: line) :: fieldLines lines := by
        simp [fieldLines]
      rw [hcons, filter_cons]
      cases hforwarding : isForwardingLine (c :: line) with
      | true =>
        obtain rfl := scanHeader_forwarding hforwarding hs₁
        exact htail
      | false =>
        show (scanHeader s (c :: line) >>= fun s => scanHeaders s _) = .ok s'
        rw [hs₁]
        exact htail

/-- The plan of an accepted request is read off the request without its forwarding lines. -/
theorem requestPlan_withoutForwarding {crypto : HandshakeCrypto} {header : List UInt8}
    {client : ClientContext} {plan : RequestPlan} (h : requestPlan crypto header client = .ok plan) :
    ∃ requestLine lines parts s, withoutForwarding header = some (requestLine :: lines) ∧
      parseRequestLine requestLine = .ok parts ∧ scanHeaders { rewritten := requestLine ++ crlf } lines = .ok s ∧
      finishPlan crypto client parts s = .ok plan := by
  obtain ⟨requestLine, lines, parts, s, htext, hparts, hscan, h⟩ := requestPlan_eq_ok h
  refine ⟨requestLine, _, parts, s, ?_, hparts, scanHeaders_withoutForwarding lines hscan, h⟩
  obtain ⟨text, htext, hlines⟩ := Option.map_eq_some_iff.mp htext
  rw [withoutForwarding, htext, Option.map_some, hlines]

/-- The client-hop fields of a forwarded head are the four lines the proxy writes, whatever the client
sent under such names, and no field the proxy interprets is forwarded under a folded spelling. -/
theorem forwarding_fields_unspoofable (crypto : HandshakeCrypto) (client : ClientContext)
    (header : List UInt8) (plan : RequestPlan) (h : requestPlan crypto header client = .ok plan) :
    (∃ fields, strictRead plan.header = some fields ∧
      (fields.filter fun field =>
        let folded := field.name.map fun c => if c.toLower = '_' ∨ c.toLower = '.' then '-' else c.toLower
        "x-forwarded-".toList.isPrefixOf folded || ["forwarded", "x-real-ip", "true-client-ip", "cf-connecting-ip",
          "x-client-ip", "client-ip", "fastly-client-ip", "x-cluster-client-ip"].any
          fun known => folded == known.toList) =
        [headerLine "X-Forwarded-For" client.peerIp.toCanonical.display,
          headerLine "X-Forwarded-Proto" (if client.https then "https".toList else "http".toList),
          headerLine "X-Forwarded-Host" (hostAuthorityOf header),
          headerLine "X-Real-IP" client.peerIp.toCanonical.display].map strictField ∧
      ∀ field ∈ fields, IsProxyField (foldHeaderName field.name) → '_' ∉ field.name ∧ '.' ∉ field.name) ∧
    ∀ header' plan', requestPlan crypto header' client = .ok plan' →
      withoutForwarding header' = withoutForwarding header → plan'.header = plan.header := by
  constructor
  · obtain ⟨requestLine, lines, hostLine, hplan⟩ := planOf_of_requestPlan h
    refine ⟨_, hplan.strictRead_eq, ?_, ?_⟩
    · have hauthority : hostAuthorityOf header = trim (lineValue hostLine) := by
        simp [hostAuthorityOf, hplan.requestFields_eq, hplan.hostLines]
      show (filter (fun field => isForwardingHeader field.name) _) =
        (forwardingLines client (hostAuthorityOf header)).map strictField
      rw [filter_map, hauthority, ← filter_isForwardingLine_outputLines]
      rfl
    · intro field hfield howned
      obtain ⟨line, hline, rfl⟩ := mem_map.mp hfield
      exact spelling_of_mem_outputLines hline howned
  · intro header' plan' h' hsame
    obtain ⟨r, ls, parts, s, hwithout, hparts, hscan, hfinish⟩ := requestPlan_withoutForwarding h
    obtain ⟨r', ls', parts', s', hwithout', hparts', hscan', hfinish'⟩ := requestPlan_withoutForwarding h'
    rw [hsame, hwithout] at hwithout'
    cases hwithout'
    obtain rfl : parts = parts' := Except.ok.inj (hparts.symm.trans hparts')
    obtain rfl : s = s' := Except.ok.inj (hscan.symm.trans hscan')
    obtain rfl : plan = plan' := Except.ok.inj (hfinish.symm.trans hfinish')
    rfl

/-- A request that carries a spoofed address under a folded name. -/
def spoofedRequest : List UInt8 :=
  encodeUtf8 "GET / HTTP/1.1\r\nHost: a\r\nX_Forwarded.For: 9.9.9.9\r\n\r\n".toList

theorem spoofedRequest_forwarding_fields :
    ∃ plan fields, requestPlan noHandshake spoofedRequest localClient = .ok plan ∧
      strictRead plan.header = some fields ∧ (fields.filter fun field => isForwardingHeader field.name) =
        (forwardingLines localClient (hostAuthorityOf spoofedRequest)).map strictField := by
  have hsome : (requestPlan noHandshake spoofedRequest localClient).toOption.isSome = true := by
    decide +kernel
  cases hplan : requestPlan noHandshake spoofedRequest localClient with
  | error e =>
    rw [hplan] at hsome
    exact absurd hsome (by simp [Except.toOption])
  | ok plan =>
    obtain ⟨⟨fields, hread, hfields, -⟩, -⟩ := forwarding_fields_unspoofable _ _ _ _ hplan
    exact ⟨plan, fields, rfl, hread, hfields⟩

end Nyabase.HttpProxy
