import Nyabase.HttpProxy.Request

/-!
# What an accepted request head looks like

`request_plan` reads the header lines once and keeps a dozen variables.  This file says what those
variables hold after any number of turns, in terms of the lines read so far (`ScanOf`), and from that
what an accepted plan consists of (`PlanOf`).  Later files use only these two descriptions.

* `accepted_of_scanHeader` is the inversion of one turn of the loop;
* `ScanOf.step` and `ScanOf.run` carry the description through one turn and through the loop;
* `planOf_of_requestPlan` is the description of an accepted request.
-/

namespace Nyabase.HttpProxy

open Lib ProxyCommon List

/-! ## Names up to ASCII case -/

variable {name line value : List Char} {expected : String} {s s' : HeaderScan}

theorem named_iff : named name expected = true ↔ lower name = lower expected.toList := by
  simp [named, eqIgnoreAsciiCase]

theorem foldHeaderName_lower (name : List Char) : foldHeaderName (lower name) = foldHeaderName name := by
  simp only [foldHeaderName, lower, List.map_map, Function.comp_def, toLower_toLower]

theorem isForwardingHeader_lower (name : List Char) : isForwardingHeader (lower name) = isForwardingHeader name := by
  simp [isForwardingHeader, foldHeaderName_lower]

theorem isFoldedAliasOfProxyHeader_lower (name : List Char) :
    isFoldedAliasOfProxyHeader (lower name) = isFoldedAliasOfProxyHeader name := by
  unfold isFoldedAliasOfProxyHeader
  rw [foldHeaderName_lower, contains_lower (by decide) (by decide), contains_lower (by decide) (by decide)]

/-- The names whose lines reach the upstream as they came: everything the loop does not strip. -/
def forwardable (name : List Char) : Bool :=
  !(named name "transfer-encoding" || named name "expect" || isForwardingHeader name ||
    isFoldedAliasOfProxyHeader name || named name "connection" || named name "upgrade" ||
    named name "proxy-connection" || named name "keep-alive")

/-- The names whose lines are stripped before a length is read. -/
def strippedFirst (name : List Char) : Bool :=
  named name "transfer-encoding" || named name "expect" || isForwardingHeader name || isFoldedAliasOfProxyHeader name

theorem forwardable_of_strippedFirst (h : strippedFirst name = true) : forwardable name = false := by
  unfold forwardable
  rw [← strippedFirst, h]
  rfl

theorem forwardable_lower (name : List Char) : forwardable (lower name) = forwardable name := by
  simp [forwardable, named, eqIgnoreAsciiCase, lower_lower, isForwardingHeader_lower, isFoldedAliasOfProxyHeader_lower]

/-- A test on names that ignores ASCII case gives every spelling of a name the same answer. -/
theorem eq_of_named {test : List Char → Bool} (htest : ∀ name, test (lower name) = test name)
    (h : named name expected = true) : test name = test expected.toList := by
  rw [← htest, named_iff.mp h, htest]

/-! ## Field lines -/

/-- The part of a header line before its first colon. -/
def lineName (line : List Char) : List Char := ((splitOnce ':' line).getD (line, [])).1

/-- The part of a header line after its first colon. -/
def lineValue (line : List Char) : List Char := ((splitOnce ':' line).getD (line, [])).2

/-- A line the loop accepts as a header: `name ":" value` with a token and no control character. -/
structure FieldLine (line : List Char) : Prop where
  split : splitOnce ':' line = some (lineName line, lineValue line)
  token : isHttpToken (lineName line) = true
  valid : invalidHeaderValue (lineValue line) = false

theorem FieldLine.ne_nil (h : FieldLine line) : line ≠ [] := by
  rintro rfl
  exact absurd h.split (by simp [splitOnce])

theorem FieldLine.eq (h : FieldLine line) : line = lineName line ++ ':' :: lineValue line :=
  (splitOnce_eq_some_iff.mp h.split).1

theorem lineName_headerLine {name : String} (value : List Char) (h : ':' ∉ name.toList) :
    lineName (headerLine name value) = name.toList := by
  simp [lineName, headerLine, splitOnce_append (' ' :: value) h]

theorem lineValue_headerLine {name : String} (value : List Char) (h : ':' ∉ name.toList) :
    lineValue (headerLine name value) = ' ' :: value := by
  simp [lineValue, headerLine, splitOnce_append (' ' :: value) h]

/-- The proxy's own lines are field lines. -/
theorem fieldLine_headerLine {name : String} (hname : ':' ∉ name.toList) (htoken : isHttpToken name.toList = true)
    (hvalid : invalidHeaderValue (' ' :: value) = false) : FieldLine (headerLine name value) where
  split := by
    rw [lineName_headerLine value hname, lineValue_headerLine value hname]
    exact splitOnce_append (' ' :: value) hname
  token := by rwa [lineName_headerLine value hname]
  valid := by rwa [lineValue_headerLine value hname]

/-- The lines the loop reads: everything before the first empty one. -/
def fieldLines (lines : List (List Char)) : List (List Char) :=
  lines.takeWhile fun line => !line.isEmpty

def linesNamed (expected : String) (lines : List (List Char)) : List (List Char) :=
  lines.filter fun line => named (lineName line) expected

def forwardedLines (lines : List (List Char)) : List (List Char) :=
  lines.filter fun line => forwardable (lineName line)

theorem linesNamed_append (expected : String) (left right : List (List Char)) :
    linesNamed expected (left ++ right) = linesNamed expected left ++ linesNamed expected right :=
  filter_append ..

theorem linesNamed_singleton (expected : String) (line : List Char) :
    linesNamed expected [line] = if named (lineName line) expected then [line] else [] := by
  simp [linesNamed, filter_singleton]

/-- Stripping leaves every line of a name that is not stripped. -/
theorem linesNamed_forwardedLines (h : forwardable expected.toList = true) (lines : List (List Char)) :
    linesNamed expected (forwardedLines lines) = linesNamed expected lines := by
  unfold linesNamed forwardedLines
  rw [filter_filter]
  congr 1
  funext line
  cases hnamed : named (lineName line) expected with
  | false => rfl
  | true => rw [eq_of_named forwardable_lower hnamed, h]; rfl

/-- Stripping leaves no line of a name that is stripped. -/
theorem linesNamed_forwardedLines_eq_nil (h : forwardable expected.toList = false) (lines : List (List Char)) :
    linesNamed expected (forwardedLines lines) = [] := by
  unfold linesNamed forwardedLines
  rw [filter_eq_nil_iff]
  intro line hline hnamed
  have hkept := (mem_filter.mp hline).2
  rw [eq_of_named forwardable_lower hnamed, h] at hkept
  exact Bool.noConfusion hkept

/-! ## One turn of the loop -/

/-- The variables a Host line fills. -/
def HeaderScan.hostVars (s : HeaderScan) : Nat × List Char × Option (List Char) :=
  (s.hostCount, s.hostAuthority, s.host)

def ReadsHost (name value : List Char) (s s' : HeaderScan) : Prop :=
  if named name "host" then ∃ host, normalizeHostAuthority value = .ok host ∧
    s'.hostVars = (s.hostCount + 1, trim value, some host)
  else s'.hostVars = s.hostVars

def ReadsLength (name value : List Char) (s s' : HeaderScan) : Prop :=
  if named name "content-length" then s.contentLength = none ∧
    ∃ n, parseContentLength (trim value) = .ok n ∧ s'.contentLength = some n
  else s'.contentLength = s.contentLength

/-- What an accepted turn of the loop does with the line it reads. -/
structure Accepted (s s' : HeaderScan) (line : List Char) : Prop where
  fieldLine : FieldLine line
  rewritten : s'.rewritten = s.rewritten ++ (if forwardable (lineName line) then line ++ crlf else [])
  host : ReadsHost (lineName line) (lineValue line) s s'
  contentLength : ReadsLength (lineName line) (lineValue line) s s'

/-- A scanner that only fills variables the description does not mention. -/
def SameRouting (s s' : HeaderScan) : Prop :=
  s'.rewritten = s.rewritten ∧ s'.hostVars = s.hostVars ∧ s'.contentLength = s.contentLength

theorem sameRouting_of_ensure {t : HeaderScan} {condition : Bool} {error : String}
    (h : (do ensure condition error; pure t) = Except.ok s') (ht : SameRouting s t) : SameRouting s s' := by
  obtain ⟨-, ⟨⟩⟩ := ensure_bind_eq_ok.mp h
  exact ht

theorem sameRouting_scanWebsocket (h : scanWebsocket s name value = .ok s') : SameRouting s s' := by
  revert h
  fun_cases scanWebsocket s name value with
  | case1 | case2 | case3 | case4 => exact fun h => sameRouting_of_ensure h ⟨rfl, rfl, rfl⟩
  | case5 => simp
  | case6 =>
    rintro ⟨⟩
    exact ⟨rfl, rfl, rfl⟩

theorem scanHost_eq_ok (h : scanHost s name value = .ok s') :
    s'.rewritten = s.rewritten ∧ s'.contentLength = s.contentLength ∧ ReadsHost name value s s' := by
  unfold scanHost at h
  split at h
  · rename_i hnamed
    obtain ⟨host, hhost, ⟨⟩⟩ := bind_eq_ok.mp h
    exact ⟨rfl, rfl, by rw [ReadsHost, if_pos hnamed]; exact ⟨host, hhost, rfl⟩⟩
  · rename_i hnamed
    cases h
    exact ⟨rfl, rfl, by rw [ReadsHost, if_neg hnamed]⟩

theorem scanContentLength_eq_ok (h : scanContentLength s name value = .ok s') :
    s'.rewritten = s.rewritten ∧ s'.hostVars = s.hostVars ∧ ReadsLength name value s s' := by
  unfold scanContentLength at h
  split at h
  · rename_i hnamed
    obtain ⟨hnone, h⟩ := ensure_bind_eq_ok.mp h
    obtain ⟨n, hn, ⟨⟩⟩ := bind_eq_ok.mp h
    refine ⟨rfl, rfl, ?_⟩
    rw [ReadsLength, if_pos hnamed]
    exact ⟨by simpa using hnone, n, hn, rfl⟩
  · rename_i hnamed
    cases h
    exact ⟨rfl, rfl, by rw [ReadsLength, if_neg hnamed]⟩

/-- The lines of a name that is stripped before the length is read carry no length. -/
theorem not_contentLength_of_stripped (h : strippedFirst name = true) : named name "content-length" = false := by
  by_contra hnamed
  have hnamed : named name "content-length" = true := by simpa using hnamed
  have hkept := eq_of_named forwardable_lower hnamed
  rw [forwardable_of_strippedFirst h] at hkept
  exact absurd hkept (by decide)

/-- What the branches after the Host line do. -/
def Passed (line name value : List Char) (s s' : HeaderScan) : Prop :=
  s'.rewritten = s.rewritten ++ (if forwardable name then line ++ crlf else []) ∧
    s'.hostVars = s.hostVars ∧ ReadsLength name value s s'

/-- The branches that strip a line before the length is read. -/
theorem passed_of_stripped (hstripped : strippedFirst name = true) (hsame : SameRouting s s') :
    Passed line name value s s' := by
  obtain ⟨hrewritten, hvars, hlength⟩ := hsame
  refine ⟨by simp [hrewritten, forwardable_of_strippedFirst hstripped], hvars, ?_⟩
  rw [ReadsLength, if_neg (by simp [not_contentLength_of_stripped hstripped]), hlength]

/-- The branches after the stripping ones. -/
theorem passed_of_scanForwarded (hnot : strippedFirst name = false) (h : scanForwarded s line name value = .ok s') :
    Passed line name value s s' := by
  obtain ⟨s₁, hs₁, h⟩ := bind_eq_ok.mp h
  obtain ⟨hrewritten, hvars, hlength⟩ := scanContentLength_eq_ok hs₁
  -- nothing after the length touches the host or the length
  suffices hrest : s'.rewritten = s₁.rewritten ++ (if forwardable name then line ++ crlf else []) ∧
      s'.hostVars = s₁.hostVars ∧ s'.contentLength = s₁.contentLength by
    rw [Passed, ReadsLength, hrest.1, hrest.2.1, hrest.2.2, hrewritten]
    exact ⟨rfl, hvars, hlength⟩
  split at h
  · rename_i hnamed
    obtain ⟨hr, hrest⟩ := sameRouting_of_ensure h ⟨rfl, rfl, rfl⟩
    exact ⟨by simp [hr, forwardable, hnamed], hrest⟩
  split at h
  · rename_i hnamed
    obtain ⟨hr, hrest⟩ := sameRouting_of_ensure h ⟨rfl, rfl, rfl⟩
    exact ⟨by simp [hr, forwardable, hnamed], hrest⟩
  rename_i hconnection hupgrade
  obtain ⟨s₂, hs₂, h⟩ := bind_eq_ok.mp h
  obtain ⟨hr, hrest⟩ := sameRouting_scanWebsocket hs₂
  split at h
  · rename_i hhop
    cases h
    have hkept : forwardable name = false := by
      rcases Bool.or_eq_true _ _ |>.mp hhop with hhop | hhop <;> simp [forwardable, hhop]
    exact ⟨by simp [hr, hkept], hrest⟩
  · rename_i hhop
    cases h
    have hkept : forwardable name = true := by
      simp only [Bool.or_eq_true, not_or, Bool.not_eq_true] at hhop hconnection hupgrade
      rw [forwardable, ← strippedFirst, hnot, hconnection, hupgrade, hhop.1, hhop.2]
      rfl
    exact ⟨by simp [hr, hkept], hrest⟩

theorem accepted_of_scanHeader (h : scanHeader s line = .ok s') : Accepted s s' line := by
  obtain ⟨⟨name, value⟩, hsplit, h⟩ := bind_eq_ok.mp h
  obtain ⟨htoken, h⟩ := ensure_bind_eq_ok.mp h
  obtain ⟨hvalid, h⟩ := ensure_bind_eq_ok.mp h
  obtain ⟨s₁, hs₁, h⟩ := bind_eq_ok.mp h
  have hsplit : splitOnce ':' line = some (name, value) := okOr_eq_ok.mp hsplit
  obtain rfl : lineName line = name := by simp [lineName, hsplit]
  obtain rfl : lineValue line = value := by simp [lineValue, hsplit]
  suffices hpassed : Passed line (lineName line) (lineValue line) s₁ s' by
    obtain ⟨hr₁, hl₁, hhost⟩ := scanHost_eq_ok hs₁
    obtain ⟨hr, hvars, hlength⟩ := hpassed
    rw [ReadsLength, hl₁] at hlength
    exact ⟨⟨hsplit, htoken, by simpa using hvalid⟩, by rw [hr, hr₁], by rwa [ReadsHost, hvars], hlength⟩
  split at h
  · rename_i hte
    exact passed_of_stripped (by simp [strippedFirst, hte]) (sameRouting_of_ensure h ⟨rfl, rfl, rfl⟩)
  split at h
  · rename_i hexpect
    exact passed_of_stripped (by simp [strippedFirst, hexpect]) (sameRouting_of_ensure h ⟨rfl, rfl, rfl⟩)
  split at h
  · rename_i hstripped
    cases h
    refine passed_of_stripped ?_ ⟨rfl, rfl, rfl⟩
    rw [strippedFirst, Bool.or_assoc, hstripped, Bool.or_true]
  rename_i hte hexpect hstripped
  refine passed_of_scanForwarded ?_ h
  rw [strippedFirst, Bool.or_assoc, eq_false_of_ne_true hte, eq_false_of_ne_true hexpect,
    eq_false_of_ne_true hstripped]
  rfl

/-! ## The loop -/

/-- What the variables of the loop hold once the lines `seen` were read. -/
structure ScanOf (requestLine : List Char) (seen : List (List Char)) (s : HeaderScan) : Prop where
  fieldLine : ∀ line ∈ seen, FieldLine line
  rewritten : s.rewritten = requestLine ++ crlf ++ (forwardedLines seen).flatMap (· ++ crlf)
  host : s.hostCount = (linesNamed "host" seen).length ∧ ∀ line, (linesNamed "host" seen).getLast? = some line →
    ∃ host, normalizeHostAuthority (lineValue line) = .ok host ∧
      (s.hostAuthority, s.host) = (trim (lineValue line), some host)
  contentLength : (linesNamed "content-length" seen = [] ∧ s.contentLength = none) ∨
      ∃ line n, linesNamed "content-length" seen = [line] ∧
        parseContentLength (trim (lineValue line)) = .ok n ∧ s.contentLength = some n

theorem scanOf_nil (requestLine : List Char) : ScanOf requestLine [] { rewritten := requestLine ++ crlf } where
  fieldLine := by simp
  rewritten := by simp [forwardedLines]
  host := ⟨rfl, by simp [linesNamed]⟩
  contentLength := .inl ⟨rfl, rfl⟩

theorem ScanOf.step {requestLine : List Char} {seen : List (List Char)} (h : ScanOf requestLine seen s)
    (hstep : Accepted s s' line) : ScanOf requestLine (seen ++ [line]) s' where
  fieldLine := forall_mem_append.mpr ⟨h.fieldLine, forall_mem_singleton.mpr hstep.fieldLine⟩
  rewritten := by
    rw [hstep.rewritten, h.rewritten]
    simp only [forwardedLines, filter_append, filter_singleton]
    split <;> simp [*]
  host := by
    have hhost := hstep.host
    unfold ReadsHost at hhost
    rw [linesNamed_append, linesNamed_singleton]
    split at hhost
    · rename_i hnamed
      obtain ⟨host, hnormal, hvars⟩ := hhost
      obtain ⟨hcount, hvars⟩ := Prod.mk.inj hvars
      rw [if_pos hnamed, length_append, ← h.host.1]
      refine ⟨hcount, fun l hl => ?_⟩
      obtain rfl : line = l := by simpa using hl
      exact ⟨host, hnormal, hvars⟩
    · rename_i hnamed
      obtain ⟨hcount, hvars⟩ := Prod.mk.inj hhost
      rw [if_neg hnamed, append_nil, hcount, hvars]
      exact h.host
  contentLength := by
    have hlength := hstep.contentLength
    unfold ReadsLength at hlength
    rw [linesNamed_append, linesNamed_singleton]
    split at hlength
    · rename_i hnamed
      obtain ⟨hnone, n, hn, hsome⟩ := hlength
      rw [if_pos hnamed]
      rcases h.contentLength with ⟨hnil, -⟩ | ⟨l, m, -, -, hm⟩
      · exact .inr ⟨line, n, by rw [hnil]; rfl, hn, hsome⟩
      · exact absurd (hnone.symm.trans hm) (by simp)
    · rename_i hnamed
      rw [if_neg hnamed, append_nil, hlength]
      exact h.contentLength

theorem ScanOf.run {requestLine : List Char} (lines : List (List Char)) :
    ∀ {seen : List (List Char)} {s s' : HeaderScan}, ScanOf requestLine seen s →
      scanHeaders s lines = .ok s' → ScanOf requestLine (seen ++ fieldLines lines) s' := by
  induction lines with
  | nil =>
    intro seen s s' h hrun
    cases hrun
    simpa [fieldLines] using h
  | cons line lines ih =>
    intro seen s s' h hrun
    cases line with
    | nil =>
      cases hrun
      simpa [fieldLines] using h
    | cons c line =>
      obtain ⟨s₁, hs₁, hrun⟩ := bind_eq_ok.mp hrun
      have := ih (h.step (accepted_of_scanHeader hs₁)) hrun
      simpa [fieldLines] using this

/-! ## An accepted plan -/

/-- What an accepted plan consists of: the request line, the header lines of the request and the
body framing the mode announces. -/
structure PlanOf (client : ClientContext) (header : List UInt8) (plan : RequestPlan)
    (requestLine : List Char) (lines : List (List Char)) (hostLine : List Char) : Prop where
  text : (fromUtf8 header).map headLines = some (requestLine :: lines)
  request : ∃ parts, parseRequestLine requestLine = .ok parts
  fieldLine : ∀ line ∈ fieldLines lines, FieldLine line
  hostLines : linesNamed "host" (fieldLines lines) = [hostLine]
  host : normalizeHostAuthority (lineValue hostLine) = .ok plan.host
  planHeader : plan.header = encodeUtf8 ((requestLine :: (forwardedLines (fieldLines lines) ++
        forwardingLines client (trim (lineValue hostLine)) ++ closingLines plan.mode)).flatMap
      (· ++ crlf) ++ crlf)
  bodyLength : match plan.mode with
    | .fixedBody n =>
      (linesNamed "content-length" (fieldLines lines) = [] ∧ n = 0) ∨
        ∃ line, linesNamed "content-length" (fieldLines lines) = [line] ∧
          parseContentLength (trim (lineValue line)) = .ok n
    | _ => linesNamed "content-length" (fieldLines lines) = []

/-- The mode says which length the loop recorded. -/
theorem contentLength_of_requestMode {crypto : HandshakeCrypto}
    {parts : RequestParts} {chunked : Bool} {mode : RequestMode} (hchunked : transferIsChunked s parts = .ok chunked)
    (h : requestMode crypto s parts chunked = .ok mode) : match mode with
    | .fixedBody n => n = s.contentLength.getD 0
    | _ => s.contentLength = none := by
  obtain ⟨hasUpgrade, -, h⟩ := bind_eq_ok.mp h
  split at h
  · -- the WebSocket branch refuses a request with a length
    obtain ⟨key, hkey, h⟩ := bind_eq_ok.mp h
    cases h
    obtain ⟨-, hkey⟩ := ensure_bind_eq_ok.mp hkey
    obtain ⟨hnone, -⟩ := ensure_bind_eq_ok.mp hkey
    simp only [Bool.not_eq_true', Bool.or_eq_false_iff, Option.isSome_eq_false_iff, Option.isNone_iff_eq_none] at hnone
    exact hnone.1
  split at h
  · -- a chunked body never comes with a length
    rename_i hbody
    cases h
    obtain ⟨coded, -, hchunked⟩ := bind_eq_ok.mp hchunked
    obtain ⟨hnone, hchunked⟩ := ensure_bind_eq_ok.mp hchunked
    obtain ⟨-, hchunked⟩ := ensure_bind_eq_ok.mp hchunked
    cases hchunked
    simpa [hbody] using hnone
  · cases h
    rfl

section

variable {crypto : HandshakeCrypto} {header : List UInt8} {client : ClientContext} {plan : RequestPlan}
  (h : requestPlan crypto header client = .ok plan)

include h

theorem requestPlan_eq_ok : ∃ requestLine lines parts s, (fromUtf8 header).map headLines = some (requestLine :: lines) ∧
    parseRequestLine requestLine = .ok parts ∧ scanHeaders { rewritten := requestLine ++ crlf } lines = .ok s ∧
    finishPlan crypto client parts s = .ok plan := by
  obtain ⟨text, htext, h⟩ := bind_eq_ok.mp h
  have htext : fromUtf8 header = some text := okOr_eq_ok.mp htext
  split at h
  · exact absurd h (by simp)
  · exact absurd h (by simp)
  rename_i requestLine lines hnonempty hlines
  obtain ⟨parts, hparts, h⟩ := bind_eq_ok.mp h
  obtain ⟨-, h⟩ := ensure_bind_eq_ok.mp h
  obtain ⟨s, hscan, h⟩ := bind_eq_ok.mp h
  exact ⟨requestLine, lines, parts, s, by rw [htext, Option.map_some, hlines], hparts, hscan, h⟩

theorem planOf_of_requestPlan : ∃ requestLine lines hostLine, PlanOf client header plan requestLine lines hostLine := by
  obtain ⟨requestLine, lines, parts, s, htext, hparts, hscan, h⟩ := requestPlan_eq_ok h
  have hscanOf : ScanOf requestLine (fieldLines lines) s := ScanOf.run lines (scanOf_nil requestLine) hscan
  obtain ⟨hcount, h⟩ := ensure_bind_eq_ok.mp h
  obtain ⟨chunked, hchunked, h⟩ := bind_eq_ok.mp h
  obtain ⟨expectContinue, -, h⟩ := bind_eq_ok.mp h
  obtain ⟨mode, hmode, h⟩ := bind_eq_ok.mp h
  obtain ⟨host, hhost, h⟩ := bind_eq_ok.mp h
  cases h
  -- exactly one Host line, so the recorded host is that line's
  have hone : (linesNamed "host" (fieldLines lines)).length = 1 := by
    rw [← hscanOf.host.1]
    simpa using hcount
  obtain ⟨hostLine, hhostLines⟩ := length_eq_one_iff.mp hone
  obtain ⟨host', hnormal, hvars⟩ := hscanOf.host.2 hostLine (by simp [hhostLines])
  obtain ⟨hauthority, hsome⟩ := Prod.mk.inj hvars
  obtain rfl : host' = host := by
    have : s.host = some host := okOr_eq_ok.mp hhost
    exact Option.some.inj (hsome.symm.trans this)
  refine ⟨requestLine, lines, hostLine, ?_⟩
  refine
    { text := htext
      request := ⟨parts, hparts⟩
      fieldLine := hscanOf.fieldLine
      hostLines := hhostLines
      host := hnormal
      planHeader := ?_
      bodyLength := ?_ }
  · simp [hscanOf.rewritten, hauthority, forwardingHeaders]
  have hlength := contentLength_of_requestMode hchunked hmode
  cases mode with
  | fixedBody n =>
    obtain rfl : n = s.contentLength.getD 0 := hlength
    rcases hscanOf.contentLength with ⟨hnil, hnone⟩ | ⟨line, n, hline, hn, hsome⟩
    · exact .inl ⟨hnil, by rw [hnone]; rfl⟩
    · exact .inr ⟨line, hline, by rw [hsome]; exact hn⟩
  | chunkedBody | webSocket accept =>
    rcases hscanOf.contentLength with ⟨hnil, -⟩ | ⟨line, n, -, -, hsome⟩
    · exact hnil
    · exact absurd (hsome.symm.trans hlength) (by simp)

end

end Nyabase.HttpProxy
