import Mathlib.Data.Bool.AllAny
import Nyabase.SshProxy.ProxyProtocol

/-!
# Version 1 of the PROXY protocol

`read_v1` takes the bytes up to the first CRLF.  `parse_v1` accepts the lines of the specification, but for those
that ignore bytes which are no text, and the lines whose ports have a sign.
-/

namespace Nyabase.SshProxy

open Lib ProxyCommon List

/-! ## The line of version 1 -/

/-- The line ends where a CRLF ends for the first time. -/
def FirstCrlf (line : List UInt8) : Prop :=
  crlf <:+ line ∧ ∀ before, before <+: line → before ≠ line → ¬ crlf <:+ before

variable {full line stream rest : List UInt8} {text : List Char} {family : V1Family} {ip : IpAddr}
  {fields : List (List Char)}

theorem firstCrlf_iff : FirstCrlf full ↔ ∃ line, full = line ++ crlf ∧ ¬ crlf <:+: line := by
  constructor
  · rintro ⟨⟨line, rfl⟩, hfirst⟩
    refine ⟨line, rfl, ?_⟩
    rintro ⟨before, after, rfl⟩
    apply hfirst (before ++ crlf)
    · exact ⟨after ++ crlf, by simp⟩
    · intro h
      have hlength := congrArg List.length h
      simp only [length_append, crlf, length_cons, length_nil] at hlength
      omega
    · exact ⟨before, rfl⟩
  · rintro ⟨line, rfl, hnone⟩
    refine ⟨⟨line, rfl⟩, ?_⟩
    rintro before ⟨after, hsplit⟩ hne ⟨start, rfl⟩
    -- the bytes after the earlier CRLF are at least one, and the last byte of the first is no CR
    rcases eq_nil_or_concat after with rfl | ⟨after, last, rfl⟩
    · exact hne (by simpa using hsplit)
    rcases eq_nil_or_concat after with rfl | ⟨after, last', rfl⟩
    · have hends : start ++ [13] ++ [10] ++ [last] = line ++ [13] ++ [10] := by
        simpa [crlf] using hsplit
      have hinit := (append_inj' hends rfl).1
      have := (append_inj' hinit rfl).2
      simp at this
    · have hends : start ++ crlf ++ after ++ [last'] ++ [last] = line ++ [13] ++ [10] := by
        simpa [crlf] using hsplit
      have hinit := (append_inj' (append_inj' hends rfl).1 rfl).1
      exact hnone ⟨start, after, hinit⟩

/-- What `read_v1` reads from a line on. -/
def ReadsTo (line stream full rest : List UInt8) : Prop :=
  ∃ more, full = line ++ more ∧ stream = more ++ rest ∧ FirstCrlf full ∧ full.length ≤ v1MaxLine

theorem readsTo_of_crlf (hshort : line.length ≤ v1MaxLine) (hline : FirstCrlf line) :
    ReadsTo line stream full rest ↔ line = full ∧ stream = rest := by
  constructor
  · rintro ⟨more, rfl, rfl, hfull, -⟩
    have hmore : more = [] := by
      by_contra hne
      refine hfull.2 line (prefix_append _ _) ?_ hline.1
      intro h
      exact hne (self_eq_append_right.mp h)
    subst hmore
    simp
  · rintro ⟨rfl, rfl⟩
    exact ⟨[], by simp, by simp, hline, hshort⟩

theorem readsTo_cons {byte : UInt8} (hcrlf : ¬ crlf <:+ line) :
    ReadsTo line (byte :: stream) full rest ↔ ReadsTo (line ++ [byte]) stream full rest := by
  constructor
  · rintro ⟨more, rfl, hstream, hfull, hle⟩
    cases more with
    | nil =>
      rw [append_nil] at hfull
      exact absurd hfull.1 hcrlf
    | cons first more =>
      obtain ⟨rfl, rfl⟩ := List.cons.inj hstream
      exact ⟨more, by simp, rfl, hfull, hle⟩
  · rintro ⟨more, rfl, rfl, hfull, hle⟩
    exact ⟨byte :: more, by simp, rfl, hfull, hle⟩

theorem readV1Line_eq_ok (hshort : line.length ≤ v1MaxLine)
    (hfirst : ∀ before, before <+: line → before ≠ line → ¬ crlf <:+ before) :
    readV1Line line stream = .ok (full, rest) ↔ ReadsTo line stream full rest := by
  fun_induction readV1Line line stream with
  | case1 line hcrlf | case4 line byte stream hcrlf =>
    rw [readsTo_of_crlf hshort ⟨hcrlf, hfirst⟩]
    simp
  | case2 line hcrlf | case3 line hcrlf =>
    refine iff_of_false nofun ?_
    rintro ⟨more, rfl, hstream, hfull, -⟩
    obtain ⟨rfl, -⟩ := append_eq_nil_iff.mp hstream.symm
    rw [append_nil] at hfull
    exact hcrlf hfull.1
  | case5 line byte stream hcrlf hlength =>
    refine iff_of_false nofun ?_
    rintro ⟨more, rfl, -, hfull, hle⟩
    have hmore : more = [] := by
      rw [length_append, hlength] at hle
      exact length_eq_zero_iff.mp (by omega)
    rw [hmore, append_nil] at hfull
    exact hcrlf hfull.1
  | case6 line byte stream hcrlf hlength ih =>
    rw [readsTo_cons hcrlf]
    apply ih
    · rw [length_append, length_singleton]
      omega
    intro before hbefore hne
    rcases prefix_concat_iff.mp hbefore with h | h
    · exact absurd h hne
    by_cases heq : before = line
    · rw [heq]
      exact hcrlf
    · exact hfirst before h heq

/-- `read_v1` takes the bytes up to the first CRLF, and no more than 107 of them. -/
theorem readV1Line_nil_eq_ok : readV1Line [] stream = .ok (full, rest) ↔
      ∃ line, full = line ++ crlf ∧ ¬ crlf <:+: line ∧ full.length ≤ v1MaxLine ∧ stream = full ++ rest := by
  have hnil : ∀ before : List UInt8, before <+: [] → before ≠ [] → ¬ crlf <:+ before :=
    fun before hbefore hne => absurd (prefix_nil.mp hbefore) hne
  rw [readV1Line_eq_ok (Nat.zero_le _) hnil]
  constructor
  · rintro ⟨more, rfl, rfl, hfull, hle⟩
    obtain ⟨line, hline, hnone⟩ := firstCrlf_iff.mp hfull
    exact ⟨line, hline, hnone, hle, rfl⟩
  · rintro ⟨line, hline, hnone, hle, rfl⟩
    exact ⟨full, rfl, rfl, firstCrlf_iff.mpr ⟨line, hline, hnone⟩, hle⟩

/-! ## The fields of version 1 -/

/-- What `parse_port` reads: a port as it is written, or a sign and digits, which may begin with zeros. -/
inductive ReadPort : List Char → UInt16 → Prop where
  | plain {text : List Char} {port : UInt16} (plain : PlainPort text port) : ReadPort text port
  | signed {digits : List Char} (some : digits ≠ []) (all : ∀ c ∈ digits, isDigitOf 10 c = true)
      (small : numeralValue 10 digits < 65536) : ReadPort ('+' :: digits) (numeralValue 10 digits).toUInt16

theorem parseDigits_eq_some {port : UInt16} : parseDigits text = some port ↔ text ≠ [] ∧
    (∀ c ∈ text, isDigitOf 10 c = true) ∧ numeralValue 10 text < 65536 ∧ (numeralValue 10 text).toUInt16 = port := by
  simp [parseDigits, and_assoc]

theorem PlainPort.unsigned {port : UInt16} (h : PlainPort text port) : text.head? ≠ some '+' := by
  rw [h]
  intro hhead
  have hdigit : isDigitOf 10 '+' = true := isDigitOf_of_mem_toDigits (List.mem_of_mem_head? hhead)
  cases hdigit

theorem parsePort_eq_ok {port : UInt16} : parsePort text = .ok port ↔ ReadPort text port := by
  unfold parsePort parseU16
  constructor
  · intro h
    split at h
    · cases h
    next hplain =>
    rw [not_or] at hplain
    by_cases hsign : text.head? = some '+'
    · simp only [if_pos hsign, okOr_eq_ok, parseDigits_eq_some] at h
      obtain ⟨hne, hall, hlt, rfl⟩ := h
      obtain ⟨rest, rfl⟩ := head?_eq_some_iff.mp hsign
      exact .signed hne hall hlt
    · simp only [if_neg hsign, okOr_eq_ok, parseDigits_eq_some] at h
      obtain ⟨hne, hall, hlt, rfl⟩ := h
      have hvalue : (numeralValue 10 text).toUInt16.toNat = numeralValue 10 text := Nat.mod_eq_of_lt hlt
      have htext : portText (numeralValue 10 text).toUInt16 = text := by
        rw [portText, hvalue, toDigits_numeralValue hne hall]
        intro hzero
        have hpos := length_pos_of_ne_nil hne
        by_contra hlong
        exact hplain.2 ⟨by omega, hzero⟩
      exact .plain htext.symm
  · rintro (rfl | ⟨hne, hall, hlt⟩)
    · have hvalue : numeralValue 10 (portText port) = port.toNat := numeralValue_toDigits _
      rw [if_neg, if_neg (PlainPort.unsigned rfl), okOr_eq_ok, parseDigits_eq_some, hvalue]
      · exact ⟨Nat.toDigits_ne_nil, fun c hc => isDigitOf_of_mem_toDigits hc, port.toNat_lt, by simp⟩
      · rintro (hnil | ⟨hlong, hzero⟩)
        · exact Nat.toDigits_ne_nil hnil
        · have := length_toDigits_of_head hzero
          rw [portText] at hlong
          omega
    · rw [if_neg (by simp), okOr_eq_ok]
      exact parseDigits_eq_some.mpr ⟨hne, hall, hlt, rfl⟩

theorem parseIp_eq_ok : parseIp family.text text = .ok ip ↔ V1Address family ip text := by
  cases family with
  | tcp4 =>
    have hread : parseIp V1Family.tcp4.text text = .ok ip ↔ (parseIpv4 text).map IpAddr.v4 = some ip := okOr_eq_ok
    rw [hread, Option.map_eq_some_iff]
    cases ip with
    | v4 octets => simp [V1Address, parseIpv4_eq_some]
    | v6 segments => simp [V1Address]
  | tcp6 =>
    have hfamily : V1Family.tcp6.text ≠ "TCP4".toList := by decide
    have hsame : V1Family.tcp6.text = "TCP6".toList := rfl
    unfold parseIp
    simp only [if_neg hfamily, if_pos hsame]
    split
    · next segments hread =>
      have htext := parseIpv6_eq_some.mp hread
      cases ip with
      | v4 octets => simp [V1Address]
      | v6 other =>
        simp only [Except.ok.injEq, IpAddr.v6.injEq, V1Address]
        constructor
        · rintro rfl
          exact htext
        · intro hother
          have := (parseIpv6_eq_some.mpr hother).symm.trans hread
          exact Subtype.ext (Option.some.inj this).symm
    · next hread =>
      cases ip with
      | v4 octets => simp [V1Address]
      | v6 other =>
        simp only [reduceCtorEq, V1Address, false_iff]
        intro hother
        rw [parseIpv6_eq_some.mpr hother] at hread
        cases hread

/-- No other protocol is supported. -/
theorem family_of_parseIp {family : List Char} (h : parseIp family text = .ok ip) :
    ∃ known : V1Family, known.text = family := by
  unfold parseIp at h
  split at h
  · next htcp4 => exact ⟨.tcp4, htcp4.symm⟩
  · split at h
    · next htcp6 => exact ⟨.tcp6, htcp6.symm⟩
    · cases h

/-! ## Lines of version 1 -/

theorem V1Address.isAddressText (h : V1Address family ip text) : IsAddressText text := by
  cases family with
  | tcp4 =>
    cases ip with
    | v4 octets =>
      rw [show text = displayIpv4 octets from h]
      exact isAddressText_displayIpv4 octets
    | v6 segments => exact h.elim
  | tcp6 =>
    cases ip with
    | v4 octets => exact h.elim
    | v6 segments => exact Ipv6Text.isAddressText h

/-- The characters of a line between its blanks. -/
def IsField (text : List Char) : Prop := ∀ c ∈ text, 43 ≤ c.toNat ∧ c.toNat ≤ 102

theorem IsField.of_address (h : IsAddressText text) : IsField text := by
  intro c hc
  have := h.range c hc
  omega

theorem ReadPort.isField {port : UInt16} (h : ReadPort text port) : IsField text := by
  cases h with
  | plain hplain =>
    rw [hplain]
    exact .of_address fun _ hc => .inl (isDigitOf_of_mem_toDigits hc)
  | signed hne hall =>
    intro c hc
    rcases mem_cons.mp hc with rfl | hdigit
    · decide
    · have hrange := isDigitOf_ten.mp (hall c hdigit)
      exact ⟨le_trans (b := 48) (by decide) hrange.1, le_trans (b := 57) hrange.2 (by decide)⟩

/-- An end as `parse_v1` reads it. -/
abbrev ReadEnd (family : V1Family) := V1End family ReadPort

def V1End.toRead (plain : V1End family PlainPort) : ReadEnd family := { plain with portOf := .plain plain.portOf }

variable {source destination : ReadEnd family}

theorem V1End.isField_fields (source destination : ReadEnd family) :
    ∀ field ∈ source.fields destination, IsField field := by
  intro field hfield
  simp only [V1End.fields, mem_cons, not_mem_nil, or_false] at hfield
  rcases hfield with rfl | rfl | rfl | rfl | rfl | rfl
  · exact all_iff_forall_prop.mp (by decide)
  · cases family <;> exact all_iff_forall_prop.mp (by decide)
  · exact .of_address source.ipOf.isAddressText
  · exact .of_address destination.ipOf.isAddressText
  · exact source.portOf.isField
  · exact destination.portOf.isField

theorem V1End.splitOn_line (source destination : ReadEnd family) :
    (source.line destination).splitOn ' ' = source.fields destination := by
  apply splitOn_intercalate
  · intro field hfield hspace
    exact absurd (V1End.isField_fields _ _ field hfield ' ' hspace).1 (by decide)
  · simp [V1End.fields]

/-- `parse_v1` on a line that is a text. -/
theorem parseV1_eq (htext : fromUtf8 line = some text) {first : List Char}
    (hsplit : text.splitOn ' ' = first :: fields) :
    parseV1 line = if first = "PROXY".toList then parseV1Fields fields else refuse "not a PROXY v1 header" := by
  rw [parseV1, htext]
  simp only [okOr, bind, Except.bind, hsplit]

theorem text_eq_of_splitOn (h : text.splitOn ' ' = fields) : text = [' '].intercalate fields := by
  rw [← h, intercalate_splitOn]

theorem isAscii_unknown : ∀ c ∈ "PROXY UNKNOWN ".toList, isAscii c = true :=
  all_eq_true.mp (by decide)

theorem splitOn_unknown (tail : List Char) : ("PROXY UNKNOWN ".toList ++ tail).splitOn ' ' =
    "PROXY".toList :: "UNKNOWN".toList :: tail.splitOn ' ' := by
  have hwords : "PROXY UNKNOWN".toList.splitOn ' ' = ["PROXY".toList, "UNKNOWN".toList] := by decide
  exact (splitOn_append_cons_self "PROXY UNKNOWN".toList tail).trans (by rw [hwords]; rfl)

/-- The addresses and ports of a line. -/
theorem parseV1Addresses_eq_ok {family : List Char} {found : SocketAddr} :
    parseV1Addresses family fields = .ok found ↔ ∃ (known : V1Family) (source destination : ReadEnd known),
      "PROXY".toList :: family :: fields = source.fields destination ∧ found = source.address.toClient := by
  constructor
  · intro h
    unfold parseV1Addresses at h
    split at h
    · obtain ⟨source, hsource, h⟩ := bind_eq_ok.mp h
      obtain ⟨destination, hdestination, h⟩ := bind_eq_ok.mp h
      obtain ⟨sourcePort, hsourcePort, h⟩ := bind_eq_ok.mp h
      obtain ⟨destinationPort, hdestinationPort, h⟩ := bind_eq_ok.mp h
      obtain rfl := Except.ok.inj h
      obtain ⟨known, rfl⟩ := family_of_parseIp hsource
      exact ⟨known, ⟨⟨source, sourcePort⟩, _, _, parseIp_eq_ok.mp hsource, parsePort_eq_ok.mp hsourcePort⟩,
        ⟨⟨destination, destinationPort⟩, _, _, parseIp_eq_ok.mp hdestination, parsePort_eq_ok.mp hdestinationPort⟩,
        rfl, rfl⟩
    · cases h
  · rintro ⟨known, source, destination, hfields, rfl⟩
    obtain ⟨-, rfl, rfl⟩ := hfields
    simp only [parseV1Addresses, parseIp_eq_ok.mpr source.ipOf, parseIp_eq_ok.mpr destination.ipOf,
      parsePort_eq_ok.mpr source.portOf, parsePort_eq_ok.mpr destination.portOf]
    rfl

/-- The lines `parse_v1` accepts: ports may have a sign, and what follows `UNKNOWN` has to be a text. -/
abbrev ReadLine : List UInt8 → Option SocketAddr → Prop := V1LineOf ReadPort fun rest => ∃ text, encodeUtf8 text = rest

theorem parseV1_eq_ok {found : Option SocketAddr} :
    parseV1 line = .ok found ↔ ∃ source, ReadLine line source ∧ found = source.map SocketAddr.toClient := by
  constructor
  · intro h
    obtain ⟨text, htext, -⟩ := bind_eq_ok.mp h
    rw [okOr_eq_ok] at htext
    obtain ⟨first, fields, hsplit⟩ := exists_cons_of_ne_nil (splitOn_ne_nil ' ' text)
    rw [parseV1_eq htext hsplit] at h
    rw [← encodeUtf8_of_fromUtf8 htext, text_eq_of_splitOn hsplit]
    by_cases hproxy : first = "PROXY".toList
    · subst hproxy
      cases fields with
      | nil => cases h
      | cons family fields =>
        simp only [parseV1Fields] at h
        by_cases hunknown : family = "UNKNOWN".toList
        · subst hunknown
          obtain rfl := Except.ok.inj h
          refine ⟨none, ?_, rfl⟩
          cases fields with
          | nil => exact .unknown
          | cons field fields =>
            have htail : ∀ tail, ReadLine (encodeUtf8 ("PROXY UNKNOWN ".toList ++ tail)) none := by
              intro tail
              rw [encodeUtf8_append]
              exact .ignored ⟨tail, rfl⟩
            exact htail ([' '].intercalate (field :: fields))
        · rw [if_neg hunknown] at h
          obtain ⟨address, haddress, rfl⟩ := map_eq_ok.mp h
          obtain ⟨known, source, destination, hfields, rfl⟩ := parseV1Addresses_eq_ok.mp haddress
          rw [hfields]
          exact ⟨some source.address, .proxied source destination, rfl⟩
    · rw [if_neg hproxy] at h
      cases h
  · rintro ⟨source, hline, rfl⟩
    cases hline with
    | @proxied family source destination =>
      rw [parseV1_eq (fromUtf8_encodeUtf8 _) (source.splitOn_line destination), if_pos rfl]
      simp only [parseV1Fields, if_neg (show family.text ≠ "UNKNOWN".toList by cases family <;> decide)]
      exact map_eq_ok.mpr ⟨_, parseV1Addresses_eq_ok.mpr ⟨family, source, destination, rfl, rfl⟩, rfl⟩
    | unknown => rfl
    | ignored htext =>
      obtain ⟨text, rfl⟩ := htext
      rw [← encodeUtf8_append, parseV1_eq (fromUtf8_encodeUtf8 _) (splitOn_unknown text), if_pos rfl]
      rfl

/-! ## Lines that are misread -/

def V1End.Signed (read : ReadEnd family) : Prop := read.portText.head? = some '+'

theorem ReadPort.plainPort {port : UInt16} (h : ReadPort text port) (hunsigned : text.head? ≠ some '+') :
    PlainPort text port := by
  cases h with
  | plain hplain => exact hplain
  | signed => exact absurd rfl hunsigned

/-- The lines on which `parse_v1` and the specification differ: otherwise well-formed ones with a sign before a port,
and those of which it is to ignore bytes that are no text. -/
inductive MisreadLine : List UInt8 → Prop where
  | signed {family : V1Family} {source destination : ReadEnd family} (sign : source.Signed ∨ destination.Signed) :
      MisreadLine (encodeUtf8 (source.line destination))
  | ignored {rest : List UInt8} (bytes : fromUtf8 rest = none) :
      MisreadLine (encodeUtf8 "PROXY UNKNOWN ".toList ++ rest)

theorem encodeUtf8_inj {other : List Char} (h : encodeUtf8 text = encodeUtf8 other) : text = other := by
  have hsame := congrArg fromUtf8 h
  rw [fromUtf8_encodeUtf8, fromUtf8_encodeUtf8] at hsame
  exact Option.some.inj hsame

/-- The ports of a line of the specification have no sign. -/
theorem V1Line.unsigned {found : Option SocketAddr} (h : V1Line (encodeUtf8 (source.line destination)) found) :
    ¬ source.Signed ∧ ¬ destination.Signed := by
  have hsplit := source.splitOn_line destination
  have hfamily : family.text ≠ "UNKNOWN".toList := by cases family <;> decide
  generalize hline : encodeUtf8 (source.line destination) = line at h
  cases h with
  | proxied other other' =>
    rw [encodeUtf8_inj hline] at hsplit
    have hfields := hsplit.symm.trans (V1End.splitOn_line other.toRead other'.toRead)
    simp only [V1End.fields, List.cons.injEq, and_true] at hfields
    obtain ⟨-, -, -, -, hport, hport'⟩ := hfields
    unfold V1End.Signed
    rw [hport, hport']
    exact ⟨other.portOf.unsigned, other'.portOf.unsigned⟩
  | unknown =>
    rw [encodeUtf8_inj hline] at hsplit
    exact absurd (congrArg List.length hsplit) (by simp [V1End.fields]; decide)
  | ignored =>
    obtain ⟨tail, htail⟩ := exists_append_of_encodeUtf8 isAscii_unknown hline
    rw [htail, splitOn_unknown] at hsplit
    exact absurd (List.cons.inj (List.cons.inj hsplit).2).1.symm hfamily

/-- A line is read as the specification has it, unless it is one of those. -/
theorem readLine_iff (hread : ¬ MisreadLine line) {source : Option SocketAddr} :
    ReadLine line source ↔ V1Line line source := by
  constructor
  · intro h
    cases h with
    | proxied source destination =>
      obtain ⟨hsource, hdestination⟩ := not_or.mp fun sign => hread (.signed sign)
      exact .proxied { source with portOf := source.portOf.plainPort hsource }
        { destination with portOf := destination.portOf.plainPort hdestination }
    | unknown => exact .unknown
    | ignored => exact .ignored trivial
  · intro h
    cases h with
    | proxied source destination => exact .proxied source.toRead destination.toRead
    | unknown => exact .unknown
    | @ignored rest =>
      cases htext : fromUtf8 rest with
      | none => exact absurd (.ignored htext) hread
      | some text => exact .ignored ⟨text, encodeUtf8_of_fromUtf8 htext⟩

/-- One of those lines is read and is none of the specification's, or is one and is not read. -/
theorem MisreadLine.differs (h : MisreadLine line) :
    (∃ source, ReadLine line source ∧ ∀ other, ¬ V1Line line other) ∨
      V1Line line none ∧ ∀ source, ¬ ReadLine line source := by
  cases h with
  | @signed family source destination hsign =>
    exact .inl ⟨_, .proxied source destination, fun other hline => hsign.elim hline.unsigned.1 hline.unsigned.2⟩
  | @ignored rest hbytes =>
    refine .inr ⟨.ignored trivial, fun source hline => ?_⟩
    obtain ⟨text, htext⟩ : ∃ text, encodeUtf8 text = encodeUtf8 "PROXY UNKNOWN ".toList ++ rest := by
      generalize encodeUtf8 "PROXY UNKNOWN ".toList ++ rest = line at hline ⊢
      rcases hline with _ | _ | ⟨⟨text, rfl⟩⟩
      · exact ⟨_, rfl⟩
      · exact ⟨_, rfl⟩
      · exact ⟨_, encodeUtf8_append _ _⟩
    obtain ⟨tail, rfl⟩ := exists_append_of_encodeUtf8 isAscii_unknown htext
    rw [encodeUtf8_append, append_cancel_left_eq] at htext
    rw [← htext, fromUtf8_encodeUtf8] at hbytes
    cases hbytes

/-- The first line of the stream, if there is one of at most 107 bytes, is not misread. -/
def PlainV1 (stream : List UInt8) : Prop :=
  ∀ line rest, stream = line ++ crlf ++ rest → ¬ crlf <:+: line → (line ++ crlf).length ≤ v1MaxLine → ¬ MisreadLine line

theorem take_append_crlf (line : List UInt8) : (line ++ crlf).take ((line ++ crlf).length - 2) = line := by
  simp [crlf]

/-- `read_v1` reads the first line, if it has at most 107 bytes. -/
theorem readV1_eq_ok {found : Option SocketAddr} : readV1 stream = .ok (found, rest) ↔
    ∃ line source, stream = line ++ crlf ++ rest ∧ ¬ crlf <:+: line ∧ (line ++ crlf).length ≤ v1MaxLine ∧
      ReadLine line source ∧ found = source.map SocketAddr.toClient := by
  constructor
  · intro h
    obtain ⟨⟨full, after⟩, hread, h⟩ := bind_eq_ok.mp h
    obtain ⟨line, rfl, hnone, hle, hstream⟩ := readV1Line_nil_eq_ok.mp hread
    obtain ⟨parsed, hparsed, h⟩ := bind_eq_ok.mp h
    obtain ⟨rfl, rfl⟩ := Prod.mk.inj (Except.ok.inj h)
    rw [take_append_crlf, parseV1_eq_ok] at hparsed
    obtain ⟨source, hline, hfound⟩ := hparsed
    exact ⟨line, source, hstream, hnone, hle, hline, hfound⟩
  · rintro ⟨line, source, rfl, hnone, hle, hline, rfl⟩
    refine bind_eq_ok.mpr ⟨(line ++ crlf, rest), readV1Line_nil_eq_ok.mpr ⟨line, rfl, hnone, hle, rfl⟩, ?_⟩
    refine bind_eq_ok.mpr ⟨source.map SocketAddr.toClient, ?_, rfl⟩
    rw [take_append_crlf, parseV1_eq_ok]
    exact ⟨source, hline, rfl⟩

/-- The lines that are misread are exactly what keeps `read_v1` from reading the headers of the specification. -/
theorem plainV1_iff : PlainV1 stream ↔ ∀ found rest, readV1 stream = .ok (found, rest) ↔
    ∃ header source, stream = header ++ rest ∧ V1Header header source ∧ found = source.map SocketAddr.toClient := by
  constructor
  · intro hplain found rest
    rw [readV1_eq_ok]
    constructor
    · rintro ⟨line, source, hstream, hnone, hle, hline, hfound⟩
      have hread := hplain line rest hstream hnone hle
      exact ⟨_, source, hstream, ⟨line, rfl, hnone, hle, (readLine_iff hread).mp hline⟩, hfound⟩
    · rintro ⟨header, source, hstream, ⟨line, rfl, hnone, hle, hline⟩, hfound⟩
      have hread := hplain line rest hstream hnone hle
      exact ⟨line, source, hstream, hnone, hle, (readLine_iff hread).mpr hline, hfound⟩
  · intro hexact line rest hstream hnone hle hmisread
    rcases hmisread.differs with ⟨source, hline, hother⟩ | ⟨hline, hother⟩
    · obtain ⟨header, source', hheader, ⟨line', rfl, -, -, hline'⟩, -⟩ :=
        (hexact _ rest).mp (readV1_eq_ok.mpr ⟨line, source, hstream, hnone, hle, hline, rfl⟩)
      rw [hstream] at hheader
      rw [← append_cancel_right (append_cancel_right hheader)] at hline'
      exact hother source' hline'
    · obtain ⟨line', source, hstream', -, -, hline', -⟩ :=
        readV1_eq_ok.mp ((hexact none rest).mpr ⟨_, none, hstream, ⟨line, rfl, hnone, hle, hline⟩, rfl⟩)
      rw [hstream] at hstream'
      rw [← append_cancel_right (append_cancel_right hstream')] at hline'
      exact hother source hline'

end Nyabase.SshProxy
