import Nyabase.SshProxy.ProxyProtocol

/-!
# Version 2 of the PROXY protocol

`read_v2` takes sixteen bytes and the body they announce.  `parse_v2` accepts the headers of the specification, and
those PROXY commands that differ from one only in what it does not look at.
-/

namespace Nyabase.SshProxy

open Lib ProxyCommon List

/-! ## Bytes of version 2 -/

theorem toNat_shiftRight_four (byte : UInt8) : (byte >>> 4).toNat = byte.toNat / 16 := by
  rw [UInt8.toNat_shiftRight, Nat.shiftRight_eq_div_pow]
  rfl

theorem toNat_and_fifteen (byte : UInt8) : (byte &&& 0x0f).toNat = byte.toNat % 16 := by
  exact Nat.and_two_pow_sub_one_eq_mod byte.toNat 4

theorem beBytes_fromBeBytes (high low : UInt8) : beBytes (fromBeBytes high low) = [high, low] := by
  have hhigh := high.toNat_lt
  have hlow := low.toNat_lt
  unfold beBytes
  congr 1
  · apply UInt8.toNat_inj.mp
    rw [UInt16.toNat_toUInt8, toNat_shiftRight_eight, toNat_fromBeBytes]
    omega
  · congr 1
    apply UInt8.toNat_inj.mp
    rw [UInt16.toNat_toUInt8, toNat_fromBeBytes]
    omega

theorem portAt_beBytes (port : UInt16) (rest : List UInt8) : portAt (beBytes port ++ rest) = port :=
  fromBeBytes_octets port

variable {bytes body stream rest : List UInt8} {family : UInt8} {found : Option SocketAddr}

theorem beBytes_portAt (h : 2 ≤ bytes.length) : beBytes (portAt bytes) = bytes.take 2 := by
  match bytes, h with
  | high :: low :: rest, _ => exact beBytes_fromBeBytes high low

theorem v4Bytes_octetsAt (h : 4 ≤ bytes.length) : v4Bytes (octetsAt bytes) = bytes.take 4 := by
  match bytes, h with
  | _ :: _ :: _ :: _ :: _, _ => rfl

theorem segmentsAt_v6Bytes (segments : { segments : List UInt16 // segments.length = 8 }) (rest : List UInt8) :
    segmentsAt (v6Bytes segments.val ++ rest) = segments := by
  obtain ⟨segments, hlength⟩ := segments
  match segments, hlength with
  | [a, b, c, d, e, f, g, h], _ =>
    apply Subtype.ext
    show [fromBeBytes _ _, fromBeBytes _ _, fromBeBytes _ _, fromBeBytes _ _, fromBeBytes _ _, fromBeBytes _ _,
      fromBeBytes _ _, fromBeBytes _ _] = _
    simp [v6Bytes, beBytes, fromBeBytes_octets]

theorem v6Bytes_segmentsAt (h : 16 ≤ bytes.length) : v6Bytes (segmentsAt bytes).val = bytes.take 16 := by
  match bytes, h with
  | a :: b :: c :: d :: e :: f :: g :: h :: i :: j :: k :: l :: m :: n :: o :: p :: rest, _ =>
    show beBytes (fromBeBytes a b) ++ (beBytes (fromBeBytes c d) ++ (beBytes (fromBeBytes e f) ++
      (beBytes (fromBeBytes g h) ++ (beBytes (fromBeBytes i j) ++ (beBytes (fromBeBytes k l) ++
      (beBytes (fromBeBytes m n) ++ (beBytes (fromBeBytes o p) ++ []))))))) = _
    simp only [beBytes_fromBeBytes]
    rfl

theorem v6Bytes_length (segments : { segments : List UInt16 // segments.length = 8 }) :
    (v6Bytes segments.val).length = 16 := by
  obtain ⟨segments, hlength⟩ := segments
  match segments, hlength with
  | [_, _, _, _, _, _, _, _], _ => rfl

/-! ## The body of version 2 -/

/-- The bytes of a PROXY command that the specification asks for and the reader does not look at: the transport
protocol is one of those assigned, and a UNIX header has its addresses. -/
def PlainCommand (protocol : UInt8) (body : List UInt8) : Prop :=
  protocol &&& 0x0f ≤ 2 ∧ (protocol >>> 4 = 0x3 → 216 ≤ body.length)

/-- The bodies `parse_v2` takes addresses from: it knows the family, and the addresses are all there. -/
def AddressesFit (family : UInt8) (body : List UInt8) : Prop :=
  family = 0x0 ∨ family = 0x1 ∧ 12 ≤ body.length ∨ family = 0x2 ∧ 36 ≤ body.length ∨ family = 0x3

theorem exists_parseV2Addresses : (∃ found, parseV2Addresses family body = .ok found) ↔ AddressesFit family body := by
  constructor
  · rintro ⟨found, h⟩
    revert h
    fun_cases parseV2Addresses family body with
    | case2 hfamily hlength => exact fun _ => .inr (.inl ⟨hfamily, not_lt.mp hlength⟩)
    | case4 _ hfamily hlength => exact fun _ => .inr (.inr (.inl ⟨hfamily, not_lt.mp hlength⟩))
    | case5 _ _ hfamily => exact fun _ => hfamily.imp_right fun hunix => .inr (.inr hunix)
    | case1 | case3 | case6 => rintro ⟨⟩
  · rintro (rfl | ⟨rfl, hlength⟩ | ⟨rfl, hlength⟩ | rfl)
    · exact ⟨none, rfl⟩
    · exact ⟨_, (if_pos rfl).trans (if_neg hlength.not_gt)⟩
    · exact ⟨_, (if_neg (by decide)).trans ((if_pos rfl).trans (if_neg hlength.not_gt))⟩
    · exact ⟨none, rfl⟩

theorem V2Body.unix_length {source : Option SocketAddr} (h : V2Body family body source) (hunix : family = 0x3) :
    216 ≤ body.length := by
  cases h with
  | unspecified | inet | inet6 => cases hunix
  | unix _ haddresses => exact haddresses

theorem parseV2Addresses_of_v2Body {source : Option SocketAddr} (h : V2Body family body source) :
    parseV2Addresses family body = .ok (source.map SocketAddr.toClient) := by
  cases h with
  | unspecified | unix => rfl
  | inet source destination sourcePort destinationPort extensions =>
    have hlength : ¬ (v4Bytes source ++ v4Bytes destination ++ beBytes sourcePort ++ beBytes destinationPort ++
        extensions).length < 12 := by
      simp only [length_append, v4Bytes, beBytes, length_cons, length_nil]
      omega
    have hport : portAt ((v4Bytes source ++ v4Bytes destination ++ beBytes sourcePort ++ beBytes destinationPort ++
        extensions).drop 8) = sourcePort := fromBeBytes_octets sourcePort
    simp only [parseV2Addresses, if_true, if_neg hlength, hport]
    rfl
  | inet6 source destination sourcePort destinationPort extensions =>
    have hlength : ¬ (v6Bytes source.val ++ v6Bytes destination.val ++ beBytes sourcePort ++
        beBytes destinationPort ++ extensions).length < 36 := by
      simp only [length_append, v6Bytes_length, beBytes, length_cons, length_nil]
      omega
    have hdrop : (v6Bytes source.val ++ v6Bytes destination.val ++ beBytes sourcePort ++
        beBytes destinationPort ++ extensions).drop 32 =
          beBytes sourcePort ++ (beBytes destinationPort ++ extensions) := by
      have hcount : (v6Bytes source.val ++ v6Bytes destination.val).length = 32 := by
        rw [length_append, v6Bytes_length, v6Bytes_length]
      rw [← hcount, append_assoc, append_assoc, drop_left]
    have hsource : segmentsAt (v6Bytes source.val ++ v6Bytes destination.val ++ beBytes sourcePort ++
        beBytes destinationPort ++ extensions) = source := by
      simp only [append_assoc]
      exact segmentsAt_v6Bytes source _
    have hne : (0x2 : UInt8) ≠ 0x1 := by decide
    simp only [parseV2Addresses, if_neg hne, if_true, if_neg hlength, hdrop, hsource, portAt_beBytes]
    rfl

theorem v2Body_of_parseV2Addresses (hunix : family = 0x3 → 216 ≤ body.length)
    (h : parseV2Addresses family body = .ok found) :
    ∃ source, V2Body family body source ∧ found = source.map SocketAddr.toClient := by
  revert h
  fun_cases parseV2Addresses family body with
  | case2 hfamily hlength =>
    rintro ⟨⟩
    subst hfamily
    have hbody : v4Bytes (octetsAt body) ++ v4Bytes (octetsAt (body.drop 4)) ++ beBytes (portAt (body.drop 8)) ++
        beBytes (portAt (body.drop 10)) ++ body.drop 12 = body := by
      rw [v4Bytes_octetsAt (by omega), v4Bytes_octetsAt (by rw [length_drop]; omega),
        beBytes_portAt (by rw [length_drop]; omega), beBytes_portAt (by rw [length_drop]; omega),
        append_assoc, drop_take_append_drop body 10 2, append_assoc, drop_take_append_drop body 8 2,
        append_assoc, drop_take_append_drop body 4 4, take_append_drop]
    have hinet := V2Body.inet (octetsAt body) (octetsAt (body.drop 4)) (portAt (body.drop 8)) (portAt (body.drop 10))
      (body.drop 12)
    rw [hbody] at hinet
    exact ⟨_, hinet, rfl⟩
  | case4 _ hfamily hlength =>
    rintro ⟨⟩
    subst hfamily
    have hbody : v6Bytes (segmentsAt body).val ++ v6Bytes (segmentsAt (body.drop 16)).val ++
        beBytes (portAt (body.drop 32)) ++ beBytes (portAt (body.drop 34)) ++ body.drop 36 = body := by
      rw [v6Bytes_segmentsAt (by omega), v6Bytes_segmentsAt (by rw [length_drop]; omega),
        beBytes_portAt (by rw [length_drop]; omega), beBytes_portAt (by rw [length_drop]; omega),
        append_assoc, drop_take_append_drop body 34 2, append_assoc, drop_take_append_drop body 32 2,
        append_assoc, drop_take_append_drop body 16 16, take_append_drop]
    have hinet6 := V2Body.inet6 (segmentsAt body) (segmentsAt (body.drop 16)) (portAt (body.drop 32))
      (portAt (body.drop 34)) (body.drop 36)
    rw [hbody] at hinet6
    exact ⟨_, hinet6, rfl⟩
  | case5 _ _ hfamily =>
    rintro ⟨⟩
    rcases hfamily with rfl | rfl
    · exact ⟨none, .unspecified body, rfl⟩
    · exact ⟨none, .unix body (hunix rfl), rfl⟩
  | case1 | case3 | case6 => nofun

/-! ## Headers of version 2 -/

theorem readExact_eq_ok {count : Nat} {taken : List UInt8} :
    readExact count stream = .ok (taken, rest) ↔ stream = taken ++ rest ∧ taken.length = count := by
  unfold readExact
  split
  · next hshort =>
    simp only [reduceCtorEq, false_iff, not_and]
    rintro rfl hcount
    rw [length_append] at hshort
    omega
  · next hlong =>
    simp only [Except.ok.injEq, Prod.mk.injEq]
    constructor
    · rintro ⟨rfl, rfl⟩
      exact ⟨(take_append_drop count stream).symm, length_take_of_le (by omega)⟩
    · rintro ⟨rfl, rfl⟩
      exact ⟨take_left, drop_left⟩

theorem readV2_eq_ok : readV2 stream = .ok (found, rest) ↔
      ∃ fixed body, stream = fixed ++ body ++ rest ∧ fixed.length = 16 ∧
        body.length = (fromBeBytes (fixed.getD 14 0) (fixed.getD 15 0)).toNat ∧ parseV2 fixed body = .ok found := by
  unfold readV2
  rw [bind_eq_ok]
  constructor
  · rintro ⟨⟨fixed, after⟩, hfixed, h⟩
    obtain ⟨⟨body, after'⟩, hbody, h⟩ := bind_eq_ok.mp h
    obtain ⟨parsed, hparsed, h⟩ := bind_eq_ok.mp h
    obtain ⟨rfl, rfl⟩ := Prod.mk.inj (Except.ok.inj h)
    obtain ⟨rfl, hfixedLength⟩ := readExact_eq_ok.mp hfixed
    obtain ⟨rfl, hbodyLength⟩ := readExact_eq_ok.mp hbody
    exact ⟨fixed, body, by rw [append_assoc], hfixedLength, hbodyLength, hparsed⟩
  · rintro ⟨fixed, body, rfl, hfixedLength, hbodyLength, hparsed⟩
    refine ⟨(fixed, body ++ rest), readExact_eq_ok.mpr ⟨by rw [append_assoc], hfixedLength⟩, ?_⟩
    refine bind_eq_ok.mpr ⟨(body, rest), readExact_eq_ok.mpr ⟨rfl, hbodyLength⟩, ?_⟩
    exact bind_eq_ok.mpr ⟨found, hparsed, rfl⟩

theorem parseV2_eq_ok {fixed : List UInt8} : parseV2 fixed body = .ok found ↔ fixed.take 12 = v2Signature ∧
        (fixed.getD 12 0 = 0x20 ∧ found = none ∨
          fixed.getD 12 0 = 0x21 ∧ parseV2Addresses (fixed.getD 13 0 >>> 4) body = .ok found) := by
  have hhalves : ∀ (byte : UInt8) (command : Nat), (byte >>> 4).toNat = 2 → (byte &&& 0x0f).toNat = command →
      byte.toNat = 32 + command := by
    intro byte command hversion hcommand
    rw [toNat_shiftRight_four] at hversion
    rw [toNat_and_fifteen] at hcommand
    omega
  unfold parseV2
  generalize fixed.getD 12 0 = byte
  constructor
  · intro h
    simp only at h
    split at h
    · cases h
    next hsignature =>
    refine ⟨not_not.mp hsignature, ?_⟩
    split at h
    · cases h
    next hversion =>
    have hversion := congrArg UInt8.toNat (not_not.mp hversion)
    split at h
    · next hcommand =>
      have hbyte := hhalves byte 0 hversion (congrArg UInt8.toNat hcommand)
      exact .inl ⟨UInt8.toNat_inj.mp hbyte, (Except.ok.inj h).symm⟩
    · split at h
      · next hcommand =>
        have hbyte := hhalves byte 1 hversion (congrArg UInt8.toNat hcommand)
        exact .inr ⟨UInt8.toNat_inj.mp hbyte, h⟩
      · cases h
  · rintro ⟨hsignature, ⟨rfl, rfl⟩ | ⟨rfl, h⟩⟩
    · simp only [hsignature]
      rfl
    · simp only [hsignature]
      exact h

/-- What the reader does not look at in an otherwise complete PROXY command is as the specification has it. -/
def PlainV2 (stream : List UInt8) : Prop :=
  ∀ protocol high low body rest, stream = v2Signature ++ [0x21, protocol] ++ [high, low] ++ body ++ rest →
    body.length = (fromBeBytes high low).toNat → AddressesFit (protocol >>> 4) body → PlainCommand protocol body

/-- A header of the specification is read to its end. -/
theorem readV2_of_v2Header {header : List UInt8} {source : Option SocketAddr} (hheader : V2Header header source)
    (rest : List UInt8) : readV2 (header ++ rest) = .ok (source.map SocketAddr.toClient, rest) := by
  rw [readV2_eq_ok]
  cases hheader with
  | localCommand protocol length body hall =>
    refine ⟨v2Signature ++ [0x20, protocol] ++ beBytes length, body, rfl, rfl, ?_, ?_⟩
    · rw [hall]
      exact congrArg UInt16.toNat (fromBeBytes_octets length).symm
    · exact parseV2_eq_ok.mpr ⟨rfl, .inl ⟨rfl, rfl⟩⟩
  | @proxyCommand protocol length body source htransport hbody hall =>
    refine ⟨v2Signature ++ [0x21, protocol] ++ beBytes length, body, rfl, rfl, ?_, ?_⟩
    · rw [hall]
      exact congrArg UInt16.toNat (fromBeBytes_octets length).symm
    · exact parseV2_eq_ok.mpr ⟨rfl, .inr ⟨rfl, parseV2Addresses_of_v2Body hbody⟩⟩

theorem V2Header.plainCommand {protocol high low : UInt8} {source : Option SocketAddr}
    (h : V2Header (v2Signature ++ [0x21, protocol] ++ [high, low] ++ body) source) : PlainCommand protocol body := by
  generalize hheader : v2Signature ++ [0x21, protocol] ++ [high, low] ++ body = header at h
  cases h with
  | localCommand => simp [beBytes] at hheader
  | proxyCommand htransport hbody =>
    simp only [append_assoc, append_cancel_left_eq, beBytes, cons_append, nil_append, List.cons.injEq,
      true_and] at hheader
    obtain ⟨rfl, -, -, rfl⟩ := hheader
    exact ⟨htransport, hbody.unix_length⟩

/-- What `read_v2` does not look at is exactly what keeps it from reading the headers of the specification. -/
theorem plainV2_iff : PlainV2 stream ↔ ∀ found rest, readV2 stream = .ok (found, rest) ↔
      ∃ header source, stream = header ++ rest ∧ V2Header header source ∧ found = source.map SocketAddr.toClient := by
  constructor
  · intro hplain found rest
    constructor
    · intro h
      obtain ⟨fixed, body, rfl, hfixed, hbody, hparsed⟩ := readV2_eq_ok.mp h
      obtain ⟨hsignature, hcommand⟩ := parseV2_eq_ok.mp hparsed
      -- the sixteen bytes before the body
      have hdrop : (fixed.drop 12).length = 4 := by
        rw [length_drop, hfixed]
      obtain ⟨command, protocol, high, low, hbytes⟩ := length_eq_four.mp hdrop
      obtain rfl : v2Signature ++ [command, protocol, high, low] = fixed := by
        rw [← hsignature, ← hbytes, take_append_drop]
      rcases hcommand with ⟨hlocal, rfl⟩ | ⟨hproxy, haddresses⟩
      · obtain rfl : command = 0x20 := hlocal
        have hheader := V2Header.localCommand protocol _ body hbody
        rw [beBytes_fromBeBytes] at hheader
        exact ⟨_, none, rfl, hheader, rfl⟩
      · obtain rfl : command = 0x21 := hproxy
        have hcommand := hplain protocol high low body rest rfl hbody (exists_parseV2Addresses.mp ⟨found, haddresses⟩)
        obtain ⟨source, hsource, hfound⟩ := v2Body_of_parseV2Addresses hcommand.2 haddresses
        have hheader := V2Header.proxyCommand hcommand.1 hsource hbody
        rw [beBytes_fromBeBytes] at hheader
        exact ⟨_, source, rfl, hheader, hfound⟩
    · rintro ⟨header, source, rfl, hheader, rfl⟩
      exact readV2_of_v2Header hheader rest
  · intro hexact protocol high low body rest hstream hlength hfit
    obtain ⟨found, hfound⟩ := exists_parseV2Addresses.mpr hfit
    have hread : readV2 stream = .ok (found, rest) :=
      readV2_eq_ok.mpr ⟨v2Signature ++ [0x21, protocol] ++ [high, low], body, hstream, rfl, hlength,
        parseV2_eq_ok.mpr ⟨rfl, .inr ⟨rfl, hfound⟩⟩⟩
    obtain ⟨header, source, hheader, hof, -⟩ := (hexact found rest).mp hread
    rw [hstream] at hheader
    rw [← append_cancel_right hheader] at hof
    exact hof.plainCommand

end Nyabase.SshProxy
