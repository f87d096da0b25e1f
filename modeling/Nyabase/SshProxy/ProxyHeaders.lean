import Nyabase.SshProxy.ProxyVersion1
import Nyabase.SshProxy.ProxyVersion2

/-!
# What the PROXY protocol readers accept

Under a condition on the bytes of the header, and only under it, the readers accept exactly the headers of the
specification, return the source written there and leave exactly the bytes after the header.
-/

namespace Nyabase.SshProxy

open Lib ProxyCommon List

/-! ## What the encoders of the specification write -/

variable {family : V1Family} {text : List Char}

/-- A character that no header line of two addresses has outside its words. -/
def IsPlainChar (c : Char) : Prop := isAscii c = true ∧ c ≠ '\r'

theorem isPlainChar_line (source destination : ReadEnd family) : ∀ c ∈ source.line destination, IsPlainChar c := by
  intro c hc
  rcases mem_intercalate hc with rfl | ⟨field, hfield, hmem⟩
  · exact ⟨by decide, by decide⟩
  have hrange := source.isField_fields destination field hfield c hmem
  refine ⟨decide_eq_true (by omega), ?_⟩
  rintro rfl
  exact absurd hrange.1 (by decide)

theorem length_encodeUtf8 (h : ∀ c ∈ text, isAscii c = true) : (encodeUtf8 text).length = text.length := by
  induction text with
  | nil => rfl
  | cons c text ih =>
    rw [encodeUtf8_cons, utf8EncodeChar_ascii (h c (by simp)), length_append, ih fun d hd => h d (by simp [hd])]
    simp [Nat.add_comm]

theorem length_display_le {ip : IpAddr} (h : V1Address family ip text) : ip.display.length ≤ 39 := by
  cases ip with
  | v4 octets =>
    have := length_displayIpv4_le octets
    show (displayIpv4 octets).length ≤ 39
    omega
  | v6 segments => exact length_displayIpv6_le segments.property

theorem length_portText_le (port : UInt16) : (portText port).length ≤ 5 := by
  rw [portText, Nat.length_toDigits_le_iff (by decide) (by decide)]
  have := port.toNat_lt
  omega

/-- What a relay writes for two addresses of one family is read back. -/
theorem readV1_encodeV1 {source destination : IpAddr} (hsource : V1Address family source source.display)
    (hdestination : V1Address family destination destination.display) (sourcePort destinationPort : UInt16)
    (rest : List UInt8) : readV1 (encodeV1 family source destination sourcePort destinationPort ++ rest) =
      .ok (some (client source sourcePort), rest) := by
  let first : V1End family PlainPort := ⟨⟨source, sourcePort⟩, _, _, hsource, rfl⟩
  let second : V1End family PlainPort := ⟨⟨destination, destinationPort⟩, _, _, hdestination, rfl⟩
  show readV1 (encodeUtf8 (first.line second) ++ crlf ++ rest) = _
  set line := first.line second with hline
  have hchars : ∀ c ∈ line, IsPlainChar c := isPlainChar_line first.toRead second.toRead
  have hascii := fun c hc => (hchars c hc).1
  have hnone : ¬ crlf <:+: encodeUtf8 line := by
    intro hinfix
    have hmem : '\r'.toUInt8 ∈ encodeUtf8 line := hinfix.subset (by decide)
    exact (hchars _ ((mem_encodeUtf8_iff (by decide) _).mp hmem)).2 rfl
  have hle : (encodeUtf8 line ++ crlf).length ≤ v1MaxLine := by
    rw [length_append, length_encodeUtf8 hascii]
    have hsource := length_display_le hsource
    have hdestination := length_display_le hdestination
    have hsourcePort := length_portText_le sourcePort
    have hdestinationPort := length_portText_le destinationPort
    have hfamily : family.text.length = 4 := by
      cases family <;> rfl
    have hproxy : "PROXY".toList.length = 5 := rfl
    have hcrlf : crlf.length = 2 := rfl
    simp only [hline, first, second, V1End.line, V1End.fields, List.intercalate, List.intersperse,
      flatten_cons, flatten_nil, length_append, length_cons, length_nil, v1MaxLine]
    omega
  exact readV1_eq_ok.mpr ⟨encodeUtf8 line, _, rfl, hnone, hle, .proxied first.toRead second.toRead, rfl⟩

/-! ## The readers -/

/-- On exactly the streams whose header is plain, the readers accept exactly the headers of the specification, return
the source written there and leave what follows the header.  What the encoders of the specification write is read
back, and from a stream whose header is plain the listener takes a header or nothing. -/
theorem proxy_headers_exact (stream : List UInt8) :
    (PlainV1 stream ↔ ∀ found rest, readV1 stream = .ok (found, rest) ↔
      ∃ header source, stream = header ++ rest ∧ V1Header header source ∧ found = source.map SocketAddr.toClient) ∧
    (PlainV2 stream ↔ ∀ found rest, readV2 stream = .ok (found, rest) ↔
      ∃ header source, stream = header ++ rest ∧ V2Header header source ∧ found = source.map SocketAddr.toClient) ∧
    (∀ family source destination sourcePort destinationPort rest, V1Address family source source.display →
      V1Address family destination destination.display →
      readV1 (encodeV1 family source destination sourcePort destinationPort ++ rest) =
        .ok (some (client source sourcePort), rest)) ∧
    (∀ (protocol : UInt8) body source rest, protocol &&& 0x0f ≤ 2 → V2Body (protocol >>> 4) body source →
      body.length < 65536 → readV2 (encodeV2 protocol body ++ rest) = .ok (source.map SocketAddr.toClient, rest)) ∧
    (PlainV1 stream → PlainV2 stream → ∀ peer address rest, readClientAddress peer stream = .ok (address, rest) →
      stream = rest ∧ address = peer ∨
      ∃ header source, stream = header ++ rest ∧ (V1Header header source ∨ V2Header header source) ∧
        address = (source.map SocketAddr.toClient).getD peer) := by
  refine ⟨plainV1_iff, plainV2_iff, ?_, ?_, ?_⟩
  · intro family source destination sourcePort destinationPort rest hsource hdestination
    exact readV1_encodeV1 hsource hdestination sourcePort destinationPort rest
  · intro protocol body source rest htransport hbody hlength
    apply readV2_of_v2Header
    exact .proxyCommand htransport hbody (Nat.mod_eq_of_lt hlength).symm
  intro hv1 hv2 peer address rest h
  unfold readClientAddress at h
  split at h
  · obtain ⟨rfl, rfl⟩ := Prod.mk.inj (Except.ok.inj h)
    exact .inl ⟨rfl, rfl⟩
  split at h
  · obtain ⟨⟨found, after⟩, hread, h⟩ := map_eq_ok.mp h
    obtain ⟨rfl, rfl⟩ := Prod.mk.inj h
    obtain ⟨header, source, hstream, hheader, rfl⟩ := (plainV1_iff.mp hv1 found after).mp hread
    exact .inr ⟨header, source, hstream, .inl hheader, rfl⟩
  · split at h
    · obtain ⟨⟨found, after⟩, hread, h⟩ := map_eq_ok.mp h
      obtain ⟨rfl, rfl⟩ := Prod.mk.inj h
      obtain ⟨header, source, hstream, hheader, rfl⟩ := (plainV2_iff.mp hv2 found after).mp hread
      exact .inr ⟨header, source, hstream, .inr hheader, rfl⟩
    · obtain ⟨rfl, rfl⟩ := Prod.mk.inj (Except.ok.inj h)
      exact .inl ⟨rfl, rfl⟩

/-- An end of a connection whose port has a sign. -/
def signedEnd : ReadEnd .tcp4 where
  address := ⟨.v4 (192, 0, 2, 1), 80⟩
  ipText := "192.0.2.1".toList
  portText := "+80".toList
  ipOf := rfl
  portOf := @ReadPort.signed "80".toList (by decide) (all_eq_true.mp (by decide)) (by decide)

def signedText : List Char := signedEnd.line signedEnd

/-- A header for IPv4 with a transport protocol that is not assigned. -/
def unassignedHeader : List UInt8 :=
  v2Signature ++ [0x21, 0x15] ++ [0, 12] ++ [192, 0, 2, 1, 192, 0, 2, 2, 0, 80, 1, 187]

/-- The readers accept a port with a sign, and a transport protocol that is not assigned. -/
theorem malformed_headers_accepted : (readV1 (encodeUtf8 signedText ++ crlf) = .ok (some ⟨.v4 (192, 0, 2, 1), 80⟩, []) ∧
      ∀ source, ¬ V1Header (encodeUtf8 signedText ++ crlf) source) ∧
    (readV2 unassignedHeader = .ok (some ⟨.v4 (192, 0, 2, 1), 80⟩, []) ∧
      ∀ source, ¬ V2Header unassignedHeader source) := by
  refine ⟨⟨?_, ?_⟩, ?_, ?_⟩
  · have hline : readV1Line [] (encodeUtf8 signedText ++ crlf) = .ok (encodeUtf8 signedText ++ crlf, []) :=
      readV1Line_nil_eq_ok.mpr ⟨encodeUtf8 signedText, rfl, by decide, by decide, by simp⟩
    have hparsed : parseV1 (encodeUtf8 signedText) = .ok (some ⟨.v4 (192, 0, 2, 1), 80⟩) := by
      decide +kernel
    refine bind_eq_ok.mpr ⟨_, hline, ?_⟩
    refine bind_eq_ok.mpr ⟨_, ?_, rfl⟩
    exact hparsed
  · rintro source ⟨line, hheader, -, -, hline⟩
    rw [← append_cancel_right hheader] at hline
    exact hline.unsigned.1 rfl
  · decide +kernel
  · intro source h
    generalize hheader : unassignedHeader = header at h
    cases h with
    | localCommand protocol length body hall =>
      simp [unassignedHeader, beBytes] at hheader
    | @proxyCommand protocol length body source htransport hbody hall =>
      simp only [unassignedHeader, append_assoc, append_cancel_left_eq, cons_append, nil_append,
        List.cons.injEq, true_and] at hheader
      rw [← hheader.1] at htransport
      exact absurd htransport (by decide)

end Nyabase.SshProxy
