import Nyabase.Common.Firewall
import Nyabase.Lib.AsciiCase
import Nyabase.Lib.Labels

/-!
# Hostnames and wildcard domains

The names of `packages/common/src/protocol/http-proxy.ts`, the overlap rules of
`packages/backend/src/http-proxy/http-domain-overlap.ts`, and the matcher of `tools/http-proxy/src/snapshot.rs`.

Names are lists of characters.  JavaScript lower-cases all of Unicode: of the characters that are not ASCII only
the Kelvin sign becomes one that is, and a name with any other is refused either way.
-/

namespace Nyabase.Backend

open Common Lib List

/-! ## Normal forms -/

/-- `toLowerCase`, as far as an ASCII name can come of it. -/
def toLowerCase (name : List Char) : List Char :=
  name.map fun c => if c.toNat = 0x212a then 'k' else c.toLower

/-- `replace(/\.$/, '')`. -/
def dropTrailingDot (name : List Char) : List Char :=
  if name.getLast? = some '.' then name.dropLast else name

def isDnsLetter (c : Char) : Bool := ('a' ≤ c && c ≤ 'z') || ('0' ≤ c && c ≤ '9')

/-- `/^[a-z0-9](?:[a-z0-9-]{0,61}[a-z0-9])?$/`. -/
def isDnsLabel (label : List Char) : Bool :=
  decide (1 ≤ label.length ∧ label.length ≤ 63) && label.head?.all isDnsLetter &&
    label.getLast?.all isDnsLetter && label.all fun c => isDnsLetter c || c == '-'

def isValidAsciiDnsName (value : List Char) : Bool :=
  decide (1 ≤ value.length ∧ value.length ≤ 253) && !decide (['.', '.'] <:+: value) &&
    (value.splitOn '.').all isDnsLabel

/-- A hostname in normal form. -/
@[ext]
structure Hostname where
  text : List Char
  valid : isValidAsciiDnsName text = true
  deriving DecidableEq

/-- A wildcard domain in normal form; `base` is what stands behind `*.`. -/
structure WildcardDomain where
  base : List Char
  valid : isValidAsciiDnsName base = true
  deep : 2 ≤ (base.splitOn '.').length
  deriving DecidableEq

def WildcardDomain.text (domain : WildcardDomain) : List Char := '*' :: '.' :: domain.base

/-- `value.trim().replace(/\.$/, '').toLowerCase()`. -/
def normalizeName (value : List Char) : List Char :=
  toLowerCase (dropTrailingDot (trimBy isJsWhitespace value))

/-- `normalizeHttpProxyHostname`; nothing where it throws. -/
def normalizeHttpProxyHostname (value : List Char) : Option Hostname :=
  if h : isValidAsciiDnsName (normalizeName value) = true then some ⟨normalizeName value, h⟩ else none

/-- `raw.startsWith('*.') ? raw.slice(2) : raw`. -/
def wildcardBase (raw : List Char) : List Char :=
  if ['*', '.'].isPrefixOf raw then raw.drop 2 else raw

/-- `normalizeHttpProxyWildcardDomain`; nothing where it throws. -/
def normalizeHttpProxyWildcardDomain (value : List Char) : Option WildcardDomain :=
  if h : isValidAsciiDnsName (wildcardBase (normalizeName value)) = true ∧
      2 ≤ ((wildcardBase (normalizeName value)).splitOn '.').length then
    some ⟨wildcardBase (normalizeName value), h.1, h.2⟩
  else none

/-! ## Rules between names -/

def httpProxyWildcardSuffix (wildcardDomain : List Char) : Option (List Char) :=
  (normalizeHttpProxyWildcardDomain wildcardDomain).map fun domain => domain.text.drop 1

/-- `host.endsWith(suffix)`, and what stands before it is one label. -/
def oneLabelBefore (host suffix : List Char) : Bool :=
  decide (suffix <:+ host) && !(host.take (host.length - suffix.length)).isEmpty &&
    !(host.take (host.length - suffix.length)).contains '.'

def hostnameMatchesHttpProxyWildcard (hostname wildcardDomain : List Char) : Bool :=
  match normalizeHttpProxyHostname hostname, httpProxyWildcardSuffix wildcardDomain with
  | some host, some suffix => oneLabelBefore host.text suffix
  | _, _ => false

/-- `wildcardDomainsOverlap`; nothing where it throws. -/
def wildcardDomainsOverlap (first second : List Char) : Option Bool := do
  let a ← httpProxyWildcardSuffix first
  let b ← httpProxyWildcardSuffix second
  return decide (b <:+ a) || decide (a <:+ b)

/-- `hostnameCoversWildcardDomain`; nothing where it throws. -/
def hostnameCoversWildcardDomain (hostname wildcardDomain : List Char) : Option Bool := do
  let suffix ← httpProxyWildcardSuffix wildcardDomain
  return suffix.drop 1 == hostname || decide (('.' :: hostname) <:+ suffix.drop 1)

/-- `hostname_matches_wildcard` of the proxy. -/
def hostnameMatchesWildcard (hostname wildcard : List Char) : Bool :=
  let wildcard := lower (wildcard.rdropWhile (· == '.'))
  let suffix := if ['*'].isPrefixOf wildcard then wildcard.drop 1 else wildcard
  oneLabelBefore hostname suffix

/-! ## Normal forms are fixed -/

/-- The characters of valid names. -/
def isNameChar (c : Char) : Bool := isDnsLetter c || c == '-' || c == '.'

variable {c : Char}

section Valid

variable {name : List Char} (hvalid : isValidAsciiDnsName name = true)

include hvalid

theorem isDnsLabel_of_valid {label : List Char} (hlabel : label ∈ name.splitOn '.') : isDnsLabel label = true := by
  simp only [isValidAsciiDnsName, Bool.and_eq_true, all_eq_true] at hvalid
  exact hvalid.2 label hlabel

theorem isNameChar_of_valid {c : Char} (hc : c ∈ name) : isNameChar c = true := by
  have hsplit : c = '.' ∨ ∃ label ∈ name.splitOn '.', c ∈ label := mem_label_of_mem hc
  rcases hsplit with rfl | ⟨label, hlabel, hmem⟩
  · rfl
  have hdns := isDnsLabel_of_valid hvalid hlabel
  simp only [isDnsLabel, Bool.and_eq_true, all_eq_true] at hdns
  have hchar := hdns.2 c hmem
  rw [isNameChar, hchar, Bool.true_or]

/-- The last label is not empty. -/
theorem getLast_of_valid : name.getLast? ≠ some '.' := by
  intro hlast
  obtain ⟨init, rfl⟩ := List.getLast?_eq_some_iff.mp hlast
  have hsplit : (init ++ ['.']).splitOn '.' = init.splitOn '.' ++ [[]] := splitOn_append_cons_self init []
  have hlabel : ([] : List Char) ∈ (init ++ ['.']).splitOn '.' := by
    rw [hsplit]
    exact mem_append_right _ (mem_singleton.mpr rfl)
  exact absurd (isDnsLabel_of_valid hvalid hlabel) (by decide)

theorem ne_nil_of_valid : name ≠ [] := by
  rintro rfl
  exact absurd hvalid (by decide)

end Valid

theorem isJsWhitespace_eq_false (h : 33 ≤ c.toNat ∧ c.toNat ≤ 126) : isJsWhitespace c = false := by
  rw [Bool.eq_false_iff]
  intro hspace
  simp only [isJsWhitespace, Bool.or_eq_true, Bool.and_eq_true, decide_eq_true_eq, contains_eq_mem,
    mem_cons, not_mem_nil, or_false] at hspace
  omega

/-- Lower-casing keeps lower-case ASCII text. -/
theorem toLower_eq_self (h : c.toNat < 65 ∨ 90 < c.toNat) : c.toLower = c := by
  apply Char.toNat_inj.mp
  rw [toLower_val, if_neg (by omega)]

/-- A text of printable ASCII characters without capitals and without a dot at its end is as normalisation
leaves it. -/
theorem normalizeName_eq_self {name : List Char}
    (hchars : ∀ c ∈ name, 33 ≤ c.toNat ∧ c.toNat ≤ 126 ∧ (c.toNat < 65 ∨ 90 < c.toNat))
    (hlast : name.getLast? ≠ some '.') : normalizeName name = name := by
  have htrim : trimBy isJsWhitespace name = name := by
    apply trimBy_eq_self
    intro c hc
    exact isJsWhitespace_eq_false ⟨(hchars c hc).1, (hchars c hc).2.1⟩
  have hdot : dropTrailingDot name = name := if_neg hlast
  have hlower : toLowerCase name = name := by
    conv_rhs => rw [← map_id name]
    apply map_congr_left
    intro c hc
    have hrange := hchars c hc
    rw [if_neg (by omega), toLower_eq_self hrange.2.2]
    rfl
  rw [normalizeName, htrim, hdot, hlower]

theorem nameChar_printable (h : isNameChar c = true) :
    33 ≤ c.toNat ∧ c.toNat ≤ 126 ∧ (c.toNat < 65 ∨ 90 < c.toNat) := by
  simp only [isNameChar, Bool.or_eq_true, beq_iff_eq] at h
  rcases h with (hletter | rfl) | rfl
  · simp only [isDnsLetter, Bool.or_eq_true, Bool.and_eq_true, decide_eq_true_eq] at hletter
    have hrange : (97 ≤ c.toNat ∧ c.toNat ≤ 122) ∨ (48 ≤ c.toNat ∧ c.toNat ≤ 57) := hletter
    omega
  · decide
  · decide

namespace Hostname

variable (host : Hostname)

theorem normalizeName_text : normalizeName host.text = host.text :=
  normalizeName_eq_self (fun _ hc => nameChar_printable (isNameChar_of_valid host.valid hc))
    (getLast_of_valid host.valid)

@[simp] theorem normalize_text : normalizeHttpProxyHostname host.text = some host := by
  unfold normalizeHttpProxyHostname
  simp [host.normalizeName_text, host.valid]

end Hostname

namespace WildcardDomain

variable (domain : WildcardDomain)

theorem printable {c : Char} (hc : c ∈ domain.text) : 33 ≤ c.toNat ∧ c.toNat ≤ 126 ∧ (c.toNat < 65 ∨ 90 < c.toNat) := by
  rcases mem_cons.mp hc with rfl | hrest
  · decide
  · rcases mem_cons.mp hrest with rfl | hbase
    · decide
    · exact nameChar_printable (isNameChar_of_valid domain.valid hbase)

theorem getLast_text : domain.text.getLast? ≠ some '.' := by
  have hbase := getLast_of_valid domain.valid
  have hne := ne_nil_of_valid domain.valid
  rw [text, List.getLast?_cons_of_ne_nil (cons_ne_nil _ _), List.getLast?_cons_of_ne_nil hne]
  exact hbase

theorem normalizeName_text : normalizeName domain.text = domain.text :=
  normalizeName_eq_self (fun _ hc => domain.printable hc) domain.getLast_text

@[simp] theorem normalize_text : normalizeHttpProxyWildcardDomain domain.text = some domain := by
  have hbase : wildcardBase domain.text = domain.base := rfl
  unfold normalizeHttpProxyWildcardDomain
  simp only [domain.normalizeName_text, hbase, domain.valid, domain.deep, and_self, dite_true]

@[simp] theorem suffix_text : httpProxyWildcardSuffix domain.text = some ('.' :: domain.base) := by
  rw [httpProxyWildcardSuffix, normalize_text]
  rfl

end WildcardDomain

/-! ## The rules in terms of labels -/

/-- One label, not empty, above the base. -/
def OneLabelUnder (host base : List Char) : Prop :=
  ∃ label, label ≠ [] ∧ host.splitOn '.' = label :: base.splitOn '.'

theorem oneLabelBefore_iff {host base : List Char} :
    oneLabelBefore host ('.' :: base) = true ↔ OneLabelUnder host base := by
  simp only [oneLabelBefore, Bool.and_eq_true, decide_eq_true_eq, Bool.not_eq_true', isEmpty_eq_false_iff,
    contains_eq_mem, decide_eq_false_iff_not]
  have htake : ∀ label, (label ++ '.' :: base).take ((label ++ '.' :: base).length - ('.' :: base).length) = label := by
    intro label
    rw [length_append, Nat.add_sub_cancel, take_left]
  constructor
  · rintro ⟨⟨⟨label, rfl⟩, hne⟩, hdot⟩
    rw [htake] at hne hdot
    exact ⟨label, hne, splitOn_eq_cons_iff.mpr ⟨rfl, hdot⟩⟩
  · rintro ⟨label, hne, hsplit⟩
    obtain ⟨rfl, hdot⟩ := splitOn_eq_cons_iff.mp hsplit
    rw [htake]
    exact ⟨⟨suffix_append label _, hne⟩, hdot⟩

variable {host : Hostname} {domain : WildcardDomain}

theorem matches_iff : hostnameMatchesHttpProxyWildcard host.text domain.text = true ↔
    OneLabelUnder host.text domain.base := by
  unfold hostnameMatchesHttpProxyWildcard
  rw [host.normalize_text, domain.suffix_text]
  exact oneLabelBefore_iff

theorem hostnameCovers_eq : hostnameCoversWildcardDomain host.text domain.text =
    some (decide (Under '.' domain.base host.text)) := by
  unfold hostnameCoversWildcardDomain
  rw [domain.suffix_text]
  simp only [Option.bind_eq_bind, Option.bind_some, Option.pure_def, Option.some.injEq, drop_succ_cons, drop_zero]
  rw [Bool.eq_iff_iff]
  simp only [Bool.or_eq_true, beq_iff_eq, decide_eq_true_eq]
  exact under_iff.symm

/-- The proxy's matcher agrees with the backend's on names in normal form. -/
theorem hostnameMatchesWildcard_eq : hostnameMatchesWildcard host.text domain.text =
    hostnameMatchesHttpProxyWildcard host.text domain.text := by
  have htrim : domain.text.rdropWhile (· == '.') = domain.text := by
    rw [rdropWhile_eq_self_iff]
    intro hne hlast
    apply domain.getLast_text
    rw [List.getLast?_eq_some_getLast hne, beq_iff_eq.mp hlast]
  have hlower : lower domain.text = domain.text := by
    apply lower_eq_self
    intro c hc
    exact toLower_eq_self (domain.printable hc).2.2
  unfold hostnameMatchesWildcard hostnameMatchesHttpProxyWildcard
  rw [htrim, hlower, host.normalize_text, domain.suffix_text]
  rfl

end Nyabase.Backend
