import Nyabase.Lib.Labels
import Nyabase.Lib.Numeral
import Nyabase.ProxyCommon.IpAddr

/-!
# IP addresses as Rust's standard library reads them

The parser behind `Ipv4Addr::from_str` and `Ipv6Addr::from_str`, and the texts it accepts: four decimal octets
without leading zeros; eight groups of one to four hexadecimal digits, of which a run may be left out as `::` and
the last two written as an IPv4 address (RFC 4291).
-/

namespace Nyabase.ProxyCommon

open Lib List Option Nat

/-! ## The parser -/

/-- `Parser::read_number` with a bound on the number of digits; `limit` is the largest value of the type. -/
def readNumber (radix maxDigits limit : Nat) (allowZeroPrefix : Bool) (text : List Char) : Option (Nat × List Char) :=
  let digits := text.takeWhile (isDigitOf radix)
  if maxDigits < digits.length then none
  else if digits = [] then none
  else if !allowZeroPrefix && digits.head? == some '0' && 1 < digits.length then none
  else if numeralValue radix digits ≤ limit then
    some (numeralValue radix digits, text.dropWhile (isDigitOf radix))
  else none

/-- `Parser::read_given_char`. -/
def readGivenChar (given : Char) : List Char → Option (List Char)
  | [] => none
  | c :: rest => if c = given then some rest else none

/-- `Parser::read_separator`. -/
def readSeparator {α : Type} (separator : Char) (index : Nat) (inner : List Char → Option (α × List Char))
    (text : List Char) : Option (α × List Char) :=
  if index = 0 then inner text else (readGivenChar separator text).bind inner

/-- `Parser::read_ipv4_addr`. -/
def readIpv4Addr (text : List Char) : Option (Octets × List Char) := do
  let (a, text) ← readNumber 10 3 255 false text
  let text ← readGivenChar '.' text
  let (b, text) ← readNumber 10 3 255 false text
  let text ← readGivenChar '.' text
  let (c, text) ← readNumber 10 3 255 false text
  let text ← readGivenChar '.' text
  let (d, text) ← readNumber 10 3 255 false text
  some ((a.toUInt8, b.toUInt8, c.toUInt8, d.toUInt8), text)

/-- `u16::from_be_bytes`. -/
def fromBeBytes (high low : UInt8) : UInt16 := high.toUInt16 * 256 + low.toUInt16

/-- The two groups an IPv4 address stands for. -/
def groupsOfIpv4 (octets : Octets) : List UInt16 :=
  [fromBeBytes octets.1 octets.2.1, fromBeBytes octets.2.2.1 octets.2.2.2]

/-- `read_groups` of `Parser::read_ipv6_addr`: the groups read into so many slots, and whether the last two came
from an IPv4 address. -/
def readGroups : (slots index : Nat) → List Char → List UInt16 × Bool × List Char
  | 0, _, text => ([], false, text)
  | slots + 1, index, text =>
    match if 0 < slots then readSeparator ':' index readIpv4Addr text else none with
    | some (octets, rest) => (groupsOfIpv4 octets, true, rest)
    | none =>
      match readSeparator ':' index (readNumber 16 4 0xffff true) text with
      | some (group, rest) =>
        let (groups, ipv4, rest) := readGroups slots (index + 1) rest
        (group.toUInt16 :: groups, ipv4, rest)
      | none => ([], false, text)

/-- `Parser::read_ipv6_addr`. -/
def readIpv6Addr (text : List Char) : Option (List UInt16 × List Char) :=
  let (head, headIpv4, rest) := readGroups 8 0 text
  if head.length = 8 then some (head, rest)
  else if headIpv4 then none
  else do
    let rest ← readGivenChar ':' rest
    let rest ← readGivenChar ':' rest
    let (tail, _, rest) := readGroups (8 - (head.length + 1)) 0 rest
    some (head ++ replicate (8 - head.length - tail.length) 0 ++ tail, rest)

/-- `Ipv4Addr::from_str`. -/
def parseIpv4 (text : List Char) : Option Octets :=
  if 15 < text.length then none
  else
    match readIpv4Addr text with
    | some (octets, []) => some octets
    | _ => none

/-- `Ipv6Addr::from_str`. -/
def parseIpv6 (text : List Char) : Option (List UInt16) :=
  match readIpv6Addr text with
  | some (segments, []) => some segments
  | _ => none

/-! ## Numbers -/

/-- What may follow a number. -/
def Stops (radix : Nat) (rest : List Char) : Prop := ∀ c ∈ rest.head?, isDigitOf radix c = false

theorem stops_nil (radix : Nat) : Stops radix [] := fun _ h => absurd h (by simp)

variable {radix maxDigits limit value index slots : Nat} {rest written text : List Char} {groups segments : List UInt16}
  {ipv4 : Bool} {texts : List (List Char)}

theorem stops_cons {c : Char} : Stops radix (c :: rest) ↔ isDigitOf radix c = false := by
  simp [Stops]

theorem takeWhile_append_stops (hdigits : ∀ c ∈ written, isDigitOf radix c = true) (hstops : Stops radix rest) :
    (written ++ rest).takeWhile (isDigitOf radix) = written ∧ (written ++ rest).dropWhile (isDigitOf radix) = rest := by
  rw [takeWhile_append_of_pos hdigits, dropWhile_append_of_pos hdigits]
  cases rest with
  | nil => simp
  | cons c rest => simp [stops_cons.mp hstops]

theorem stops_dropWhile (radix : Nat) (text : List Char) : Stops radix (text.dropWhile (isDigitOf radix)) := by
  intro c hc
  have h := List.head?_dropWhile_not (isDigitOf radix) text
  rw [mem_def.mp hc] at h
  exact h

/-- A number as `read_number` takes it. -/
structure Numeral (radix maxDigits limit : Nat) (allowZeroPrefix : Bool) (written : List Char)
    (value : Nat) : Prop where
  nonempty : written ≠ []
  digits : ∀ c ∈ written, isDigitOf radix c = true
  short : written.length ≤ maxDigits
  zero : allowZeroPrefix = false → written.head? = some '0' → written.length = 1
  value_eq : numeralValue radix written = value
  le : value ≤ limit

theorem readNumber_eq_some {allowZeroPrefix : Bool} :
    readNumber radix maxDigits limit allowZeroPrefix text = some (value, rest) ↔
      ∃ written, text = written ++ rest ∧ Numeral radix maxDigits limit allowZeroPrefix written value ∧
        Stops radix rest := by
  constructor
  · intro h
    simp only [readNumber, ite_none_left_eq_some, ite_none_right_eq_some, some.injEq, Prod.mk.injEq] at h
    obtain ⟨hshort, hne, hzero, hle, rfl, rfl⟩ := h
    refine ⟨text.takeWhile (isDigitOf radix), takeWhile_append_dropWhile.symm, ?_, stops_dropWhile radix text⟩
    constructor
    · exact hne
    · exact all_eq_true.mp all_takeWhile
    · omega
    · intro hallow hhead
      have hpos := length_pos_of_ne_nil hne
      simp only [hallow, hhead, Bool.not_false, beq_self_eq_true, Bool.true_and, decide_eq_true_eq] at hzero
      omega
    · rfl
    · exact hle
  · rintro ⟨written, rfl, hnumeral, hstops⟩
    obtain ⟨htake, hdrop⟩ := takeWhile_append_stops hnumeral.digits hstops
    have hzero : ¬ (!allowZeroPrefix && written.head? == some '0' && decide (1 < written.length)) = true := by
      simp only [Bool.and_eq_true, Bool.not_eq_true', beq_iff_eq, decide_eq_true_eq, not_and]
      rintro ⟨hallow, hhead⟩
      have := hnumeral.zero hallow hhead
      omega
    simp only [readNumber, htake, hdrop]
    rw [if_neg (not_lt.mpr hnumeral.short), if_neg hnumeral.nonempty, if_neg hzero, hnumeral.value_eq,
      if_pos hnumeral.le]

/-- A decimal number without leading zeros is written in one way. -/
theorem numeral_decimal_iff (hpos : 0 < maxDigits) (hlimit : limit < 10 ^ maxDigits) :
    Numeral 10 maxDigits limit false written value ↔ written = toDigits 10 value ∧ value ≤ limit := by
  constructor
  · intro h
    refine ⟨?_, h.le⟩
    rw [← h.value_eq]
    exact (toDigits_numeralValue h.nonempty h.digits (h.zero rfl)).symm
  · rintro ⟨rfl, hle⟩
    constructor
    · exact toDigits_ne_nil
    · exact fun c hc => isDigitOf_of_mem_toDigits hc
    · rw [length_toDigits_le_iff (by decide) hpos]
      omega
    · exact fun _ => length_toDigits_of_head
    · exact numeralValue_toDigits value
    · exact hle

theorem readOctet_eq_some : readNumber 10 3 255 false text = some (value, rest) ↔
      text = toDigits 10 value ++ rest ∧ value ≤ 255 ∧ Stops 10 rest := by
  rw [readNumber_eq_some]
  constructor
  · rintro ⟨written, rfl, hnumeral, hstops⟩
    obtain ⟨rfl, hle⟩ := (numeral_decimal_iff (by decide) (by decide)).mp hnumeral
    exact ⟨rfl, hle, hstops⟩
  · rintro ⟨rfl, hle, hstops⟩
    exact ⟨_, rfl, (numeral_decimal_iff (by decide) (by decide)).mpr ⟨rfl, hle⟩, hstops⟩

theorem readGivenChar_eq_some {given : Char} : readGivenChar given text = some rest ↔ text = given :: rest := by
  cases text with
  | nil => simp [readGivenChar]
  | cons c text =>
    simp only [readGivenChar, List.cons.injEq]
    split
    · next h => simp [h]
    · next h => simp [h]

/-! ## IPv4 -/

theorem readIpv4Addr_displayIpv4 (octets : Octets) (hstops : Stops 10 rest) :
    readIpv4Addr (displayIpv4 octets ++ rest) = some (octets, rest) := by
  obtain ⟨a, b, c, d⟩ := octets
  have hdot : ∀ tail, Stops 10 ('.' :: tail) := fun tail => stops_cons.mpr (by decide)
  have hread : ∀ (octet : UInt8) (tail : List Char), Stops 10 tail →
      readNumber 10 3 255 false (toDigits 10 octet.toNat ++ tail) = some (octet.toNat, tail) := by
    intro octet tail htail
    exact readOctet_eq_some.mpr ⟨rfl, le_of_lt_succ octet.toNat_lt, htail⟩
  have hchar : ∀ tail, readGivenChar '.' ('.' :: tail) = some tail := fun tail => readGivenChar_eq_some.mpr rfl
  simp only [readIpv4Addr, displayIpv4, append_assoc, cons_append]
  simp only [hread a _ (hdot _), hread b _ (hdot _), hread c _ (hdot _), hread d _ hstops, hchar, bind_eq_bind,
    bind_some]
  simp

theorem eq_of_readIpv4Addr {octets : Octets} (h : readIpv4Addr text = some (octets, rest)) :
    text = displayIpv4 octets ++ rest ∧ Stops 10 rest := by
  obtain ⟨⟨a, ta⟩, ha, h⟩ := bind_eq_some_iff.mp h
  obtain ⟨tb, hb, h⟩ := bind_eq_some_iff.mp h
  obtain ⟨⟨b, tc⟩, hc, h⟩ := bind_eq_some_iff.mp h
  obtain ⟨td, hd, h⟩ := bind_eq_some_iff.mp h
  obtain ⟨⟨c, te⟩, he, h⟩ := bind_eq_some_iff.mp h
  obtain ⟨tf, hf, h⟩ := bind_eq_some_iff.mp h
  obtain ⟨⟨d, tg⟩, hg, h⟩ := bind_eq_some_iff.mp h
  cases h
  obtain ⟨rfl, hale, -⟩ := readOctet_eq_some.mp ha
  obtain rfl := readGivenChar_eq_some.mp hb
  obtain ⟨rfl, hble, -⟩ := readOctet_eq_some.mp hc
  obtain rfl := readGivenChar_eq_some.mp hd
  obtain ⟨rfl, hcle, -⟩ := readOctet_eq_some.mp he
  obtain rfl := readGivenChar_eq_some.mp hf
  obtain ⟨rfl, hdle, hstops⟩ := readOctet_eq_some.mp hg
  have hoctet : ∀ n, n ≤ 255 → n.toUInt8.toNat = n := by
    intro n hn
    show n % 256 = n
    omega
  refine ⟨?_, hstops⟩
  simp [displayIpv4, hoctet a hale, hoctet b hble, hoctet c hcle, hoctet d hdle]

theorem length_toDigits_octet (octet : UInt8) : (toDigits 10 octet.toNat).length ≤ 3 := by
  rw [length_toDigits_le_iff (by decide) (by decide)]
  have := octet.toNat_lt
  omega

theorem length_displayIpv4_le (octets : Octets) : (displayIpv4 octets).length ≤ 15 := by
  have ha := length_toDigits_octet octets.1
  have hb := length_toDigits_octet octets.2.1
  have hc := length_toDigits_octet octets.2.2.1
  have hd := length_toDigits_octet octets.2.2.2
  simp only [displayIpv4, length_append, length_cons]
  omega

/-- `Ipv4Addr::from_str` accepts an address in the one way it is written. -/
theorem parseIpv4_eq_some {octets : Octets} :
    parseIpv4 text = some octets ↔ text = displayIpv4 octets := by
  have hlength := length_displayIpv4_le octets
  unfold parseIpv4
  constructor
  · intro h
    split at h
    · cases h
    split at h
    · next hread =>
      cases h
      simpa using (eq_of_readIpv4Addr hread).1
    · cases h
  · rintro rfl
    have hread := readIpv4Addr_displayIpv4 octets (stops_nil 10)
    rw [append_nil] at hread
    rw [if_neg (not_lt.mpr hlength), hread]

/-! ## IPv6 -/

/-- A group of one to four hexadecimal digits. -/
def HexGroup (written : List Char) (group : UInt16) : Prop := Numeral 16 4 0xffff true written group.toNat

/-- Groups and what is written for each; the last two may be written as an IPv4 address. -/
inductive GroupTexts : List UInt16 → Bool → List (List Char) → Prop where
  | nil : GroupTexts [] false []
  | ipv4 (octets : Octets) : GroupTexts (groupsOfIpv4 octets) true [displayIpv4 octets]
  | cons {written : List Char} {group : UInt16} {groups : List UInt16} {ipv4 : Bool} {texts : List (List Char)}
      (head : HexGroup written group) (tail : GroupTexts groups ipv4 texts) :
      GroupTexts (group :: groups) ipv4 (written :: texts)

/-- An IPv6 address and a text of it. -/
inductive Ipv6Text : List UInt16 → List Char → Prop where
  | full {groups : List UInt16} {ipv4 : Bool} {texts : List (List Char)} (groupTexts : GroupTexts groups ipv4 texts)
      (all : groups.length = 8) : Ipv6Text groups ([':'].intercalate texts)
  | compressed {head tail : List UInt16} {ipv4 : Bool} {headTexts tailTexts : List (List Char)}
      (headGroups : GroupTexts head false headTexts) (tailGroups : GroupTexts tail ipv4 tailTexts)
      (some : head.length + tail.length < 8) :
      Ipv6Text (head ++ replicate (8 - head.length - tail.length) 0 ++ tail)
        ([':'].intercalate headTexts ++ "::".toList ++ [':'].intercalate tailTexts)

/-- The texts from one index on, each after its separator. -/
def joined (index : Nat) (texts : List (List Char)) : List Char :=
  if index = 0 then [':'].intercalate texts else texts.flatMap (':' :: ·)

theorem joined_nil (index : Nat) : joined index [] = [] := by
  unfold joined
  split <;> rfl

theorem joined_cons (index : Nat) (text : List Char) (texts : List (List Char)) :
    joined index (text :: texts) = (if index = 0 then text else ':' :: text) ++ joined (index + 1) texts := by
  simp only [joined, add_one_ne_zero, if_false]
  split
  · -- the first separator of an intercalation stands before the second text
    induction texts generalizing text with
    | nil => simp [List.intercalate]
    | cons next texts ih =>
      have htail := ih next
      simp only [List.intercalate, List.intersperse, flatten_cons] at htail ⊢
      rw [htail]
      simp
  · rfl

theorem readSeparator_eq_some {α : Type} {inner : List Char → Option (α × List Char)} {value : α} :
    readSeparator ':' index inner text = some (value, rest) ↔
      ∃ body, text = (if index = 0 then body else ':' :: body) ∧ inner body = some (value, rest) := by
  unfold readSeparator
  split
  · simp
  · rw [bind_eq_some_iff]
    simp [readGivenChar_eq_some]

/-- The separator before a text is read over. -/
theorem readSeparator_joined {α : Type} (inner : List Char → Option (α × List Char)) :
    readSeparator ':' index inner (joined index (text :: texts) ++ rest) =
      inner (text ++ (joined (index + 1) texts ++ rest)) := by
  rw [joined_cons]
  unfold readSeparator
  split <;> simp [readGivenChar]

theorem hexGroup_toUInt16 (h : Numeral 16 4 0xffff true written value) : HexGroup written value.toUInt16 := by
  have hvalue : value.toUInt16.toNat = value := by
    have := h.le
    show value % 65536 = value
    omega
  unfold HexGroup
  rwa [hvalue]

/-- What `read_groups` reads are groups in their texts, no more than it has room for. -/
theorem groupTexts_of_readGroups (h : readGroups slots index text = (groups, ipv4, rest)) :
    groups.length ≤ slots ∧ ∃ texts, GroupTexts groups ipv4 texts ∧ text = joined index texts ++ rest := by
  induction slots generalizing index text groups ipv4 rest with
  | zero =>
    cases h
    exact ⟨le_rfl, [], .nil, by rw [joined_nil, nil_append]⟩
  | succ slots ih =>
    simp only [readGroups] at h
    split at h
    · next octets after hread =>
      cases h
      split at hread
      · next hroom =>
        obtain ⟨body, htext, hbody⟩ := readSeparator_eq_some.mp hread
        obtain ⟨rfl, -⟩ := eq_of_readIpv4Addr hbody
        rw [htext]
        refine ⟨?_, _, .ipv4 octets, ?_⟩
        · simp only [groupsOfIpv4, length_cons, length_nil]
          omega
        rw [joined_cons, joined_nil, append_nil]
        split <;> simp
      · cases hread
    · split at h
      · next group after hread =>
        obtain ⟨body, htext, hbody⟩ := readSeparator_eq_some.mp hread
        obtain ⟨written, rfl, hnumeral, -⟩ := readNumber_eq_some.mp hbody
        rcases hmore : readGroups slots (index + 1) after with ⟨more, moreIpv4, afterMore⟩
        obtain ⟨hle, texts, htexts, hafter⟩ := ih hmore
        rw [hmore] at h
        cases h
        rw [htext]
        refine ⟨succ_le_succ hle, _, .cons (hexGroup_toUInt16 hnumeral) htexts, ?_⟩
        rw [joined_cons]
        split
        · rw [append_assoc, ← hafter]
        · rw [append_assoc, ← hafter, cons_append]
      · cases h
        exact ⟨zero_le _, [], .nil, by rw [joined_nil, nil_append]⟩

/-- What may follow groups: nothing that reads as part of a group or as another one. -/
def GroupsEnd (rest : List Char) : Prop := rest = [] ∨ ∃ tail, rest = ':' :: ':' :: tail

theorem stops_colon (hradix : radix ≤ 16) (tail : List Char) : Stops radix (':' :: tail) := by
  have hcolon : digitOf ':' = 16 := by decide
  rw [stops_cons, isDigitOf, hcolon]
  exact decide_eq_false (not_lt.mpr hradix)

theorem GroupsEnd.stops (h : GroupsEnd rest) (radix : Nat) (hradix : radix ≤ 16) : Stops radix rest := by
  rcases h with rfl | ⟨tail, rfl⟩
  · exact stops_nil radix
  · exact stops_colon hradix _

/-- After the groups nothing can be read that starts with a digit. -/
theorem GroupsEnd.readSeparator_eq_none {α : Type} {inner : List Char → Option (α × List Char)} (h : GroupsEnd rest)
    (radix : Nat) (hradix : radix ≤ 16) (hnone : ∀ text, Stops radix text → inner text = none) :
    readSeparator ':' index inner rest = none := by
  unfold readSeparator
  split
  · exact hnone rest (h.stops radix hradix)
  rcases h with rfl | ⟨tail, rfl⟩
  · rfl
  · exact hnone _ (stops_colon hradix tail)

/-- A number cannot be read where a colon or nothing stands. -/
theorem readNumber_eq_none {allowZeroPrefix : Bool} (hstops : Stops radix text) :
    readNumber radix maxDigits limit allowZeroPrefix text = none := by
  by_contra hsome
  obtain ⟨⟨value, rest⟩, hread⟩ := ne_none_iff_exists'.mp hsome
  obtain ⟨written, rfl, hnumeral, -⟩ := readNumber_eq_some.mp hread
  cases written with
  | nil => exact hnumeral.nonempty rfl
  | cons c written =>
    have hdigit := hnumeral.digits c (by simp)
    rw [cons_append, stops_cons, hdigit] at hstops
    cases hstops

theorem readIpv4Addr_eq_none (hstops : Stops 10 text) : readIpv4Addr text = none := by
  unfold readIpv4Addr
  rw [readNumber_eq_none hstops]
  rfl

/-- A hexadecimal group before a colon or the end is not the start of an IPv4 address. -/
theorem readIpv4Addr_hexGroup {group : UInt16} (hgroup : HexGroup written group) (hrest : rest.head? ≠ some '.')
    (hstops : Stops 16 rest) : readIpv4Addr (written ++ rest) = none := by
  by_contra hsome
  obtain ⟨⟨octets, after⟩, hread⟩ := ne_none_iff_exists'.mp hsome
  obtain ⟨heq, -⟩ := eq_of_readIpv4Addr hread
  -- both sides begin with hexadecimal digits; what follows them differs
  have hdecimal : ∀ c ∈ toDigits 10 octets.1.toNat, isDigitOf 16 c = true := fun c hc => isDigitOf_of_mem_toDigits hc
  have hdot : ∀ tail, Stops 16 ('.' :: tail) := fun tail => stops_cons.mpr (by decide)
  have hleft := (takeWhile_append_stops hgroup.digits hstops).2
  rw [heq, displayIpv4, append_assoc, append_assoc, append_assoc, cons_append,
    (takeWhile_append_stops hdecimal (hdot _)).2] at hleft
  rw [← hleft] at hrest
  exact hrest rfl

theorem groupsEnd_joined (hindex : 0 < index) (texts : List (List Char)) (hrest : GroupsEnd rest) :
    (joined index texts ++ rest).head? ≠ some '.' ∧ Stops 16 (joined index texts ++ rest) := by
  cases texts with
  | nil =>
    rw [joined_nil, nil_append]
    refine ⟨?_, hrest.stops 16 le_rfl⟩
    rcases hrest with rfl | ⟨tail, rfl⟩ <;> simp
  | cons text texts =>
    rw [joined_cons, if_neg (by omega)]
    exact ⟨by simp, stops_colon le_rfl _⟩

/-- Groups that fit into the slots are read as they are. -/
theorem readGroups_groupTexts (htexts : GroupTexts groups ipv4 texts) (hslots : groups.length ≤ slots) (index : Nat)
    (hrest : GroupsEnd rest) : readGroups slots index (joined index texts ++ rest) = (groups, ipv4, rest) := by
  induction htexts generalizing slots index with
  | nil =>
    rw [joined_nil, nil_append]
    cases slots with
    | zero => rfl
    | succ slots =>
      simp [readGroups, hrest.readSeparator_eq_none 10 (by decide) fun _ => readIpv4Addr_eq_none,
        hrest.readSeparator_eq_none 16 le_rfl fun _ => readNumber_eq_none]
  | ipv4 octets =>
    rw [show (groupsOfIpv4 octets).length = 2 from rfl] at hslots
    obtain ⟨slots, rfl⟩ : ∃ more, slots = more + 2 := ⟨slots - 2, by omega⟩
    have hread : readSeparator ':' index readIpv4Addr (joined index [displayIpv4 octets] ++ rest) =
        some (octets, rest) := by
      rw [readSeparator_joined, joined_nil, nil_append]
      exact readIpv4Addr_displayIpv4 octets (hrest.stops 10 (by decide))
    simp only [readGroups, if_pos (succ_pos slots), hread]
  | @cons written group groups ipv4 texts hgroup _ ih =>
    rw [length_cons] at hslots
    obtain ⟨slots, rfl⟩ : ∃ more, slots = more + 1 := ⟨slots - 1, by omega⟩
    obtain ⟨hdot, hstops⟩ := groupsEnd_joined (succ_pos index) texts hrest
    have hipv4 : readSeparator ':' index readIpv4Addr (joined index (written :: texts) ++ rest) = none := by
      rw [readSeparator_joined]
      exact readIpv4Addr_hexGroup hgroup hdot hstops
    have hread : readSeparator ':' index (readNumber 16 4 0xffff true) (joined index (written :: texts) ++ rest) =
        some (group.toNat, joined (index + 1) texts ++ rest) := by
      rw [readSeparator_joined]
      exact readNumber_eq_some.mpr ⟨written, rfl, hgroup, hstops⟩
    have hmore := ih (by omega : groups.length ≤ slots) (index + 1)
    simp only [readGroups, hipv4, hread, ite_self, hmore]
    simp

theorem joined_zero (texts : List (List Char)) : joined 0 texts = [':'].intercalate texts := rfl

theorem readIpv6Addr_sound (h : readIpv6Addr text = some (segments, rest)) :
    ∃ written, Ipv6Text segments written ∧ text = written ++ rest := by
  unfold readIpv6Addr at h
  rcases hgroups : readGroups 8 0 text with ⟨head, headIpv4, afterHead⟩
  obtain ⟨hheadLength, headTexts, hhead, rfl⟩ := groupTexts_of_readGroups hgroups
  simp only [hgroups] at h
  split at h
  · next hall =>
    cases h
    exact ⟨_, .full hhead hall, rfl⟩
  split at h
  · cases h
  next hshort hipv4 =>
  obtain ⟨afterFirst, hfirst, h⟩ := bind_eq_some_iff.mp h
  obtain ⟨afterSecond, hsecond, h⟩ := bind_eq_some_iff.mp h
  rcases htailGroups : readGroups (8 - (head.length + 1)) 0 afterSecond with ⟨tail, tailIpv4, afterTail⟩
  rw [htailGroups] at h
  cases h
  obtain ⟨htailLength, tailTexts, htail, rfl⟩ := groupTexts_of_readGroups htailGroups
  obtain rfl := readGivenChar_eq_some.mp hsecond
  obtain rfl := readGivenChar_eq_some.mp hfirst
  rw [eq_false_of_ne_true hipv4] at hhead
  have hsome : head.length + tail.length < 8 := by omega
  refine ⟨_, .compressed hhead htail hsome, ?_⟩
  simp [joined_zero]

theorem readIpv6Addr_complete (h : Ipv6Text segments text) : readIpv6Addr text = some (segments, []) := by
  cases h with
  | full hgroups hall =>
    have hread := readGroups_groupTexts hgroups hall.le 0 (.inl rfl)
    rw [append_nil, joined_zero] at hread
    simp only [readIpv6Addr, hread, if_pos hall]
  | @compressed head tail ipv4 headTexts tailTexts hhead htail hsome =>
    have hreadHead := readGroups_groupTexts hhead (show head.length ≤ 8 by omega) 0
      (.inr ⟨[':'].intercalate tailTexts, rfl⟩)
    have hreadTail := readGroups_groupTexts htail (show tail.length ≤ 8 - (head.length + 1) by omega) 0 (.inl rfl)
    rw [append_nil, joined_zero] at hreadTail
    rw [joined_zero] at hreadHead
    have htext : [':'].intercalate headTexts ++ "::".toList ++ [':'].intercalate tailTexts =
        [':'].intercalate headTexts ++ ':' :: ':' :: [':'].intercalate tailTexts := by
      simp
    rw [htext]
    simp only [readIpv6Addr, hreadHead]
    rw [if_neg (by omega)]
    simp only [Bool.false_eq_true, if_false, readGivenChar, if_true, bind_eq_bind, bind_some, hreadTail]

/-- `Ipv6Addr::from_str` accepts exactly the texts of an address. -/
theorem parseIpv6_eq_some : parseIpv6 text = some segments ↔ Ipv6Text segments text := by
  unfold parseIpv6
  constructor
  · intro h
    split at h
    · next hread =>
      cases h
      obtain ⟨written, hwritten, htext⟩ := readIpv6Addr_sound hread
      rw [htext, append_nil]
      exact hwritten
    · cases h
  · intro h
    rw [readIpv6Addr_complete h]

theorem Ipv6Text.length (h : Ipv6Text segments text) : segments.length = 8 := by
  cases h with
  | full _ hall => exact hall
  | compressed _ _ hsome =>
    simp only [length_append, length_replicate]
    omega

/-- A character of an address in any of its texts. -/
def IsAddressText (text : List Char) : Prop := ∀ c ∈ text, isDigitOf 16 c = true ∨ c = ':' ∨ c = '.'

/-- Every character of an address is visible ASCII. -/
theorem IsAddressText.range (h : IsAddressText text) : ∀ c ∈ text, 46 ≤ c.toNat ∧ c.toNat ≤ 102 := by
  intro c hc
  rcases h c hc with hdigit | rfl | rfl
  · have hrange := toNat_of_isDigitOf hdigit
    omega
  · decide
  · decide

theorem isAddressText_displayIpv4 (octets : Octets) : IsAddressText (displayIpv4 octets) := by
  intro c hc
  simp only [displayIpv4, mem_append, mem_cons, cons_append, append_assoc] at hc
  rcases hc with hc | rfl | hc | rfl | hc | rfl | hc
  all_goals first | exact .inr (.inr rfl) | exact .inl (isDigitOf_of_mem_toDigits hc)

theorem GroupTexts.isAddressText (h : GroupTexts groups ipv4 texts) : ∀ text ∈ texts, IsAddressText text := by
  induction h with
  | nil => simp
  | ipv4 octets =>
    intro text htext
    rw [mem_singleton.mp htext]
    exact isAddressText_displayIpv4 octets
  | cons hgroup _ ih =>
    exact forall_mem_cons.mpr ⟨fun c hc => .inl (hgroup.digits c hc), ih⟩

theorem isAddressText_intercalate (h : ∀ text ∈ texts, IsAddressText text) :
    IsAddressText ([':'].intercalate texts) := by
  intro c hc
  rcases mem_intercalate hc with rfl | ⟨text, htext, hc⟩
  · exact .inr (.inl rfl)
  · exact h text htext c hc

theorem Ipv6Text.isAddressText (h : Ipv6Text segments text) : IsAddressText text := by
  cases h with
  | full hgroups _ => exact isAddressText_intercalate hgroups.isAddressText
  | compressed hhead htail _ =>
    refine forall_mem_append.mpr ⟨forall_mem_append.mpr ⟨?_, by simp⟩, ?_⟩
    · exact isAddressText_intercalate hhead.isAddressText
    · exact isAddressText_intercalate htail.isAddressText

theorem isAddressText_displaySegments (segments : List UInt16) : IsAddressText (displaySegments segments) := by
  refine isAddressText_intercalate fun text htext => ?_
  obtain ⟨segment, -, rfl⟩ := mem_map.mp htext
  exact fun c hc => .inl (isDigitOf_of_mem_toDigits hc)

theorem IpAddr.isAddressText_display (address : IpAddr) : IsAddressText address.display := by
  cases address with
  | v4 octets => exact isAddressText_displayIpv4 octets
  | v6 segments =>
    simp only [IpAddr.display, displayIpv6]
    split
    · exact forall_mem_append.mpr ⟨by simp [show isDigitOf 16 'f' = true from rfl], isAddressText_displayIpv4 _⟩
    · split
      · refine forall_mem_append.mpr ⟨forall_mem_append.mpr ⟨?_, by simp⟩, ?_⟩
        · exact isAddressText_displaySegments _
        · exact isAddressText_displaySegments _
      · exact isAddressText_displaySegments segments.val

/-! ## What is printed is read -/

theorem hexGroup_toDigits (group : UInt16) : HexGroup (toDigits 16 group.toNat) group := by
  have hlt := group.toNat_lt
  constructor
  · exact toDigits_ne_nil
  · exact fun c hc => isDigitOf_of_mem_toDigits hc
  · rw [length_toDigits_le_iff (by decide) (by decide)]
    omega
  · exact nofun
  · exact numeralValue_toDigits _
  · omega

theorem toNat_shiftRight_eight (group : UInt16) : (group >>> 8).toNat = group.toNat / 256 := by
  rw [UInt16.toNat_shiftRight, shiftRight_eq_div_pow]
  rfl

theorem toNat_fromBeBytes (high low : UInt8) : (fromBeBytes high low).toNat = high.toNat * 256 + low.toNat := by
  have hhigh := high.toNat_lt
  have hlow := low.toNat_lt
  have h256 : UInt16.toNat 256 = 256 := rfl
  simp only [fromBeBytes, UInt16.toNat_add, UInt16.toNat_mul, UInt8.toNat_toUInt16, h256]
  omega

theorem fromBeBytes_octets (group : UInt16) : fromBeBytes (group >>> 8).toUInt8 group.toUInt8 = group := by
  apply UInt16.toNat_inj.mp
  have hlt := group.toNat_lt
  rw [toNat_fromBeBytes, UInt16.toNat_toUInt8, UInt16.toNat_toUInt8, toNat_shiftRight_eight]
  omega

/-- A run of zero segments where the span says there is one. -/
def ZeroesAt (segments : List UInt16) (span : ZeroSpan) : Prop :=
  ∃ before after, segments = before ++ replicate span.length 0 ++ after ∧ before.length = span.start

theorem zeroesAt_append {span : ZeroSpan} (h : ZeroesAt segments span) (more : List UInt16) :
    ZeroesAt (segments ++ more) span := by
  obtain ⟨before, after, rfl, hstart⟩ := h
  exact ⟨before, after ++ more, by simp, hstart⟩

/-- The scan finds a run: the current one ends where the scan stands, the longest one lies before. -/
theorem zeroesAt_longestZeroSpan (rest : List UInt16) : ∀ (done : List UInt16) (current longest : ZeroSpan),
      (∃ before, done = before ++ replicate current.length 0 ∧
        (current.length ≠ 0 → before.length = current.start)) →
      ZeroesAt done longest → ZeroesAt (done ++ rest) (longestZeroSpan rest done.length current longest) := by
  induction rest with
  | nil =>
    intro done current longest _ hlongest
    rw [append_nil]
    exact hlongest
  | cons segment rest ih =>
    intro done current longest hcurrent hlongest
    have hindex : done.length + 1 = (done ++ [segment]).length := by simp
    have hsplit : done ++ segment :: rest = done ++ [segment] ++ rest := by simp
    simp only [longestZeroSpan]
    rw [hsplit, hindex]
    obtain ⟨before, hdone, hstart⟩ := hcurrent
    split
    · next hzero =>
      have hgrown : ∃ before', done ++ [segment] = before' ++ replicate (current.length + 1) 0 ∧
          before'.length = if current.length = 0 then done.length else current.start := by
        refine ⟨before, ?_, ?_⟩
        · rw [hzero, hdone, replicate_succ', append_assoc]
        · split
          · next hnone => simp [hdone, hnone]
          · next hsome => exact hstart hsome
      obtain ⟨before', hdone', hstart'⟩ := hgrown
      apply ih
      · exact ⟨before', hdone', fun _ => hstart'⟩
      · split
        · exact ⟨before', [], by rw [append_nil, hdone'], hstart'⟩
        · exact zeroesAt_append hlongest [segment]
    · apply ih
      · exact ⟨done ++ [segment], by simp, fun h => absurd rfl h⟩
      · exact zeroesAt_append hlongest [segment]

/-! ## How long an address is -/

/-- Four digits for each segment and a colon between two of them. -/
theorem length_displaySegments_le (segments : List UInt16) :
    (displaySegments segments).length ≤ 5 * segments.length - 1 := by
  have hjoined : ∀ texts : List (List Char), (∀ text ∈ texts, text.length ≤ 4) →
      (texts.flatMap (':' :: ·)).length ≤ 5 * texts.length := by
    intro texts htexts
    induction texts with
    | nil => simp
    | cons text texts ih =>
      have hfirst := htexts text (by simp)
      have hrest := ih fun other hother => htexts other (by simp [hother])
      simp only [flatMap_cons, length_append, length_cons]
      omega
  have hdigits : ∀ segment : UInt16, (toDigits 16 segment.toNat).length ≤ 4 :=
    fun segment => (hexGroup_toDigits segment).short
  cases segments with
  | nil => simp [displaySegments]
  | cons segment segments =>
    have hfirst := hdigits segment
    have hrest := hjoined (segments.map fun segment => toDigits 16 segment.toNat) (by
      intro text htext
      obtain ⟨other, -, rfl⟩ := mem_map.mp htext
      exact hdigits other)
    rw [displaySegments, ← joined_zero, map_cons, joined_cons, if_pos rfl, length_append]
    simp only [joined, add_one_ne_zero, if_false, length_cons, length_map] at hrest ⊢
    omega

theorem length_displayIpv6_le (hall : segments.length = 8) : (displayIpv6 segments).length ≤ 39 := by
  unfold displayIpv6
  split
  · next octets _ =>
    have := length_displayIpv4_le octets
    rw [length_append]
    simp only [String.length_toList]
    have hstart : "::ffff:".length = 7 := rfl
    omega
  · obtain ⟨before, after, hsegments, hstart⟩ := zeroesAt_longestZeroSpan segments [] ⟨0, 0⟩ ⟨0, 0⟩
      ⟨[], rfl, fun h => absurd rfl h⟩ ⟨[], [], rfl, rfl⟩
    simp only [nil_append, length_nil] at hsegments hstart
    generalize longestZeroSpan segments 0 ⟨0, 0⟩ ⟨0, 0⟩ = zeroes at hsegments hstart
    have hcount := congrArg List.length hsegments
    simp only [length_append, length_replicate] at hcount
    simp only
    split
    · next hlong =>
      have hbefore := length_displaySegments_le (segments.take zeroes.start)
      have hafter := length_displaySegments_le (segments.drop (zeroes.start + zeroes.length))
      have hcolons : "::".length = 2 := rfl
      rw [length_take] at hbefore
      rw [length_drop] at hafter
      simp only [length_append, String.length_toList]
      omega
    · have := length_displaySegments_le segments
      omega

end Nyabase.ProxyCommon
