import Mathlib.Data.List.DropRight
import Mathlib.Tactic

/-!
# Text over ASCII delimiters

Strings are lists of characters and wire data are lists of bytes.  Everything the text protocols of
this project delimit with (CR, LF, colon, comma, space, dot) is ASCII, so reading a UTF-8 encoded text
byte by byte finds the same delimiters as reading its characters.  This file holds the operations both
sides use (splitting, trimming, reading ASCII) and the lemmas that move them through the encoding.
-/

namespace Nyabase.Lib

open List

/-! ## Splitting -/

section Split

variable {α β : Type*} [DecidableEq α] [DecidableEq β]

/-- Everything before the first `sep` and everything after it. -/
def splitOnce (sep : α) : List α → Option (List α × List α)
  | [] => none
  | a :: rest =>
    if a = sep then some ([], rest)
    else (splitOnce sep rest).map fun parts => (a :: parts.1, parts.2)

/-- Split at every occurrence of the two-symbol separator `a b`, leftmost first. -/
def splitOnPair (a b : α) : List α → List (List α)
  | [] => [[]]
  | [c] => [[c]]
  | c :: d :: rest =>
    if c = a ∧ d = b then [] :: splitOnPair a b rest
    else (splitOnPair a b (d :: rest)).modifyHead (c :: ·)

theorem splitOnce_eq_some_iff {sep : α} {l before after : List α} :
    splitOnce sep l = some (before, after) ↔ l = before ++ sep :: after ∧ sep ∉ before := by
  fun_induction splitOnce sep l generalizing before after with
  | case1 => simp
  | case2 rest => cases before <;> grind
  | case3 a rest ha ih =>
    simp only [Option.map_eq_some_iff, Prod.exists, ih]
    cases before with
    | nil => simp [ha]
    | cons c before =>
      simp only [Prod.mk.injEq, List.cons.injEq, cons_append, mem_cons, not_or]
      grind

theorem splitOnce_append {sep : α} {before : List α} (after : List α) (h : sep ∉ before) :
    splitOnce sep (before ++ sep :: after) = some (before, after) :=
  splitOnce_eq_some_iff.mpr ⟨rfl, h⟩

/-- A block that does not contain the separator's first symbol is one segment. -/
theorem splitOnPair_append {a b : α} {block : List α} (rest : List α) (h : a ∉ block) :
    splitOnPair a b (block ++ a :: b :: rest) = block :: splitOnPair a b rest := by
  induction block with
  | nil => simp [splitOnPair]
  | cons c block ih =>
    simp only [mem_cons, not_or] at h
    cases block with
    | nil =>
      simp only [cons_append, nil_append]
      rw [splitOnPair, if_neg (by rintro ⟨rfl, -⟩; exact h.1 rfl)]
      simp [splitOnPair]
    | cons d block =>
      rw [cons_append, cons_append, splitOnPair, if_neg (by rintro ⟨rfl, -⟩; exact h.1 rfl), ← cons_append, ih h.2]
      rfl

/-- Splitting a sequence of terminated blocks recovers the blocks. -/
theorem splitOnPair_flatMap {a b : α} (blocks : List (List α)) (rest : List α) (h : ∀ block ∈ blocks, a ∉ block) :
    splitOnPair a b (blocks.flatMap (· ++ [a, b]) ++ rest) = blocks ++ splitOnPair a b rest := by
  induction blocks with
  | nil => simp
  | cons block blocks ih =>
    simp only [flatMap_cons, append_assoc, cons_append, nil_append]
    rw [splitOnPair_append _ (h block (by simp)), ih fun b hb => h b (by simp [hb])]

end Split

/-! ## Trimming -/

/-- Drop the symbols satisfying `p` at both ends. -/
def trimBy {α : Type*} (p : α → Bool) (l : List α) : List α :=
  (l.dropWhile p).rdropWhile p

section Trim

variable {α : Type*} {p q : α → Bool}

variable {l : List α}

theorem trimBy_eq_self (h : ∀ x ∈ l, p x = false) : trimBy p l = l := by
  unfold trimBy
  have hdrop : l.dropWhile p = l := by
    cases l with
    | nil => rfl
    | cons x l => rw [dropWhile_cons_of_neg (by simp [h x (by simp)])]
  rw [hdrop, rdropWhile_eq_self_iff]
  intro hne
  simp [h _ (getLast_mem hne)]

theorem trimBy_congr (h : ∀ x ∈ l, p x = q x) : trimBy p l = trimBy q l := by
  have hdrop : ∀ l : List α, (∀ x ∈ l, p x = q x) → l.dropWhile p = l.dropWhile q := by
    intro l hl
    induction l with
    | nil => rfl
    | cons x l ih =>
      rw [dropWhile_cons, dropWhile_cons, hl x (by simp), ih fun y hy => hl y (by simp [hy])]
  unfold trimBy rdropWhile
  rw [hdrop l h, hdrop]
  intro x hx
  exact h x ((dropWhile_suffix q).subset (by simpa using hx))

/-- Symbols that are trimmed may be added at both ends. -/
theorem trimBy_append {start final : List α} (hstart : ∀ x ∈ start, q x = true) (hfinal : ∀ x ∈ final, q x = true) :
    trimBy q (start ++ l ++ final) = trimBy q l := by
  unfold trimBy
  rw [append_assoc, dropWhile_append_of_pos hstart, dropWhile_append]
  split
  · rename_i hempty
    rw [isEmpty_iff.mp hempty, dropWhile_eq_nil_iff.mpr hfinal]
  · rw [rdropWhile, reverse_append, dropWhile_append_of_pos (by simpa using hfinal)]
    rfl

/-- Trimming more symbols can be done after trimming fewer. -/
theorem trimBy_trimBy (hpq : ∀ x, p x = true → q x = true) (l : List α) : trimBy q (trimBy p l) = trimBy q l := by
  have hl : l.takeWhile p ++ trimBy p l ++ (l.dropWhile p).rtakeWhile p = l := by
    rw [append_assoc, trimBy, rdropWhile_append_rtakeWhile, takeWhile_append_dropWhile]
  conv_rhs => rw [← hl]
  refine (trimBy_append ?_ ?_).symm
  · exact fun x hx => hpq x (mem_takeWhile_imp hx)
  · exact fun x hx => hpq x (mem_rtakeWhile_imp hx)

/-- Trimming commutes with a block encoding that keeps trimmed and kept symbols apart. -/
theorem trimBy_flatMap {β : Type*} {r : β → Bool} {f : α → List β} (hpos : ∀ x, p x = true → ∀ y ∈ f x, r y = true)
    (hneg : ∀ x, p x = false → f x ≠ [] ∧ ∀ y ∈ f x, r y = false) (l : List α) :
    trimBy r (l.flatMap f) = (trimBy p l).flatMap f := by
  have hdrop : ∀ (g : α → List β) (l : List α), (∀ x, p x = true → ∀ y ∈ g x, r y = true) →
      (∀ x, p x = false → g x ≠ [] ∧ ∀ y ∈ g x, r y = false) →
      (l.flatMap g).dropWhile r = (l.dropWhile p).flatMap g := by
    intro g l hgpos hgneg
    induction l with
    | nil => rfl
    | cons x l ih =>
      rw [flatMap_cons]
      by_cases hx : p x = true
      · rw [dropWhile_append_of_pos (hgpos x hx), dropWhile_cons_of_pos hx, ih]
      rw [dropWhile_cons_of_neg hx, flatMap_cons]
      obtain ⟨hne, hall⟩ := hgneg x (by simpa using hx)
      cases hgx : g x with
      | nil => exact absurd hgx hne
      | cons y ys =>
        rw [hgx] at hall
        rw [cons_append, dropWhile_cons_of_neg (by simp [hall y (by simp)])]
  unfold trimBy
  rw [hdrop f l hpos hneg, rdropWhile, reverse_flatMap,
    hdrop (List.reverse ∘ f) _ (by simpa using hpos) (by simpa using hneg), reverse_flatMap]
  simp [rdropWhile, Function.comp_def]

theorem mem_of_mem_trimBy {x : α} (h : x ∈ trimBy p l) : x ∈ l :=
  (dropWhile_suffix p).subset (( rdropWhile_prefix p _).subset h)

end Trim

/-! ## ASCII text and its UTF-8 encoding -/

/-- A character below `U+0080`. -/
def isAscii (c : Char) : Bool := c.toNat < 128

/-- The UTF-8 bytes of a text (`String::into_bytes`). -/
def encodeUtf8 (text : List Char) : List UInt8 :=
  text.flatMap String.utf8EncodeChar

/-- `std::str::from_utf8`: the text these bytes encode, if they encode one. -/
def fromUtf8 (bytes : List UInt8) : Option (List Char) :=
  bytes.toByteArray.utf8Decode?.map Array.toList

/-- Bytes read as ASCII; `none` when one of them is not. -/
def asciiText? (bytes : List UInt8) : Option (List Char) :=
  if bytes.all (· < 128) then some (bytes.map Char.ofUInt8) else none

theorem encodeUtf8_append (left right : List Char) :
    encodeUtf8 (left ++ right) = encodeUtf8 left ++ encodeUtf8 right := by
  simp [encodeUtf8]

theorem fromUtf8_encodeUtf8 (text : List Char) : fromUtf8 (encodeUtf8 text) = some text := by
  have h : (encodeUtf8 text).toByteArray.utf8Decode? = some text.toArray := by
    have := List.utf8Decode?_utf8Encode (l := text)
    rwa [List.utf8Encode] at this
  simp [fromUtf8, h]

variable {text : List Char} {c : Char}

theorem encodeUtf8_of_fromUtf8 {bytes : List UInt8} (h : fromUtf8 bytes = some text) : encodeUtf8 text = bytes := by
  obtain ⟨chars, hchars, rfl⟩ := Option.map_eq_some_iff.mp h
  have hsome : bytes.toByteArray.utf8Decode?.isSome = true := by rw [hchars]; rfl
  have hencode := ByteArray.utf8Encode_get_utf8Decode? (h := hsome)
  simp only [hchars, Option.get_some, List.utf8Encode] at hencode
  have hdata := congrArg (fun array => array.data.toList) hencode
  simpa [encodeUtf8] using hdata

theorem utf8EncodeChar_ascii (h : isAscii c = true) : String.utf8EncodeChar c = [c.toUInt8] := by
  have hc : c.val.toNat ≤ 127 := by
    simp only [isAscii, decide_eq_true_eq, Char.toNat] at h
    omega
  unfold String.utf8EncodeChar
  simp only [hc, if_pos]
  rfl

/-- No byte of a character outside ASCII is an ASCII byte. -/
theorem le_of_mem_utf8EncodeChar (h : isAscii c = false) {byte : UInt8} (hbyte : byte ∈ String.utf8EncodeChar c) :
    128 ≤ byte := by
  have hc : ¬ c.val.toNat ≤ 127 := by
    simp only [isAscii, decide_eq_false_iff_not, Char.toNat] at h
    omega
  unfold String.utf8EncodeChar at hbyte
  simp only [hc, if_false] at hbyte
  rw [UInt8.le_iff_toNat_le]
  split at hbyte
  · simp only [mem_cons, not_mem_nil, or_false] at hbyte
    rcases hbyte with rfl | rfl <;> simp <;> omega
  · split at hbyte
    · simp only [mem_cons, not_mem_nil, or_false] at hbyte
      rcases hbyte with rfl | rfl | rfl <;> simp <;> omega
    · simp only [mem_cons, not_mem_nil, or_false] at hbyte
      rcases hbyte with rfl | rfl | rfl | rfl <;> simp <;> omega

theorem toUInt8_inj {d : Char} (hc : isAscii c = true) (hd : isAscii d = true) (h : c.toUInt8 = d.toUInt8) : c = d := by
  simp only [isAscii, decide_eq_true_eq, Char.toNat] at hc hd
  have hnat := congrArg UInt8.toNat h
  simp only [Char.toUInt8, UInt32.toNat_toUInt8] at hnat
  apply Char.ext
  apply UInt32.toNat_inj.mp
  omega

theorem not_le_toUInt8 (h : isAscii c = true) : ¬ 128 ≤ c.toUInt8 := by
  simp only [isAscii, decide_eq_true_eq, Char.toNat] at h
  rw [UInt8.le_iff_toNat_le]
  simp only [Char.toUInt8, UInt32.toNat_toUInt8, UInt8.toNat_ofNat]
  omega

theorem encodeUtf8_cons (c : Char) (text : List Char) :
    encodeUtf8 (c :: text) = String.utf8EncodeChar c ++ encodeUtf8 text := by
  simp [encodeUtf8]

/-- An ASCII text at the head of encoded bytes is at the head of the text. -/
theorem exists_append_of_encodeUtf8 {start : List Char} {rest : List UInt8} (hascii : ∀ c ∈ start, isAscii c = true)
    (h : encodeUtf8 text = encodeUtf8 start ++ rest) : ∃ tail, text = start ++ tail := by
  induction start generalizing text with
  | nil => exact ⟨text, rfl⟩
  | cons c start ih =>
    have hc := hascii c (by simp)
    rw [encodeUtf8_cons, utf8EncodeChar_ascii hc] at h
    cases text with
    | nil => simp [encodeUtf8] at h
    | cons d text =>
      rw [encodeUtf8_cons] at h
      cases hd : isAscii d with
      | true =>
        rw [utf8EncodeChar_ascii hd] at h
        obtain ⟨hbyte, htail⟩ := cons.inj h
        obtain rfl := toUInt8_inj hd hc hbyte
        obtain ⟨tail, rfl⟩ := ih (fun x hx => hascii x (by simp [hx])) htail
        exact ⟨tail, rfl⟩
      | false =>
        -- the first byte of such a character is no ASCII byte
        have hne : String.utf8EncodeChar d ≠ [] := String.utf8EncodeChar_ne_nil
        obtain ⟨byte, bytes, hencoded⟩ := exists_cons_of_ne_nil hne
        have hle : 128 ≤ byte := le_of_mem_utf8EncodeChar hd (by simp [hencoded])
        rw [hencoded] at h
        obtain ⟨hbyte, -⟩ := cons.inj h
        exact absurd (hbyte ▸ hle) (not_le_toUInt8 hc)

/-- An ASCII delimiter occurs among the bytes of a text exactly when it occurs in the text. -/
theorem mem_encodeUtf8_iff {d : Char} (hd : isAscii d = true) (text : List Char) :
    d.toUInt8 ∈ encodeUtf8 text ↔ d ∈ text := by
  have hlt := not_le_toUInt8 hd
  simp only [encodeUtf8, mem_flatMap]
  constructor
  · rintro ⟨c, hc, hmem⟩
    cases hascii : isAscii c with
    | false => exact absurd (le_of_mem_utf8EncodeChar hascii hmem) hlt
    | true =>
      rw [utf8EncodeChar_ascii hascii, mem_singleton] at hmem
      rwa [toUInt8_inj hd hascii hmem]
  · intro hmem
    exact ⟨d, hmem, by simp [utf8EncodeChar_ascii hd]⟩

theorem asciiText?_encodeUtf8 (h : ∀ c ∈ text, isAscii c = true) : asciiText? (encodeUtf8 text) = some text := by
  have hmap : encodeUtf8 text = text.map Char.toUInt8 := by
    induction text with
    | nil => rfl
    | cons c text ih =>
      have hc := utf8EncodeChar_ascii (h c (by simp))
      rw [encodeUtf8, flatMap_cons, hc, ← encodeUtf8, ih fun d hd => h d (by simp [hd])]
      rfl
  have hback : ∀ c ∈ text, Char.ofUInt8 c.toUInt8 = c := by
    intro c hc
    have := h c hc
    simp only [isAscii, decide_eq_true_eq, Char.toNat] at this
    apply Char.ext
    apply UInt32.toNat_inj.mp
    show c.toUInt8.toUInt32.toNat = _
    simp only [Char.toUInt8, UInt8.toNat_toUInt32, UInt32.toNat_toUInt8]
    omega
  have hall : (encodeUtf8 text).all (· < 128) = true := by
    rw [hmap]
    simp only [all_map, all_eq_true, Function.comp, decide_eq_true_eq]
    exact fun c hc => UInt8.not_le.mp (not_le_toUInt8 (h c hc))
  rw [asciiText?, if_pos hall, hmap, map_map]
  congr 1
  conv_rhs => rw [← map_id text]
  exact map_congr_left fun c hc => hback c hc

/-- Only ASCII texts read as ASCII. -/
theorem eq_of_asciiText?_encodeUtf8 {ascii : List Char} (h : asciiText? (encodeUtf8 text) = some ascii) :
    ascii = text ∧ ∀ c ∈ text, isAscii c = true := by
  have hall : ∀ c ∈ text, isAscii c = true := by
    intro c hc
    by_contra hascii
    have hascii : isAscii c = false := by simpa using hascii
    obtain ⟨byte, hbyte⟩ := exists_mem_of_ne_nil _ (String.utf8EncodeChar_ne_nil (c := c))
    have hle := le_of_mem_utf8EncodeChar hascii hbyte
    have hmem : byte ∈ encodeUtf8 text := mem_flatMap.mpr ⟨c, hc, hbyte⟩
    unfold asciiText? at h
    split at h
    · rename_i hbytes
      exact absurd hle (UInt8.not_le.mpr (of_decide_eq_true (all_eq_true.mp hbytes byte hmem)))
    · exact absurd h (by simp)
  rw [asciiText?_encodeUtf8 hall] at h
  exact ⟨(Option.some.inj h).symm, hall⟩

end Nyabase.Lib
