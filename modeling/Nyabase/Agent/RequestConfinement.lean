import Nyabase.Agent.InstanceConfinement
import Nyabase.Lib.Labels

/-!
# What an allowed request can reach

The agent splits a path at `/`, decodes the parts and judges them, and forwards the path as it came.  A server
may decode the path first and split it then.  The two readings agree as long as no part of the path has an
escaped `/`; the policy refuses escaped dots, backslashes and zeros, and does not look for escaped separators.
-/

namespace Nyabase.Agent

open Lib Common PolicyVerdict List Option

/-! ## The two readings of a path -/

/-- What stands before the query. -/
def pathOf (path : String) : List Char := path.toList.takeWhile (· != '?')

/-- What stands behind the `?`. -/
def queryOf (path : String) : List Char := (path.toList.dropWhile (· != '?')).drop 1

/-- Split at `/`, then decode; the first part is the empty one before the first `/`. -/
def splitThenDecode (path : String) : Option (List String) :=
  ((pathOf path).splitOn '/').mapM decodeURIComponent

/-- Decode, then split at `/`. -/
def decodeThenSplit (path : String) : Option (List String) :=
  (decodeURIComponent (pathOf path)).map fun decoded => (decoded.toList.splitOn '/').map String.ofList

/-- `%2f` in either case. -/
def escapedSeparator (segment : List Char) : Bool :=
  (lower segment).tails.any fun tail => "%2f".toList.isPrefixOf tail

def isDots (segment : String) : Bool := segment == "." || segment == ".."

/-- An escaped separator stands at most in the name of an image alias, and what it separates there is not `.`
or `..`. -/
def SeparatorsInAlias (path : String) : Prop :=
  (∃ segment ∈ (pathOf path).splitOn '/', escapedSeparator segment = true) →
    ∃ name : String, splitThenDecode path = some ["", "1.0", "images", "aliases", name] ∧
      ∀ part ∈ name.toList.splitOn '/', isDots (String.ofList part) = false

/-! ## Escapes -/

/-- The byte is written as an escape. -/
def Escaped (byte : UInt8) (text : List Char) : Prop :=
  ∃ before high low rest, text = before ++ '%' :: high :: low :: rest ∧ escapedByte? high low = some byte

variable {byte : UInt8} {c : Char} {text : List Char} {n : Nat} {decoded path : String}

theorem Escaped.of_part {part : List Char} (hpart : part <:+: text) (h : Escaped byte part) : Escaped byte text := by
  obtain ⟨left, right, rfl⟩ := hpart
  obtain ⟨before, high, low, rest, rfl, hbyte⟩ := h
  exact ⟨left ++ before, high, low, rest ++ right, by simp, hbyte⟩

/-- A digit in either case, by its lower case. -/
theorem hexDigit?_eq_some : hexDigit? c = some n ↔
    48 ≤ c.toLower.toNat ∧ c.toLower.toNat ≤ 57 ∧ n = c.toLower.toNat - 48 ∨
      97 ≤ c.toLower.toNat ∧ c.toLower.toNat ≤ 102 ∧ n = c.toLower.toNat - 87 := by
  have hle : ∀ first last : Char, first ≤ last ↔ first.toNat ≤ last.toNat := fun _ _ => Iff.rfl
  rw [toLower_val]
  simp only [hexDigit?, isDigit, hle, Bool.and_eq_true, decide_eq_true_eq, Char.reduceToNat]
  grind

/-- An escape of the byte is the lower-case one up to the case of its digits. -/
theorem escapedByte?_iff {high low first second : Char} (h : escapedByte? high low = some byte)
    (hhigh : high.toLower = high) (hlow : low.toLower = low) :
    escapedByte? first second = some byte ↔ first.toLower = high ∧ second.toLower = low := by
  have hdigits : ∀ {first second}, escapedByte? first second = some byte ↔
      hexDigit? first = some (byte.toNat / 16) ∧ hexDigit? second = some (byte.toNat % 16) := by
    intro first second
    unfold escapedByte?
    cases hfirst : hexDigit? first with
    | none => simp
    | some value =>
      cases hsecond : hexDigit? second with
      | none => simp
      | some other =>
        have := hexDigit?_eq_some.mp hfirst
        have := hexDigit?_eq_some.mp hsecond
        simp [← UInt8.toNat_inj]
        omega
  rw [hdigits, hexDigit?_eq_some, hexDigit?_eq_some, hhigh, hlow] at h
  rw [hdigits, hexDigit?_eq_some, hexDigit?_eq_some, ← Char.toNat_inj, ← Char.toNat_inj]
  omega

/-- A text has an escape of the byte where its lower case has the lower-case one. -/
theorem escaped_iff {high low : Char} (h : escapedByte? high low = some byte) (hhigh : high.toLower = high)
    (hlow : low.toLower = low) :
    (lower text).tails.any (fun tail => ['%', high, low].isPrefixOf tail) = true ↔ Escaped byte text := by
  have hpercent : ∀ c : Char, c.toLower = '%' ↔ c = '%' := by
    intro c
    rw [← Char.toNat_inj, ← Char.toNat_inj, toLower_val]
    grind
  simp only [List.any_eq_true, List.mem_tails, isPrefixOf_iff_prefix, Escaped, escapedByte?_iff h hhigh hlow]
  constructor
  · rintro ⟨_, ⟨before, hbefore⟩, ⟨rest, rfl⟩⟩
    obtain ⟨left, more, rfl, -, hmore⟩ := map_eq_append_iff.mp hbefore.symm
    simp only [cons_append, nil_append, map_eq_cons_iff] at hmore
    obtain ⟨c, _, rfl, hc, first, _, rfl, hfirst, second, _, rfl, hsecond, -⟩ := hmore
    exact ⟨left, first, second, _, by rw [(hpercent c).mp hc], hfirst, hsecond⟩
  · rintro ⟨before, first, second, rest, rfl, rfl, rfl⟩
    refine ⟨_, ⟨lower before, ?_⟩, ⟨lower rest, rfl⟩⟩
    simp [lower]

theorem escapedSeparator_iff : escapedSeparator text = true ↔ Escaped 0x2f text :=
  escaped_iff (by decide) (by decide) (by decide)

theorem not_escaped_dot (h : refusedEscape text = false) : ¬ Escaped 0x2e text := by
  intro hescaped
  have hdot : escapedByte? '2' 'e' = some 0x2e := by decide
  obtain ⟨tail, htail, hprefix⟩ := any_eq_true.mp ((escaped_iff hdot (by decide) (by decide)).mpr hescaped)
  exact any_eq_false.mp h tail htail (any_eq_true.mpr ⟨"%2e", mem_cons_self, hprefix⟩)

/-! ## Decoding parts -/

theorem percentDecode_plain (hc : c ≠ '%') (rest : List Char) :
    percentDecode (c :: rest) = (percentDecode rest).map (String.utf8EncodeChar c ++ ·) := by
  rw [percentDecode.eq_4 c rest (fun _ _ _ heq _ => hc heq) hc]
  cases percentDecode rest <;> rfl

/-- What `percentDecode` accepts: escapes, and other characters for themselves. -/
inductive Decodes : List Char → List UInt8 → Prop where
  | nil : Decodes [] []
  | escape {high low : Char} {byte : UInt8} {rest : List Char} {bytes : List UInt8}
      (hbyte : escapedByte? high low = some byte) (hrest : Decodes rest bytes) :
      Decodes ('%' :: high :: low :: rest) (byte :: bytes)
  | plain {c : Char} {rest : List Char} {bytes : List UInt8} (hc : c ≠ '%') (hrest : Decodes rest bytes) :
      Decodes (c :: rest) (String.utf8EncodeChar c ++ bytes)

theorem decodes_iff {bytes : List UInt8} : Decodes text bytes ↔ percentDecode text = some bytes := by
  constructor
  · intro h
    induction h with
    | nil => rfl
    | escape hbyte _ ih =>
      rw [percentDecode.eq_2, hbyte, ih]
      rfl
    | plain hc _ ih => rw [percentDecode_plain hc, ih, map_some]
  · intro h
    induction text using percentDecode.induct generalizing bytes with
    | case1 =>
      cases h
      exact .nil
    | case2 high low rest ih =>
      obtain ⟨byte, hbyte, h⟩ := bind_eq_some_iff.mp h
      obtain ⟨decoded, hdecoded, h⟩ := bind_eq_some_iff.mp h
      cases h
      exact .escape hbyte (ih hdecoded)
    | case3 rest hshort =>
      rw [percentDecode.eq_3 rest hshort] at h
      cases h
    | case4 c rest _ hpercent ih =>
      rw [percentDecode_plain hpercent] at h
      obtain ⟨decoded, hdecoded, rfl⟩ := map_eq_some_iff.mp h
      exact .plain hpercent (ih hdecoded)

theorem Decodes.append {left right : List Char} {bytes others : List UInt8} (h : Decodes left bytes)
    (hright : Decodes right others) : Decodes (left ++ right) (bytes ++ others) := by
  induction h with
  | nil => exact hright
  | escape hbyte _ ih => exact .escape hbyte ih
  | plain hc _ ih =>
    rw [append_assoc]
    exact .plain hc ih

theorem decodeURIComponent_eq_some :
    decodeURIComponent text = some decoded ↔ Decodes text (encodeUtf8 decoded.toList) := by
  rw [decodes_iff]
  unfold decodeURIComponent
  constructor
  · intro h
    obtain ⟨chars, hchars, rfl⟩ := map_eq_some_iff.mp h
    obtain ⟨bytes, hbytes, hutf8⟩ := bind_eq_some_iff.mp hchars
    rw [hbytes, String.toList_ofList, encodeUtf8_of_fromUtf8 hutf8]
  · intro h
    rw [h, bind_some, fromUtf8_encodeUtf8, map_some, String.ofList_toList]

/-- Parts that decode, joined by separators, decode to the joined texts. -/
theorem decodeURIComponent_intercalate {parts : List (List Char)} {decoded : List String}
    (h : parts.mapM decodeURIComponent = some decoded) : decodeURIComponent (['/'].intercalate parts) =
      some (String.ofList (['/'].intercalate (decoded.map String.toList))) := by
  rw [mapM_eq_some_iff] at h
  induction h with
  | nil => rfl
  | @cons part first parts rest hfirst hrest ih =>
    cases hrest with
    | nil => simpa [List.intercalate] using hfirst
    | @cons second next others later =>
      rw [decodeURIComponent_eq_some, String.toList_ofList] at ih ⊢
      show Decodes (part ++ '/' :: ['/'].intercalate (second :: others)) (encodeUtf8 (first.toList ++
          '/' :: ['/'].intercalate ((next :: later).map String.toList)))
      rw [encodeUtf8_append]
      exact (decodeURIComponent_eq_some.mp hfirst).append (.plain (by decide) ih)

/-- Decoding first splits the decoded parts further, where they have separators. -/
theorem decodeThenSplit_of_splitThenDecode {segments : List String} (h : splitThenDecode path = some segments) :
    decodeThenSplit path = some (segments.flatMap fun segment => (segment.toList.splitOn '/').map String.ofList) := by
  have hjoin := decodeURIComponent_intercalate h
  have hpath : ['/'].intercalate ((pathOf path).splitOn '/') = pathOf path := intercalate_splitOn '/'
  have hne : segments.map String.toList ≠ [] := by
    obtain ⟨part, hpart⟩ := exists_mem_of_ne_nil _ (splitOn_ne_nil '/' (pathOf path))
    obtain ⟨decoded, hdecoded⟩ := exists_of_mapM_eq_some h hpart
    exact ne_nil_of_mem (mem_map_of_mem ((mem_of_mapM_eq_some h decoded).mpr ⟨part, hpart, hdecoded⟩))
  rw [hpath] at hjoin
  rw [decodeThenSplit, hjoin, map_some, String.toList_ofList, splitOn_intercalate_flatMap hne,
    flatMap_map, map_flatMap]

/-! ## Separators and dots in decoded parts -/

theorem eq_of_mem_utf8EncodeChar {d : Char} (hd : isAscii d = true) (h : d.toUInt8 ∈ String.utf8EncodeChar c) :
    d = c := by
  have hmem : d.toUInt8 ∈ encodeUtf8 [c] := by simpa [encodeUtf8] using h
  exact mem_singleton.mp ((mem_encodeUtf8_iff hd [c]).mp hmem)

/-- An ASCII character of the decoded text stands in the text itself or was escaped. -/
theorem mem_or_escaped {d : Char} (hd : isAscii d = true) {bytes : List UInt8} (h : Decodes text bytes)
    (hmem : d.toUInt8 ∈ bytes) : d ∈ text ∨ Escaped d.toUInt8 text := by
  induction h with
  | nil => cases hmem
  | @escape high low byte rest bytes hbyte _ ih =>
    rcases mem_cons.mp hmem with rfl | hrest
    · exact .inr ⟨[], high, low, rest, rfl, hbyte⟩
    · exact (ih hrest).imp (fun hin => mem_append_right ['%', high, low] hin)
        (Escaped.of_part (suffix_append ['%', high, low] rest).isInfix)
  | @plain c rest bytes _ _ ih =>
    rcases mem_append.mp hmem with hplain | hrest
    · exact .inl (eq_of_mem_utf8EncodeChar hd hplain ▸ mem_cons_self)
    · exact (ih hrest).imp (mem_cons_of_mem c) (Escaped.of_part (suffix_cons c rest).isInfix)

/-- An escaped byte is decoded: the digits of an escape are no `%`. -/
theorem mem_of_escaped {bytes : List UInt8} (h : Decodes text bytes) (hescaped : Escaped byte text) : byte ∈ bytes := by
  obtain ⟨before, high, low, rest, htext, hbyte⟩ := hescaped
  induction h generalizing before with
  | nil => simp at htext
  | @escape first second other tail bytes hother _ ih =>
    obtain ⟨value, hfirst, hother'⟩ := bind_eq_some_iff.mp hother
    obtain ⟨value', hsecond, -⟩ := bind_eq_some_iff.mp hother'
    rcases before with _ | ⟨_, _ | ⟨_, _ | ⟨_, before⟩⟩⟩
    · simp only [nil_append, List.cons.injEq] at htext
      obtain ⟨-, rfl, rfl, rfl⟩ := htext
      rw [some.inj (hother.symm.trans hbyte)]
      exact mem_cons_self
    · simp only [cons_append, nil_append, List.cons.injEq] at htext
      rw [htext.2.1] at hfirst
      cases hfirst
    · simp only [cons_append, nil_append, List.cons.injEq] at htext
      rw [htext.2.2.1] at hsecond
      cases hsecond
    · simp only [cons_append, List.cons.injEq] at htext
      exact mem_cons_of_mem _ (ih before htext.2.2.2)
  | plain hc _ ih =>
    rcases before with _ | ⟨_, before⟩
    · exact absurd (List.cons.inj htext).1 hc
    · exact mem_append_right _ (ih before (List.cons.inj htext).2)

/-- A part decodes to a text with a separator exactly where it has an escaped one. -/
theorem mem_decoded_iff (hplain : '/' ∉ text) (h : decodeURIComponent text = some decoded) :
    '/' ∈ decoded.toList ↔ escapedSeparator text = true := by
  have hdecodes := decodeURIComponent_eq_some.mp h
  rw [escapedSeparator_iff, ← mem_encodeUtf8_iff rfl decoded.toList]
  exact ⟨fun hmem => (mem_or_escaped rfl hdecodes hmem).resolve_left hplain, mem_of_escaped hdecodes⟩

/-- A text that decodes to dots is as many dots, when none is escaped. -/
theorem eq_replicate_of_decoded_dots (hno : ¬ Escaped 0x2e text) (h : Decodes text (replicate n 0x2e)) :
    text = replicate n '.' := by
  generalize hbytes : replicate n (0x2e : UInt8) = bytes at h
  induction h generalizing n with
  | nil =>
    obtain rfl : n = 0 := by simpa using hbytes
    rfl
  | @escape high low byte rest bytes hbyte _ ih =>
    have hdot : byte = 0x2e := eq_of_mem_replicate (hbytes ▸ mem_cons_self)
    exact absurd ⟨[], high, low, rest, rfl, hdot ▸ hbyte⟩ hno
  | @plain c rest bytes _ _ ih =>
    obtain ⟨byte, hbyte⟩ := exists_mem_of_ne_nil (String.utf8EncodeChar c) String.utf8EncodeChar_ne_nil
    obtain rfl : byte = 0x2e := eq_of_mem_replicate (hbytes ▸ mem_append_left _ hbyte)
    obtain rfl : '.' = c := eq_of_mem_utf8EncodeChar rfl hbyte
    cases n with
    | zero => exact absurd hbytes.symm (cons_ne_nil _ _)
    | succ n =>
      rw [ih (mt (Escaped.of_part (suffix_cons '.' rest).isInfix) hno) (cons.inj hbytes).2, replicate_succ]

/-! ## Parsed paths -/

/-- The path and the query are what stands before and behind the one `?`. -/
theorem splitOn_question {rawPath : List Char} {rest : List (List Char)} (h : path.toList.splitOn '?' = rawPath :: rest)
    (hrest : rest.length ≤ 1) : rawPath = pathOf path ∧ rest.headD [] = queryOf path := by
  have hjoin : ['?'].intercalate (rawPath :: rest) = path.toList := h ▸ intercalate_splitOn '?'
  have hplain : ∀ c ∈ rawPath, (c != '?') = true := by
    intro c hc
    rw [bne_iff_ne]
    rintro rfl
    exact not_mem_of_mem_splitOn (h ▸ mem_cons_self) hc
  rw [pathOf, queryOf, ← hjoin]
  rcases rest with _ | ⟨query, _ | ⟨more, rest⟩⟩
  · simp [List.intercalate, takeWhile_eq_self_iff.mpr hplain, dropWhile_eq_nil_iff.mpr hplain]
  · simp [List.intercalate, takeWhile_append_of_pos hplain, dropWhile_append_of_pos hplain]
  · simp at hrest

/-- What parsing has found out about a path. -/
theorem parseIncusPath_eq_some {parsed : ParsedPath} (h : parseIncusPath path = some parsed) :
    splitThenDecode path = some ("" :: parsed.segments) ∧ refusedEscape (pathOf path) = false ∧
      hasDotSegment (pathOf path) = false ∧ parsed.query = urlSearchParams (queryOf path) ∧
      parsed.query.all queryPairAllowed = true := by
  unfold parseIncusPath at h
  split at h
  · cases h
  rename_i rawPath rest hsplit
  obtain ⟨hchecks, h⟩ := ite_none_left_eq_some.mp h
  simp only [Bool.or_eq_true, not_or, Bool.not_eq_true, decide_eq_false_iff_not, Bool.not_eq_false'] at hchecks
  obtain ⟨⟨⟨⟨⟨hrest, hstart⟩, -⟩, hescape⟩, hdots⟩, -⟩ := hchecks
  obtain ⟨rfl, hquery⟩ := splitOn_question hsplit (Nat.le_of_not_lt hrest)
  obtain ⟨segments, hsegments, h⟩ := bind_eq_some_iff.mp h
  obtain ⟨hallowed, rfl⟩ := of_guard h
  refine ⟨?_, hescape, hdots, by rw [hquery], hallowed⟩
  obtain ⟨tail, htail⟩ := isPrefixOf_iff_prefix.mp hstart
  have hparts : (pathOf path).splitOn '/' = [] :: ("1.0".toList ++ tail).splitOn '/' := by
    rw [← htail]
    exact splitOn_append_cons_self [] ("1.0".toList ++ tail)
  rw [hparts, drop_succ_cons, drop_zero] at hsegments
  rw [splitThenDecode, hparts, mapM_cons, hsegments]
  rfl

/-! ## What writes address -/

/-- What a request other than `GET` addresses, by the segments of its path and its body. -/
inductive Addressed (platform : Platform β) (request : PolicyRequest β) : List String → Prop where
  | existing {name : String} {below : List String} (managed : isManagedInstance (some name) = true) :
      Addressed platform request ("1.0" :: "instances" :: name :: below)
  | newInstance {fields : List (String × Json)} (method : request.method = .post)
      (parsed : jsonBody platform request.body = some fields)
      (managed : isManagedInstance (stringField fields "name") = true) :
      Addressed platform request ["1.0", "instances"]
  | volume {pool name : String} (managed : managedVolumeName name = true) :
      Addressed platform request ["1.0", "storage-pools", pool, "volumes", "custom", name]
  | newVolume {pool : String} {below : List String} {fields : List (String × Json)}
      (method : request.method = .post) (parsed : jsonBody platform request.body = some fields)
      (managed : managedVolumeName ((stringField fields "name").getD "") = true)
      (collection : below = [] ∨ below = ["custom"]) :
      Addressed platform request ("1.0" :: "storage-pools" :: pool :: "volumes" :: below)
  | image {fingerprint : String} (hex : imageFingerprint fingerprint = true) (method : request.method = .delete) :
      Addressed platform request ["1.0", "images", fingerprint]
  | alias {name : String} (method : request.method = .delete) :
      Addressed platform request ["1.0", "images", "aliases", name]
  | newAlias (method : request.method = .post) : Addressed platform request ["1.0", "images", "aliases"]
  | pull {fields source : List (String × Json)} {server : String} (method : request.method = .post)
      (parsed : jsonBody platform request.body = some fields)
      (hasSource : (fields.lookup "source").bind Json.fields? = some source)
      (image : stringField source "type" = some "image") (remote : stringField source "server" = some server) :
      Addressed platform request ["1.0", "images"]

section

variable {β : Type} {platform : Platform β} {request : PolicyRequest β} {context : PolicyContext}
  {readCurrent : CurrentDocumentReader} {body : Option β} {up : Bool}

variable {rest : List String}

theorem InstanceGrant.addressed (h : InstanceGrant platform request readCurrent rest body up) :
    Addressed platform request ("1.0" :: "instances" :: rest) := by
  cases h with
  | create method parsed shape managed hasSource image plain passes => exact .newInstance method parsed managed
  | delete method managed | rename method managed parsed shape renamed
  | update method managed parsed shape found passes | power method managed parsed known asked
  | exec method managed parsed | deleteFile method managed | writeFile method managed => exact .existing managed

theorem checkStoragePools_addressed (hread : request.method ≠ .get)
    (h : checkStoragePools platform request rest readCurrent = .allowed body up) :
    Addressed platform request ("1.0" :: "storage-pools" :: rest) := by
  unfold checkStoragePools at h
  rw [if_neg hread] at h
  dsimp only at h
  split at h
  · simp at h
  rename_i hshape
  simp only [Bool.or_eq_true, beq_iff_eq, bne_iff_ne, decide_eq_true_eq, not_or, not_not, Nat.not_lt] at hshape
  obtain ⟨⟨-, hvolumes⟩, hdepth⟩ := hshape
  -- the path is `[pool, "volumes"]` with a type and a name at most
  rcases rest with _ | ⟨pool, _ | ⟨volumes, below⟩⟩
  · simp at hvolumes
  · simp at hvolumes
  obtain rfl : volumes = "volumes" := by simpa using hvolumes
  split at h
  · rename_i hcollection
    split at h
    · simp at h
    rename_i hmethod
    obtain ⟨fields, hparsed, hmanaged, -⟩ := checkVolumeCreate_allowed h
    refine .newVolume (not_not.mp hmethod) hparsed hmanaged ?_
    rcases below with _ | ⟨type, _ | ⟨name, below⟩⟩
    · exact .inl rfl
    · exact .inr (by simpa using hcollection)
    · simp at hcollection
  · rename_i hcollection
    split at h
    · simp at h
    rename_i hvolume
    rcases below with _ | ⟨type, _ | ⟨name, _ | ⟨deeper, below⟩⟩⟩
    · simp at hcollection
    · have hcustom : type = "custom" ∧ managedVolumeName "" = true := by simpa using hvolume
      exact absurd (by simp [hcustom.1]) hcollection
    · have hcustom : type = "custom" ∧ managedVolumeName name = true := by simpa using hvolume
      rw [hcustom.1]
      exact .volume hcustom.2
    · simp only [length_cons] at hdepth
      omega

theorem checkImages_addressed (hread : request.method ≠ .get)
    (h : checkImages platform request rest = .allowed body up) :
    Addressed platform request ("1.0" :: "images" :: rest) := by
  revert h
  fun_cases checkImages platform request rest with
  | case1 => contradiction
  | case2 _ hmethod => exact fun _ => .newAlias hmethod
  | case4 _ below _ hdelete =>
    simp only [Bool.and_eq_true, decide_eq_true_eq] at hdelete
    obtain ⟨name, rfl⟩ := length_eq_one_iff.mp hdelete.1
    exact fun _ => .alias hdelete.2
  | case7 _ hmethod =>
    intro h
    obtain ⟨fields, hparsed, -, hpull⟩ := checkJson_eq_allowed.mp h
    unfold checkImagePull at hpull
    split at hpull
    · simp at hpull
    rename_i source hsource
    have hremote := (ite_deny_eq_allowed.mp hpull).1
    simp only [Bool.or_eq_true, bne_iff_ne, not_or, not_not, isNone_iff_eq_none] at hremote
    obtain ⟨server, hserver⟩ := ne_none_iff_exists'.mp hremote.2
    exact .pull (not_not.mp hmethod) hparsed hsource hremote.1 hserver
  | case9 _ fingerprint _ hhex hmethod => exact fun _ => .image (by simpa using hhex) hmethod
  | case3 | case5 | case6 | case8 | case10 | case11 => simp

theorem checkIncusHttp_addressed {parsed : ParsedPath} (hparsed : parseIncusPath request.path = some parsed)
    (hread : request.method ≠ .get) (h : checkIncusHttp platform request context = .allowed body up) :
    Addressed platform request parsed.segments := by
  rcases checkIncusHttp_allowed h with ⟨hget, -⟩ | ⟨rest, query, ⟨hpath, h⟩ | ⟨hpath, h⟩ | ⟨hpath, h⟩⟩
  · exact absurd hget hread
  all_goals obtain rfl := some.inj (hparsed.symm.trans hpath)
  · exact (checkInstances_allowed hread h).addressed
  · exact checkStoragePools_addressed hread h
  · exact checkImages_addressed hread h

/-! ## Allowed requests -/

theorem exists_parsed_of_allowed (h : checkIncusHttp platform request context = .allowed body up) :
    ∃ parsed, parseIncusPath request.path = some parsed := by
  cases hparsed : parseIncusPath request.path with
  | none =>
    unfold checkIncusHttp at h
    rw [hparsed] at h
    simp at h
  | some parsed => exact ⟨parsed, rfl⟩

theorem isDots_of_parsed {path : String} {parsed : ParsedPath} (hparsed : parseIncusPath path = some parsed)
    {segment : String} (hsegment : segment ∈ "" :: parsed.segments) : isDots segment = false := by
  obtain ⟨hsplit, hescape, hdots, -⟩ := parseIncusPath_eq_some hparsed
  obtain ⟨raw, hraw, hdecoded⟩ := (mem_of_mapM_eq_some hsplit segment).mp hsegment
  unfold hasDotSegment at hdots
  rw [List.any_eq_false] at hdots
  have hplain := hdots raw hraw
  simp only [Bool.or_eq_true, beq_iff_eq, not_or] at hplain
  have hno := mt (Escaped.of_part (infix_of_mem_splitOn hraw)) (not_escaped_dot hescape)
  rw [decodeURIComponent_eq_some] at hdecoded
  simp only [isDots, Bool.or_eq_false_iff, beq_eq_false_iff_ne]
  constructor
  · rintro rfl
    exact hplain.1 (eq_replicate_of_decoded_dots (n := 1) hno hdecoded)
  · rintro rfl
    exact hplain.2 (eq_replicate_of_decoded_dots (n := 2) hno hdecoded)

section

variable {path : String} {segments : List String}

/-- Without escaped separators both readings of the path give the same segments. -/
theorem decodeThenSplit_of_plain (hsplit : splitThenDecode path = some segments)
    (hplain : ¬ ∃ raw ∈ (pathOf path).splitOn '/', escapedSeparator raw = true) :
    decodeThenSplit path = some segments := by
  have hsame : segments.flatMap (fun segment => (segment.toList.splitOn '/').map String.ofList) =
      segments.flatMap fun segment => [segment] := by
    apply flatMap_congr
    intro segment hsegment
    obtain ⟨raw, hraw, hdecoded⟩ := (mem_of_mapM_eq_some hsplit segment).mp hsegment
    have hseparator := mt (mem_decoded_iff (not_mem_of_mem_splitOn hraw) hdecoded).mp fun h => hplain ⟨raw, hraw, h⟩
    rw [splitOn_eq_singleton hseparator, map_singleton, String.ofList_toList]
  rw [decodeThenSplit_of_splitThenDecode hsplit, hsame, flatMap_singleton']

/-- No segment of the decoded path has a separator, so an escaped one makes the readings differ. -/
theorem decodeThenSplit_ne (hsplit : splitThenDecode path = some segments)
    (hescaped : ∃ raw ∈ (pathOf path).splitOn '/', escapedSeparator raw = true) :
    decodeThenSplit path ≠ some segments := by
  intro hsame
  obtain ⟨raw, hraw, hseparator⟩ := hescaped
  obtain ⟨segment, hdecoded⟩ := exists_of_mapM_eq_some hsplit hraw
  have hmem := (mem_decoded_iff (not_mem_of_mem_splitOn hraw) hdecoded).mpr hseparator
  obtain ⟨whole, -, rfl⟩ := map_eq_some_iff.mp hsame
  obtain ⟨part, hpart, rfl⟩ := mem_map.mp ((mem_of_mapM_eq_some hsplit segment).mpr ⟨raw, hraw, hdecoded⟩)
  rw [String.toList_ofList] at hmem
  exact not_mem_of_mem_splitOn hpart hmem

/-- Both readings of the path give the same segments, but for the name of an alias, and none of them is `.` or `..`. -/
def SameReadings (path : String) (segments : List String) : Prop :=
  (decodeThenSplit path = some ("" :: segments) ∨
    ∃ name : String, segments = ["1.0", "images", "aliases", name] ∧ decodeThenSplit path =
      some (["", "1.0", "images", "aliases"] ++ (name.toList.splitOn '/').map String.ofList)) ∧
  ∀ parts, decodeThenSplit path = some parts → ∀ part ∈ parts, isDots part = false

theorem sameReadings_iff (hsplit : splitThenDecode path = some ("" :: segments))
    (hdots : ∀ segment ∈ "" :: segments, isDots segment = false) :
    SameReadings path segments ↔ SeparatorsInAlias path := by
  constructor
  · rintro ⟨hsame | ⟨name, rfl, hwhole⟩, hparts⟩ hescaped
    · exact absurd hsame (decodeThenSplit_ne hsplit hescaped)
    · refine ⟨name, hsplit, fun part hpart => hparts _ hwhole _ ?_⟩
      exact mem_append_right _ (mem_map_of_mem hpart)
  · intro hseparators
    by_cases hescaped : ∃ raw ∈ (pathOf path).splitOn '/', escapedSeparator raw = true
    · obtain ⟨name, halias, hnameDots⟩ := hseparators hescaped
      obtain rfl : segments = ["1.0", "images", "aliases", name] :=
        (cons.inj (some.inj (hsplit.symm.trans halias))).2
      have hwhole : decodeThenSplit path =
          some (["", "1.0", "images", "aliases"] ++ (name.toList.splitOn '/').map String.ofList) := by
        rw [decodeThenSplit_of_splitThenDecode halias]
        simp only [flatMap_cons, flatMap_nil, append_nil]
        rfl
      refine ⟨.inr ⟨name, rfl, hwhole⟩, fun parts hparts part hpart => ?_⟩
      obtain rfl := some.inj (hwhole.symm.trans hparts)
      rcases mem_append.mp hpart with hfixed | hname
      · exact hdots part (mem_append_left [name] hfixed)
      · obtain ⟨raw, hraw, rfl⟩ := mem_map.mp hname
        exact hnameDots raw hraw
    · have hwhole := decodeThenSplit_of_plain hsplit hescaped
      refine ⟨.inl hwhole, fun parts hparts part hpart => ?_⟩
      obtain rfl := some.inj (hwhole.symm.trans hparts)
      exact hdots part hpart

end

/-- An allowed request: none of its decoded segments is `.` or `..`; the pairs of its query have allowed keys, and no
project but the default one; unless it is a `GET` it addresses a managed instance or volume or makes one, deletes an
image by its fingerprint, makes or deletes an alias, or pulls an image from a remote server.  Splitting its path
before or after decoding gives the same segments, but for the name of an alias, and no `.` or `..`, exactly when its
escaped separators, if any, stand in the name of an alias and separate neither there. -/
theorem allowed_request_confined (hallowed : checkIncusHttp platform request context = .allowed body up) :
    ∃ segments, splitThenDecode request.path = some ("" :: segments) ∧
      (SameReadings request.path segments ↔ SeparatorsInAlias request.path) ∧
      (∀ segment ∈ segments, isDots segment = false) ∧
      (∀ pair ∈ urlSearchParams (queryOf request.path), (∃ key ∈ allowedQueryKeys, pair.1 = utf8Of key) ∧
        (pair.1 = utf8Of "project" → pair.2 = utf8Of "default")) ∧
      (request.method ≠ .get → Addressed platform request segments) := by
  obtain ⟨parsed, hparsed⟩ := exists_parsed_of_allowed hallowed
  obtain ⟨hsplit, -, -, hquery, hpairs⟩ := parseIncusPath_eq_some hparsed
  have hdots : ∀ segment ∈ "" :: parsed.segments, isDots segment = false :=
    fun segment hsegment => isDots_of_parsed hparsed hsegment
  refine ⟨parsed.segments, hsplit, sameReadings_iff hsplit hdots,
    fun segment hsegment => hdots segment (mem_cons_of_mem _ hsegment), ?_,
    fun hread => checkIncusHttp_addressed hparsed hread hallowed⟩
  intro pair hpair
  rw [← hquery] at hpair
  have hchecked := all_eq_true.mp hpairs pair hpair
  simp only [queryPairAllowed, Bool.and_eq_true, List.any_eq_true, beq_iff_eq, Bool.or_eq_true,
    bne_iff_ne] at hchecked
  obtain ⟨⟨key, hkey, heq⟩, hproject⟩ := hchecked
  exact ⟨⟨key, hkey, heq.symm⟩, fun hname => hproject.resolve_left (not_not.mpr hname)⟩

end

def noContext : PolicyContext where
  readCurrent := fun _ => none
  knows := fun _ => false

theorem exists_allowed {β : Type} {verdict : PolicyVerdict β}
    (h : (match verdict with | .allowed _ _ => true | .denied _ _ => false) = true) :
    ∃ body up, verdict = .allowed body up := by
  cases verdict with
  | allowed body up => exact ⟨body, up, rfl⟩
  | denied reason notFound => exact absurd h Bool.false_ne_true

/-- The deletion of an alias with a separator in its name. -/
def aliasDelete : PolicyRequest Json where
  method := .delete
  path := "/1.0/images/aliases/debian%2F12?project=default"
  body := none

theorem aliasDelete_confined : (∃ body up, checkIncusHttp valuePlatform aliasDelete noContext = .allowed body up) ∧
    decodeThenSplit aliasDelete.path = some ["", "1.0", "images", "aliases", "debian", "12"] ∧
    SameReadings aliasDelete.path ["1.0", "images", "aliases", "debian/12"] ∧
    Addressed valuePlatform aliasDelete ["1.0", "images", "aliases", "debian/12"] := by
  obtain ⟨body, up, hallowed⟩ : ∃ body up, checkIncusHttp valuePlatform aliasDelete noContext = .allowed body up :=
    exists_allowed (by decide +kernel)
  have hsplit : splitThenDecode aliasDelete.path = some ["", "1.0", "images", "aliases", "debian/12"] := by
    decide +kernel
  have hseparators : SeparatorsInAlias aliasDelete.path := fun _ => ⟨"debian/12", hsplit, by decide +kernel⟩
  obtain ⟨segments, hsegments, hreadings, -, -, hwrites⟩ := allowed_request_confined hallowed
  have heq : segments = ["1.0", "images", "aliases", "debian/12"] :=
    (cons.inj (some.inj (hsegments.symm.trans hsplit))).2
  subst heq
  exact ⟨⟨body, up, hallowed⟩, by decide +kernel, hreadings.mpr hseparators, hwrites (by decide)⟩

/-- The deletion of a managed volume in a pool whose name has escaped separators. -/
def traversal : PolicyRequest Json where
  method := .delete
  path := "/1.0/storage-pools/x%2F..%2F..%2Finstances/volumes/custom/nyv-0123456789abcdef0123456789abcdef"
  body := none

/-- It is allowed, and a server that decodes before it splits reads other segments, two of them `..`. -/
theorem escaped_separators_allowed : (∃ body up, checkIncusHttp valuePlatform traversal noContext = .allowed body up) ∧
    splitThenDecode traversal.path = some ["", "1.0", "storage-pools", "x/../../instances", "volumes", "custom",
      "nyv-0123456789abcdef0123456789abcdef"] ∧
    decodeThenSplit traversal.path = some ["", "1.0", "storage-pools", "x", "..", "..", "instances", "volumes",
      "custom", "nyv-0123456789abcdef0123456789abcdef"] :=
  ⟨exists_allowed (by decide +kernel), by decide +kernel, by decide +kernel⟩

end Nyabase.Agent
