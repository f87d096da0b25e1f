import Nyabase.HttpProxy.ChunkedGrammar

/-!
# Re-framing a chunked body is faithful

The decoder works on a buffer that grows by whatever a read delivers; the grammar of chunked messages
is about the whole stream.  Each part of the program is specified by what it takes off the stream
(`lineLoop_spec`, `copyExact_spec`) and by what it leaves written, also when it fails: at every moment
the upstream holds a proper prefix of a message (`IsCut`) until the final chunk is written whole.
-/

namespace Nyabase.HttpProxy

open Lib List

/-! ## Taking lines off the stream -/

variable {bytes line base : List UInt8} {max size : Nat} {source : Source}

theorem streamOf_cons {event : ReadEvent} (inbound : List ReadEvent) (h : event.received = .ok bytes) :
    streamOf (event :: inbound) = bytes ++ streamOf inbound := by
  cases event with
  | failed error => exact absurd h (by simp [ReadEvent.received])
  | data received =>
    cases received with
    | nil => exact absurd h (by simp [ReadEvent.received])
    | cons byte rest =>
      obtain rfl : byte :: rest = bytes := Except.ok.inj h
      rfl

theorem scanLine_spec {pending rest : List UInt8} (h : scanLine max pending = some (.ok (line, rest))) :
    pending = line ++ (crlfBytes ++ rest) ∧ (0x0d : UInt8) ∉ line := by
  revert h
  fun_cases scanLine max pending with
  | case4 before after hsplit hlast _ hcr =>
    rintro ⟨⟩
    have hbefore : before.dropLast ++ [0x0d] = before := dropLast_append_getLast? _ (not_not.mp hlast)
    refine ⟨?_, by simpa using hcr⟩
    calc pending = before ++ 0x0a :: rest := (splitOnce_eq_some_iff.mp hsplit).1
      _ = (before.dropLast ++ [0x0d]) ++ 0x0a :: rest := by rw [hbefore]
      _ = before.dropLast ++ (crlfBytes ++ rest) := by simp [crlfBytes]
  | case1 | case2 | case3 | case5 | case6 => simp

/-- However the stream is cut into reads, a line is what stands before the next CRLF. -/
theorem lineLoop_spec {inbound : List ReadEvent} {pending : List UInt8}
    (h : lineLoop max inbound pending = .ok (line, source)) :
    pending ++ streamOf inbound = line ++ (crlfBytes ++ source.stream) ∧ (0x0d : UInt8) ∉ line := by
  fun_induction lineLoop max inbound pending with
  | case1 inbound pending result hscan =>
    obtain ⟨⟨line, rest⟩, rfl, ⟨⟩⟩ := map_eq_ok.mp h
    obtain ⟨hpending, hcr⟩ := scanLine_spec hscan
    exact ⟨by rw [hpending]; simp [Source.stream], hcr⟩
  | case2 => cases h
  | case3 pending event inbound _ ih =>
    obtain ⟨bytes, hbytes, h⟩ := bind_eq_ok.mp h
    obtain ⟨hstream, hcr⟩ := ih bytes h
    rw [streamOf_cons inbound hbytes, ← append_assoc]
    exact ⟨hstream, hcr⟩

theorem line_spec {source' : Source} (h : source.line max = .ok (line, source')) :
    source.stream = line ++ (crlfBytes ++ source'.stream) ∧ (0x0d : UInt8) ∉ line :=
  lineLoop_spec h

/-! ## Sizes and trailers -/

theorem parseChunkSize_spec (h : parseChunkSize line = .ok size) : SizeLine IsExtension line size := by
  obtain ⟨hdigits, h⟩ := ensure_bind_eq_ok.mp h
  obtain ⟨hext, h⟩ := ensure_bind_eq_ok.mp h
  obtain ⟨-, h⟩ := ensure_bind_eq_ok.mp h
  simp only [Bool.not_eq_true', Bool.or_eq_false_iff, decide_eq_false_iff_not, isEmpty_eq_false_iff] at hdigits
  refine ⟨line.takeWhile isHexDigit, line.dropWhile isHexDigit, ?_, hdigits.1, ?_, Except.ok.inj h, ?_⟩
  · exact takeWhile_append_dropWhile.symm
  · exact all_takeWhile
  -- either nothing follows the digits, or blanks, a semicolon and no control character
  by_cases hempty : line.dropWhile isHexDigit = []
  · exact .inl hempty
  right
  simp only [Bool.or_eq_true, List.isEmpty_iff, hempty, false_or, Bool.not_eq_true',
    Bool.or_eq_false_iff, bne_eq_false_iff_eq, any_eq_false, Bool.not_eq_true] at hext
  refine ⟨hext.1, fun byte hbyte => ?_⟩
  rw [← @takeWhile_append_dropWhile _ isBlank (line.dropWhile isHexDigit)] at hbyte
  rcases mem_append.mp hbyte with hbyte | hbyte
  · exact isControl_of_isBlank (mem_takeWhile_imp hbyte)
  · exact hext.2 byte hbyte

theorem isTrailer_of_validateTrailer (h : validateTrailer line = .ok ()) : IsTrailer line := by
  obtain ⟨text, htext, h⟩ := bind_eq_ok.mp h
  obtain ⟨⟨name, value⟩, hsplit, h⟩ := bind_eq_ok.mp h
  have htext : fromUtf8 line = some text := okOr_eq_ok.mp htext
  have hsplit : splitOnce ':' text = some (name, value) := okOr_eq_ok.mp hsplit
  obtain ⟨htoken, hvalid⟩ := Bool.and_eq_true _ _ |>.mp (ensure_eq_ok.mp h)
  obtain rfl : lineName text = name := by simp [lineName, hsplit]
  obtain rfl : lineValue text = value := by simp [lineValue, hsplit]
  have hline : FieldLine text := ⟨hsplit, htoken, by simpa using hvalid⟩
  rw [IsTrailer, ← encodeUtf8_of_fromUtf8 htext, readField_encode hline]
  rfl

/-- The trailer loop takes a trailer section off the stream. -/
theorem trailerLoop_spec {fuel : Nat} {source' : Source} {trailerBytes : Nat}
    (h : trailerLoop fuel source trailerBytes = .ok source') : ∃ trailers, (∀ line ∈ trailers, IsTrailer line) ∧
      source.stream = trailerSection trailers ++ source'.stream := by
  induction fuel generalizing source trailerBytes with
  | zero => exact absurd h (by simp [trailerLoop])
  | succ fuel ih =>
    obtain ⟨⟨line, source₁⟩, hline, h⟩ := bind_eq_ok.mp h
    have hstream := (line_spec hline).1
    dsimp only at h
    split at h
    · rename_i hempty
      cases h
      refine ⟨[], by simp, ?_⟩
      rw [hstream, List.isEmpty_iff.mp hempty]
      simp [trailerSection]
    · obtain ⟨-, h⟩ := ensure_bind_eq_ok.mp h
      obtain ⟨⟨⟩, hvalid, h⟩ := bind_eq_ok.mp h
      obtain ⟨trailers, htrailers, hrest⟩ := ih h
      refine ⟨line :: trailers, ?_, ?_⟩
      · exact forall_mem_cons.mpr ⟨isTrailer_of_validateTrailer hvalid, htrailers⟩
      · rw [hstream, hrest]
        simp [trailerSection]

/-! ## Writing upstream -/

/-- A write ends with all bytes taken, or fails with a proper prefix of them. -/
theorem writeAll_spec {post : Unit → Sink → Prop} {failure : String → Sink → Prop} {sink : Sink}
    (hpost : ∀ sink', sink'.written = sink.written ++ bytes → post () sink')
    (hfailure : ∀ e sink' part missing, bytes = part ++ missing → missing ≠ [] →
      sink'.written = sink.written ++ part → failure e sink') : wp (writeAll bytes) post failure sink := by
  unfold wp writeAll
  cases hroom : sink.room with
  | none => exact hpost _ rfl
  | some room =>
    by_cases hfits : bytes.length ≤ room
    · simp only [hfits, if_true]
      exact hpost _ rfl
    · simp only [hfits, if_false]
      refine hfailure _ _ (bytes.take room) (bytes.drop room) ?_ ?_ rfl
      · exact (take_append_drop room bytes).symm
      · rw [Ne, drop_eq_nil_iff]
        exact hfits

/-- `copy_exact` moves the next `remaining` bytes of the stream upstream; if it fails, it moved at
most that many. -/
theorem copyExact_spec (inbound : List ReadEvent) (pending : List UInt8) (remaining : Nat) (sink : Sink) :
    wp (copyExact inbound pending remaining) (fun source sink' => ∃ data : List UInt8, data.length = remaining ∧
        pending ++ streamOf inbound = data ++ source.stream ∧ sink'.written = sink.written ++ data)
      (fun _ sink' => ∃ part : List UInt8, part.length ≤ remaining ∧ sink'.written = sink.written ++ part) sink := by
  rw [copyExact.eq_def, wp_bind]
  refine writeAll_spec (fun sink₁ hwritten => ?_) fun e sink' part missing hpart _ hwritten => ?_
  swap
  · refine ⟨part, ?_, hwritten⟩
    have hlength := congrArg List.length hpart
    simp only [length_take, length_append] at hlength
    omega
  split
  · refine (wp_pure _).mpr ⟨pending.take remaining, ?_, ?_, hwritten⟩
    · rw [length_take]
      omega
    · rw [Source.stream, ← append_assoc, take_append_drop]
  rw [take_of_length_le (by omega)] at hwritten
  cases inbound with
  | nil => exact ⟨pending, by omega, hwritten⟩
  | cons event inbound =>
    rw [wp_bind]
    refine (wp_ofResult _).mpr ⟨fun bytes hbytes => ?_, fun e _ => ⟨pending, by omega, hwritten⟩⟩
    refine wp_mono (copyExact_spec inbound bytes (remaining - pending.length) sink₁) ?_ ?_
    · rintro source sink' ⟨data, hlength, hstream, hdata⟩
      refine ⟨pending ++ data, ?_, ?_, ?_⟩
      · rw [length_append]
        omega
      · rw [streamOf_cons inbound hbytes, hstream, append_assoc]
      · rw [hdata, hwritten, append_assoc]
    · rintro e sink' ⟨part, hlength, hpart⟩
      refine ⟨pending ++ part, ?_, ?_⟩
      · rw [length_append]
        omega
      · rw [hpart, hwritten, append_assoc]
termination_by inbound.length

/-! ## The output -/

/-- A chunk as the proxy writes it. -/
def encodeChunk (data : List UInt8) : List UInt8 :=
  hexBytes data.length ++ crlfBytes ++ (data ++ crlfBytes)

/-- The message the proxy writes for these chunks. -/
def encodeMessage (chunks : List (List UInt8)) : List UInt8 :=
  chunks.flatMap encodeChunk ++ finalChunk

theorem sizeLine_hexBytes (n : Nat) : SizeLine ChunkExt (hexBytes n) n :=
  ⟨hexBytes n, [], (append_nil _).symm, hexBytes_ne_nil n,
    all_eq_true.mpr fun _ hbyte => isHexDigit_of_mem_hexBytes hbyte, hexValue_hexBytes n, .nil⟩

/-- The proxy's framing is a message of the RFC, without extensions or trailers. -/
theorem chunkedMessage_encodeMessage {chunks : List (List UInt8)}
    (h : ∀ data ∈ chunks, data ≠ []) : ChunkedMessage ChunkExt chunks (encodeMessage chunks) := by
  refine ⟨chunks.flatMap encodeChunk ++ (hexBytes 0 ++ crlfBytes), [], ?_, by simp, ?_⟩
  · induction chunks with
    | nil => exact .last (sizeLine_hexBytes 0)
    | cons data chunks ih =>
      have hchunk := ChunkLines.chunk (sizeLine_hexBytes data.length) (h data (by simp))
        (ih fun d hd => h d (by simp [hd]))
      simpa [encodeChunk, append_assoc] using hchunk
  · rw [encodeMessage, append_assoc]
    rfl

theorem ChunkLines.ne_nil {Ext : List UInt8 → Prop} {chunks : List (List UInt8)} (h : ChunkLines Ext chunks bytes) :
    ∀ data ∈ chunks, data ≠ [] := by
  induction h with
  | last _ => simp
  | chunk _ hne _ ih =>
    exact forall_mem_cons.mpr ⟨hne, ih⟩

/-- After `base`, the upstream holds a proper prefix of some message. -/
def IsCut (base written : List UInt8) : Prop :=
  ∃ chunks missing, (∀ data ∈ chunks, data ≠ []) ∧ missing ≠ [] ∧ base ++ encodeMessage chunks = written ++ missing

theorem isCut_refl (written : List UInt8) : IsCut written written := ⟨[], finalChunk, by simp, by decide, rfl⟩

/-- A chunk written whole before the cut. -/
theorem IsCut.cons {base written data : List UInt8} (hdata : data ≠ [])
    (h : IsCut (base ++ encodeChunk data) written) : IsCut base written := by
  obtain ⟨chunks, missing, hchunks, hmissing, heq⟩ := h
  refine ⟨data :: chunks, missing, ?_, hmissing, ?_⟩
  · exact forall_mem_cons.mpr ⟨hdata, hchunks⟩
  · rw [← heq, encodeMessage, encodeMessage, flatMap_cons]
    simp

/-- A cut inside the next chunk. -/
theorem isCut_of_chunk (data missing : List UInt8) {written : List UInt8} (hdata : data ≠ []) (hmissing : missing ≠ [])
    (h : base ++ encodeChunk data = written ++ missing) : IsCut base written := by
  refine ⟨[data], missing ++ finalChunk, by simpa using hdata, by simp [hmissing], ?_⟩
  rw [encodeMessage, flatMap_cons, flatMap_nil, append_nil, ← append_assoc, h, append_assoc]

/-- A cut inside a chunk of `size` bytes, after its header and at most `size` bytes of data. -/
theorem isCut_of_data {part : List UInt8} (hsize : size ≠ 0) (hpart : part.length ≤ size) :
    IsCut base (base ++ (hexBytes size ++ crlfBytes) ++ part) := by
  -- any data of the announced length that starts with `part` completes the chunk
  have hlength : (part ++ replicate (size - part.length) 0).length = size := by
    rw [length_append, length_replicate]
    omega
  refine isCut_of_chunk (part ++ replicate (size - part.length) 0)
    (replicate (size - part.length) 0 ++ crlfBytes) ?_ (by simp [crlfBytes]) ?_
  · intro hnil
    rw [hnil] at hlength
    exact hsize hlength.symm
  · rw [encodeChunk, hlength]
    simp

/-! ## The loops -/

/-- What the chunk loop guarantees: the chunks it read are the chunks it wrote, or the upstream was
left with a proper prefix of a message. -/
def ChunksForwarded (maxBody total : Nat) (source source' : Source) (base : List UInt8)
    (written : List UInt8) : Prop :=
  ∃ chunks head, source.stream = head ++ source'.stream ∧ ChunkLines IsExtension chunks head ∧
    written = base ++ chunks.flatMap encodeChunk ∧
    (total ≤ maxBody → total + chunks.flatten.length ≤ maxBody)

theorem ChunksForwarded.cons {maxBody total : Nat} {source source₁ source' : Source}
    {base written line data : List UInt8} (hline : SizeLine IsExtension line data.length)
    (hdata : data ≠ []) (hbody : total + data.length ≤ maxBody)
    (hstream : source.stream = line ++ (crlfBytes ++ (data ++ (crlfBytes ++ source₁.stream))))
    (h : ChunksForwarded maxBody (total + data.length) source₁ source' (base ++ encodeChunk data) written) :
    ChunksForwarded maxBody total source source' base written := by
  obtain ⟨chunks, head, hrest, hchunks, hwritten, htotal⟩ := h
  refine ⟨data :: chunks, _, ?_, .chunk hline hdata hchunks, ?_, fun _ => ?_⟩
  · rw [hstream, hrest]
    simp
  · rw [hwritten, flatMap_cons, append_assoc]
  · rw [flatten_cons, length_append]
    omega

/-- The specification of the chunk loop, and of what comes after one of its turns. -/
def ForwardsChunks (maxBody : Nat) (loop : Source → Nat → Forward Source) : Prop :=
  ∀ source total sink, wp (loop source total)
    (fun source' sink' => ChunksForwarded maxBody total source source' sink.written sink'.written)
    (fun _ sink' => IsCut sink.written sink'.written) sink

theorem chunkTurn_spec {maxBody : Nat} {next : Source → Nat → Forward Source} (hnext : ForwardsChunks maxBody next) :
    ForwardsChunks maxBody (chunkTurn maxBody next) := by
  intro source total sink
  rw [chunkTurn, wp_bind]
  refine (wp_ofResult _).mpr ⟨?_, fun _ _ => isCut_refl _⟩
  rintro ⟨line, source₁⟩ hline
  have hstream := (line_spec hline).1
  rw [wp_bind]
  refine (wp_ofResult _).mpr ⟨fun size hsize => ?_, fun _ _ => isCut_refl _⟩
  have hsizeLine := parseChunkSize_spec hsize
  split
  · rename_i hzero
    rw [hzero] at hsizeLine
    refine (wp_pure _).mpr ⟨[], line ++ crlfBytes, ?_, .last hsizeLine, ?_, fun h => h⟩
    · rw [hstream, append_assoc]
    · simp
  rename_i hne
  rw [wp_bind]
  refine (wp_ofResult _).mpr ⟨?_, fun _ _ => isCut_refl _⟩
  rintro ⟨⟩ hbody
  have hbody : total + size ≤ maxBody := by
    have := ensure_eq_ok.mp hbody
    simp only [Bool.and_eq_true, decide_eq_true_eq] at this
    exact this.2
  rw [wp_bind]
  refine writeAll_spec ?_ ?_
  swap
  · intro e sink' part missing hpart hmissing hwritten
    rw [hwritten]
    -- a chunk of the announced length begins like this
    have hlength : (replicate size (0 : UInt8)).length = size := length_replicate
    refine isCut_of_chunk (replicate size 0) (missing ++ (replicate size 0 ++ crlfBytes)) ?_ (by simp [hmissing]) ?_
    · simpa using hne
    · rw [encodeChunk, hlength, hpart]
      simp
  intro sink₁ hheader
  rw [wp_bind]
  refine wp_mono (copyExact_spec source₁.inbound source₁.pending size sink₁) ?_ ?_
  swap
  · rintro e sink' ⟨part, hpart, hwritten⟩
    rw [hwritten, hheader]
    exact isCut_of_data hne hpart
  rintro source₂ sink₂ ⟨data, hlength, hdata, hcopied⟩
  have hcut : IsCut sink.written sink₂.written := by
    rw [hcopied, hheader]
    exact isCut_of_data hne (le_of_eq hlength)
  rw [wp_bind]
  refine (wp_ofResult _).mpr ⟨?_, fun _ _ => hcut⟩
  rintro ⟨empty, source₃⟩ hempty
  have hstream₂ := (line_spec hempty).1
  rw [wp_bind]
  refine (wp_ofResult _).mpr ⟨?_, fun _ _ => hcut⟩
  rintro ⟨⟩ hnil
  obtain rfl : empty = [] := List.isEmpty_iff.mp (ensure_eq_ok.mp hnil)
  rw [wp_bind]
  subst hlength
  refine writeAll_spec ?_ ?_
  · intro sink₃ hcrlf
    have hwritten : sink₃.written = sink.written ++ encodeChunk data := by
      rw [hcrlf, hcopied, hheader, encodeChunk]
      simp
    have hdataNe : data ≠ [] := fun hnil => hne (by rw [hnil]; rfl)
    refine wp_mono (hnext source₃ (total + data.length) sink₃) ?_ ?_
    · intro source' sink' hforwarded
      rw [hwritten] at hforwarded
      refine hforwarded.cons hsizeLine hdataNe hbody ?_
      rw [hstream, Source.stream, hdata, hstream₂, nil_append]
    · intro e sink' hcut'
      rw [hwritten] at hcut'
      exact hcut'.cons hdataNe
  · intro e sink' part missing hpart hmissing hwritten
    -- the chunk lacks the end of its CRLF
    refine isCut_of_chunk data missing (fun hnil => hne (by rw [hnil]; rfl)) hmissing ?_
    rw [hwritten, hcopied, hheader, encodeChunk, hpart]
    simp

theorem chunkLoop_spec (maxBody fuel : Nat) : ForwardsChunks maxBody (chunkLoop maxBody fuel) := by
  induction fuel with
  | zero => exact fun _ _ _ => isCut_refl _
  | succ fuel ih => exact chunkTurn_spec ih

/-! ## Enough turns -/

/-- A loop whose turns only go on with smaller states is over after as many turns as its state is large. -/
theorem turns_enough {σ τ ρ : Type} {loop : Nat → σ → τ → ρ} {turn : (σ → τ → ρ) → σ → τ → ρ} (size : σ → Nat)
    (hloop : ∀ turns, loop (turns + 1) = turn (loop turns))
    (hturn : ∀ state total next next', (∀ later total, size later < size state → next later total = next' later total) →
      turn next state total = turn next' state total)
    {turns turns' : Nat} {state : σ} {total : τ} (h : size state < turns) (h' : size state < turns') :
    loop turns state total = loop turns' state total := by
  induction turns generalizing turns' state total with
  | zero => exact absurd h (Nat.not_lt_zero _)
  | succ turns ih =>
    cases turns' with
    | zero => exact absurd h' (Nat.not_lt_zero _)
    | succ turns' =>
      rw [hloop, hloop]
      exact hturn _ _ _ _ fun later total hlt => ih (by omega) (by omega)

theorem line_stream_lt {source' : Source} (h : source.line max = .ok (line, source')) :
    source'.stream.length < source.stream.length := by
  rw [(line_spec h).1, length_append, length_append, crlfBytes, length_cons]
  omega

/-- A turn of the chunk loop only goes on with a shorter stream. -/
theorem chunkTurn_congr {maxBody : Nat} (source : Source) (total : Nat) (next next' : Source → Nat → Forward Source)
    (h : ∀ later total, later.stream.length < source.stream.length → next later total = next' later total) :
    chunkTurn maxBody next source total = chunkTurn maxBody next' source total := by
  funext sink
  refine bind_apply_congr ((wp_ofResult _).mpr ⟨?_, fun _ _ => trivial⟩)
  rintro ⟨line, source₁⟩ hline
  have hlt := line_stream_lt hline
  refine bind_apply_congr ((wp_ofResult _).mpr ⟨fun size _ => ?_, fun _ _ => trivial⟩)
  split
  · rfl
  refine bind_apply_congr ((wp_ofResult _).mpr ⟨fun _ _ => ?_, fun _ _ => trivial⟩)
  refine bind_apply_congr (writeAll_spec (fun sink₁ _ => ?_) fun _ _ _ _ _ _ _ => trivial)
  refine bind_apply_congr (wp_mono (copyExact_spec source₁.inbound source₁.pending size sink₁) ?_ fun _ _ _ => trivial)
  rintro source₂ sink₂ ⟨data, -, hdata : source₁.stream = _, -⟩
  refine bind_apply_congr ((wp_ofResult _).mpr ⟨?_, fun _ _ => trivial⟩)
  rintro ⟨empty, source₃⟩ hempty
  have hlt₃ := line_stream_lt hempty
  refine bind_apply_congr ((wp_ofResult _).mpr ⟨fun _ _ => ?_, fun _ _ => trivial⟩)
  refine bind_apply_congr (writeAll_spec (fun sink₃ _ => ?_) fun _ _ _ _ _ _ _ => trivial)
  rw [hdata, length_append] at hlt
  rw [h source₃ (total + size) (by omega)]

theorem trailerTurn_congr (source : Source) (trailerBytes : Nat) (next next' : Source → Nat → Except String Source)
    (h : ∀ later total, later.stream.length < source.stream.length → next later total = next' later total) :
    trailerTurn next source trailerBytes = trailerTurn next' source trailerBytes := by
  rw [trailerTurn, trailerTurn]
  cases hline : source.line maxChunkTrailerBytes with
  | error e => rfl
  | ok parts =>
    have hsame : next parts.2 = next' parts.2 := funext fun total => h _ total (line_stream_lt hline)
    simp only [bind, Except.bind, hsame]

/-- More turns than the stream has bytes change nothing. -/
theorem forwardWithin_eq {turns maxBody : Nat} {initial : List UInt8} {inbound : List ReadEvent}
    (h : (initial ++ streamOf inbound).length < turns) :
    forwardWithin turns maxBody initial inbound = forwardChunkedBody maxBody initial inbound := by
  have hchunks : chunkLoop maxBody turns ⟨initial, inbound⟩ 0 = chunkLoop maxBody _ ⟨initial, inbound⟩ 0 :=
    turns_enough (fun source => source.stream.length) (fun _ => rfl) chunkTurn_congr h (Nat.lt_succ_self _)
  funext sink
  rw [forwardChunkedBody, forwardWithin, forwardWithin, hchunks]
  refine bind_apply_congr (wp_mono (chunkLoop_spec maxBody _ ⟨initial, inbound⟩ 0 sink) ?_ fun _ _ _ => trivial)
  rintro source sink' ⟨chunks, head, hstream, -⟩
  have hle : source.stream.length ≤ (initial ++ streamOf inbound).length := by
    show _ ≤ (Source.stream ⟨initial, inbound⟩).length
    rw [hstream, length_append]
    omega
  have htrailers : trailerLoop turns source 0 = trailerLoop _ source 0 :=
    turns_enough (fun source => source.stream.length) (fun _ => rfl) trailerTurn_congr (Nat.lt_of_le_of_lt hle h)
      (Nat.lt_succ_of_le hle)
  simp only [htrailers]

/-! ## The whole body -/

/-- What `forward_chunked_body` guarantees, however it ends. -/
theorem forwardChunkedBody_spec (maxBody : Nat) (initial : List UInt8) (inbound : List ReadEvent) (sink : Sink) :
    wp (forwardChunkedBody maxBody initial inbound)
      (fun _ sink' => ∃ chunks message rest, initial ++ streamOf inbound = message ++ rest ∧
        ChunkedMessage IsExtension chunks message ∧ chunks.flatten.length ≤ maxBody ∧
        sink'.written = sink.written ++ encodeMessage chunks ∧ ∀ data ∈ chunks, data ≠ [])
      (fun _ sink' => IsCut sink.written sink'.written) sink := by
  rw [forwardChunkedBody, forwardWithin, wp_bind]
  refine wp_mono (chunkLoop_spec maxBody _ ⟨initial, inbound⟩ 0 sink) ?_ fun _ _ hcut => hcut
  rintro source₁ sink₁ ⟨chunks, head, hstream, hchunks, hwritten, htotal⟩
  have hcut : IsCut sink.written sink₁.written :=
    ⟨chunks, finalChunk, hchunks.ne_nil, by decide, by rw [hwritten, append_assoc]; rfl⟩
  rw [wp_bind]
  refine (wp_ofResult _).mpr ⟨fun source₂ htrailers => ?_, fun _ _ => hcut⟩
  obtain ⟨trailers, htrailers, hrest⟩ := trailerLoop_spec htrailers
  rw [wp_bind]
  refine (wp_ofResult _).mpr ⟨fun _ _ => ?_, fun _ _ => hcut⟩
  refine writeAll_spec ?_ ?_
  · intro sink₂ hfinal
    refine ⟨chunks, head ++ trailerSection trailers, source₂.stream, ?_,
      ⟨head, trailers, hchunks, htrailers, rfl⟩, ?_, ?_, hchunks.ne_nil⟩
    · rw [append_assoc, ← hrest]
      exact hstream
    · omega
    · rw [hfinal, hwritten, append_assoc]
      rfl
  · intro e sink₂ part missing hpart hmissing hfinal
    -- the final chunk was not written whole
    refine ⟨chunks, missing, hchunks.ne_nil, hmissing, ?_⟩
    rw [hfinal, hwritten, encodeMessage, hpart]
    simp

/-- Whatever the client sends and however it arrives: a body that is forwarded reaches the upstream as the chunked
message of the client's payload without its extensions and trailers, the same for every way of cutting the stream;
of a body that is refused no complete message reaches the upstream; and the loops need no more turns than there
are bytes. -/
theorem forwardChunkedBody_faithful (maxBody : Nat) (initial : List UInt8)
    (inbound : List ReadEvent) (room : Option Nat) : (match forwardChunkedBody maxBody initial inbound ⟨[], room⟩ with
    | .ok () sink =>
      ∃ chunks message rest, initial ++ streamOf inbound = message ++ rest ∧ ChunkedMessage IsExtension chunks message ∧
        sink.written = encodeMessage chunks ∧ ChunkedMessage ChunkExt chunks sink.written ∧
        chunks.flatten.length ≤ maxBody ∧
        (∀ sent message' rest', initial ++ streamOf inbound = message' ++ rest' →
          ChunkedMessage ChunkExt sent message' → sent.flatten = chunks.flatten) ∧
        ∀ initial' inbound' room' sink', initial' ++ streamOf inbound' = initial ++ streamOf inbound →
          forwardChunkedBody maxBody initial' inbound' ⟨[], room'⟩ = .ok () sink' →
          sink'.written = sink.written
    | .error _ sink => ∀ chunks message rest, ChunkedMessage IsExtension chunks message →
        sink.written ≠ message ++ rest) ∧
    ∀ turns, (initial ++ streamOf inbound).length < turns →
      forwardWithin turns maxBody initial inbound = forwardChunkedBody maxBody initial inbound := by
  refine ⟨?_, fun _ => forwardWithin_eq⟩
  have hspec := forwardChunkedBody_spec maxBody initial inbound ⟨[], room⟩
  cases hrun : forwardChunkedBody maxBody initial inbound ⟨[], room⟩ with
  | ok value sink =>
    obtain ⟨chunks, message, rest, hstream, hmessage, hlength, hwritten, hne⟩ := wp_ok hspec hrun
    rw [nil_append] at hwritten
    refine ⟨chunks, message, rest, hstream, hmessage, hwritten, ?_, hlength, ?_, ?_⟩
    · rw [hwritten]
      exact chunkedMessage_encodeMessage hne
    · intro sent message' rest' hstream' hsent
      rw [(hsent.isExtension.unique hmessage (hstream'.symm.trans hstream)).1]
    · intro initial' inbound' room' sink' hsame hrun'
      have hspec' := forwardChunkedBody_spec maxBody initial' inbound' ⟨[], room'⟩
      obtain ⟨chunks', message', rest', hstream', hmessage', -, hwritten', -⟩ := wp_ok hspec' hrun'
      have heq : message' ++ rest' = message ++ rest := hstream'.symm.trans (hsame.trans hstream)
      rw [hwritten, hwritten', nil_append, (hmessage'.unique hmessage heq).1]
  | error e sink =>
    obtain ⟨chunks, missing, hne, hmissing, hcut⟩ := wp_error hspec hrun
    have hmessage := (chunkedMessage_encodeMessage hne).isExtension
    rw [← nil_append (encodeMessage chunks), hcut] at hmessage
    rintro chunks' message rest hwhole hbegins
    -- the message that was cut would end where the complete one does
    have hsame : sink.written ++ missing ++ [] = message ++ (rest ++ missing) := by simp [hbegins]
    exact hmissing (append_eq_nil_iff.mp (hmessage.unique hwhole hsame).2.symm).2

end Nyabase.HttpProxy
