import Nyabase.Backend.RefreshSession

/-!
# The session tables

What the tables of the browser sessions keep: one current token for each session, whose retired ones go back
to the same login and are older than it; bounds on what is kept; and for every answered call that presented a
retired token, what came of it.
-/

namespace Nyabase.Backend

open Lib List

/-! ## Tokens -/

namespace Token

/-- The login a token goes back to. -/
def root : Token → Nat
  | issued session => session
  | rotated _ previous _ => previous.root

/-- How often it was rotated since. -/
def depth : Token → Nat
  | issued _ => 0
  | rotated _ previous _ => previous.depth + 1

end Token

/-! ## Retired hashes -/

section
variable {order : Token → Nat} {ancestors : List AncestorRow} {retired row : AncestorRow}
  {sessionId keepCount : Nat}

instance (order : Token → Nat) : IsTrans AncestorRow (retiredAfter order) where
  trans a b c hab hbc := by
    unfold retiredAfter at *
    omega

instance (order : Token → Nat) : Std.Total (retiredAfter order) where
  total a b := by
    unfold retiredAfter
    omega

theorem mem_newestAncestors :
    row ∈ newestAncestors order ancestors sessionId ↔ row ∈ ancestors ∧ row.sessionId = sessionId := by
  rw [newestAncestors, mem_insertionSort, mem_filter, beq_iff_eq]

theorem length_newestAncestors :
    (newestAncestors order ancestors sessionId).length = ancestors.countP fun row => row.sessionId == sessionId := by
  rw [newestAncestors, length_insertionSort, countP_eq_length_filter]

/-- A hash that is not among the ancestors yet is put there. -/
theorem insertAncestor_new (h : ∀ row ∈ ancestors, row.hash ≠ retired.hash) :
    insertAncestor ancestors retired = retired :: ancestors := by
  rw [insertAncestor, if_neg]
  simpa using h

section

variable (hfresh : ∀ row ∈ ancestors, row.hash ≠ retired.hash)

include hfresh

section

variable (hnodup : (ancestors.map AncestorRow.hash).Nodup)

include hnodup

theorem nodup_hash_cons : ((retired :: ancestors).map AncestorRow.hash).Nodup := by
  rw [map_cons, nodup_cons]
  refine ⟨fun hmem => ?_, hnodup⟩
  obtain ⟨other, hother, hhash⟩ := mem_map.mp hmem
  exact hfresh other hother hhash

/-- What is left of the ancestors after a hash was retired. -/
theorem mem_retireRefreshHash : row ∈ retireRefreshHash order ancestors retired keepCount ↔
      row ∈ retired :: ancestors ∧
        row ∉ (newestAncestors order (retired :: ancestors) retired.sessionId).drop keepCount := by
  simp only [retireRefreshHash, insertAncestor_new hfresh, mem_deleteWhere]
  refine and_congr_right fun hrow => ?_
  -- a dropped row of the same hash is the same row
  have hdropped : ∀ other ∈ (newestAncestors order (retired :: ancestors) retired.sessionId).drop keepCount,
      other ∈ retired :: ancestors ∧ other.sessionId = retired.sessionId :=
    fun other hother => mem_newestAncestors.mp (mem_of_mem_drop hother)
  constructor
  · intro hkept hdrop
    simp only [Bool.and_eq_false_iff, beq_eq_false_iff_ne, any_eq_false, beq_iff_eq] at hkept
    rcases hkept with hother | hnone
    · exact hother (hdropped row hdrop).2
    · exact hnone row hdrop rfl
  · intro hdrop
    simp only [Bool.and_eq_false_iff, beq_eq_false_iff_ne, any_eq_false, beq_iff_eq]
    refine .inr fun other hother hhash => hdrop ?_
    obtain rfl : other = row := eq_of_key_eq (nodup_hash_cons hfresh hnodup) (hdropped other hother).1 hrow hhash
    exact hother

theorem nodup_retireRefreshHash :
    ((retireRefreshHash order ancestors retired keepCount).map AncestorRow.hash).Nodup := by
  simp only [retireRefreshHash, insertAncestor_new hfresh]
  exact nodup_map_key_deleteWhere (nodup_hash_cons hfresh hnodup)

/-- At most so many hashes of the session are kept. -/
theorem countP_retireRefreshHash_le : (retireRefreshHash order ancestors retired keepCount).countP
      (fun row => row.sessionId == retired.sessionId) ≤ keepCount := by
  have hnewest : ∀ row ∈ retireRefreshHash order ancestors retired keepCount,
      (row.sessionId == retired.sessionId) = true →
      row.hash ∈ ((newestAncestors order (retired :: ancestors) retired.sessionId).take keepCount).map
        AncestorRow.hash := by
    intro row hrow hsession
    obtain ⟨hmem, hdrop⟩ := (mem_retireRefreshHash hfresh hnodup).mp hrow
    have hall : row ∈ newestAncestors order (retired :: ancestors) retired.sessionId :=
      mem_newestAncestors.mpr ⟨hmem, eq_of_beq hsession⟩
    rw [← take_append_drop keepCount (newestAncestors _ _ _), mem_append] at hall
    exact mem_map_of_mem (hall.resolve_right hdrop)
  refine (countP_le_length_of_key (nodup_retireRefreshHash hfresh hnodup) hnewest).trans ?_
  rw [length_map, length_take]
  omega

end

omit hfresh in
/-- The ancestors of the other sessions stay. -/
theorem filter_retireRefreshHash_other (hother : sessionId ≠ retired.sessionId) :
    (retireRefreshHash order ancestors retired keepCount).filter (fun row => row.sessionId == sessionId) =
      ancestors.filter fun row => row.sessionId == sessionId := by
  rw [retireRefreshHash, filter_deleteWhere (by simp_all), insertAncestor]
  split
  · rfl
  · rw [filter_cons_of_neg]
    simpa using hother.symm

/-- A rotation that is not throttled forgets only what is old enough. -/
theorem retireRefreshHash_forgets {config : RefreshConfig} (hnodup : (ancestors.map AncestorRow.hash).Nodup)
    (hkept : ancestors.countP (fun row => row.sessionId == retired.sessionId) ≤ config.retainedAncestors)
    (hthrottle : rotationThrottleMs config order ancestors retired.sessionId retired.retiredAt = 0)
    (hrow : row ∈ retired :: ancestors)
    (hforgotten : row ∉ retireRefreshHash order ancestors retired config.retainedAncestors) :
    row.retiredAt + config.ancestorMinimumAgeMs ≤ retired.retiredAt := by
  set newest := newestAncestors order (retired :: ancestors) retired.sessionId with hnewest
  have hdrop : row ∈ newest.drop config.retainedAncestors := by
    by_contra hdrop
    exact hforgotten ((mem_retireRefreshHash hfresh hnodup).mpr ⟨hrow, hdrop⟩)
  -- the list is full, so the throttle has looked at its last row
  have hlength : newest.length ≤ config.retainedAncestors + 1 := by
    rw [hnewest, length_newestAncestors, countP_cons]
    split <;> omega
  have hdropped : 0 < (newest.drop config.retainedAncestors).length := length_pos_of_mem hdrop
  rw [length_drop] at hdropped
  have hfull : config.retainedAncestors ≤ (newestAncestors order ancestors retired.sessionId).length := by
    rw [hnewest, length_newestAncestors, countP_cons] at hdropped
    rw [length_newestAncestors]
    split at hdropped <;> omega
  have hpos := config.retained_pos
  have hindex : config.retainedAncestors - 1 < (newestAncestors order ancestors retired.sessionId).length := by omega
  rw [rotationThrottleMs, List.getElem?_eq_getElem hindex] at hthrottle
  set evicted := (newestAncestors order ancestors retired.sessionId)[config.retainedAncestors - 1] with hevicted
  have hold : evicted.retiredAt + config.ancestorMinimumAgeMs ≤ retired.retiredAt := by
    simp only at hthrottle
    omega
  -- what is dropped comes after every row that stays, the evicted one among them
  have hle : row.retiredAt ≤ evicted.retiredAt := by
    have hmem : evicted ∈ newest := by
      obtain ⟨hin, hsession⟩ := mem_newestAncestors.mp (getElem_mem hindex)
      exact mem_newestAncestors.mpr ⟨mem_cons_of_mem _ hin, hsession⟩
    have hsorted : newest.Pairwise (retiredAfter order) := pairwise_insertionSort _ _
    rw [← take_append_drop config.retainedAncestors newest] at hmem hsorted
    rcases mem_append.mp hmem with hkeep | hgone
    · have hafter := (pairwise_append.mp hsorted).2.2 evicted hkeep row hdrop
      unfold retiredAfter at hafter
      omega
    have hone : (newest.drop config.retainedAncestors).length = 1 := by
      rw [length_drop]
      omega
    obtain ⟨only, honly⟩ := length_eq_one_iff.mp hone
    rw [honly, mem_singleton] at hdrop hgone
    rw [hdrop, hgone]
  omega

end

end

/-! ## What holds of the tables -/

/-- The presented token is the immediate predecessor, presented by the request that rotated it. -/
def SessionRow.recovers (row : SessionRow) (input : RefreshInput) : Prop :=
  ∃ predecessor, row.predecessor = some predecessor ∧ predecessor.hash = input.hash ∧
    predecessor.requestId = input.requestId

/-- What an answer owes when the presented token was a retired one of a session. -/
def AnswerOk (config : RefreshConfig) (answer : RefreshAnswer) : Prop :=
  ∀ row, answer.retiredIn = some row → match answer.result with
    | .recovered sessionId token _ =>
      sessionId = row.id ∧ row.recovers answer.input ∧ token = answer.input.successor row.id ∧ token = row.hash
    | .superseded =>
      ∃ predecessor, row.predecessor = some predecessor ∧ predecessor.hash = answer.input.hash ∧
        answer.now - predecessor.rotatedAt < config.reuseGraceMs
    | .invalid => row.recovers answer.input
    | .reused _ sessionId => sessionId = row.id ∧ answer.deleted = true
    | .throttled _ => False
    | .rotated _ _ _ => False

structure TablesInv (config : RefreshConfig) (tables : RefreshTables) : Prop where
  ids : (tables.sessions.map SessionRow.id).Nodup
  fresh : ∀ row ∈ tables.sessions, row.id < tables.next
  root : ∀ row ∈ tables.sessions, row.hash.root = row.id
  unrevoked : ∀ row ∈ tables.sessions, row.revoked = false
  expiry : ∀ row ∈ tables.sessions, row.expiresAt ≤ row.createdAt + config.absoluteMs
  chain : ∀ ancestor ∈ tables.ancestors, ancestor.hash.root = ancestor.sessionId ∧
    ∃ row ∈ tables.sessions, row.id = ancestor.sessionId ∧ ancestor.hash.depth < row.hash.depth
  hashes : (tables.ancestors.map AncestorRow.hash).Nodup
  kept : ∀ sessionId, (tables.ancestors.countP fun row => row.sessionId == sessionId) ≤ config.retainedAncestors
  live : ∀ userId, (tables.sessions.countP fun row => row.userId == userId && row.live tables.clock) ≤
    config.maximumSessions
  past : ∀ retired ∈ tables.retirements, retired.sessionId < tables.next
  remembered : ∀ retired ∈ tables.retirements, tables.clock < retired.retiredAt + config.ancestorMinimumAgeMs →
    (∃ row ∈ tables.sessions, row.id = retired.sessionId) → retired ∈ tables.ancestors
  answered : ∀ answer ∈ tables.answers, AnswerOk config answer

namespace RefreshTables

variable {config : RefreshConfig} {tables : RefreshTables} {row : SessionRow} {sessionId : Nat} {input : RefreshInput}

theorem find_mem (h : tables.find sessionId = some row) : row ∈ tables.sessions ∧ row.id = sessionId :=
  ⟨List.mem_of_find?_eq_some h, by simpa using List.find?_some h⟩

section

variable (hinv : TablesInv config tables)

include hinv

theorem find_eq (hrow : row ∈ tables.sessions) : tables.find row.id = some row := find?_key_eq_some hinv.ids hrow

/-- A retired token is one of the session it goes back to. -/
theorem retiredIn_mem (h : tables.retiredIn input.hash = some row) :
    row ∈ tables.sessions ∧ row.id = input.hash.root ∧ input.hash.depth < row.hash.depth := by
  obtain ⟨ancestor, hfound, hrow⟩ := Option.bind_eq_some_iff.mp h
  have hhash : ancestor.hash = input.hash := by simpa using List.find?_some hfound
  obtain ⟨hmem, hid⟩ := find_mem hrow
  obtain ⟨hroot, other, hother, hsession, hdepth⟩ := hinv.chain ancestor (List.mem_of_find?_eq_some hfound)
  obtain rfl : other = row := eq_of_key_eq hinv.ids hother hmem (hsession.trans hid.symm)
  rw [hhash] at hroot hdepth
  exact ⟨hmem, hid.trans hroot.symm, hdepth⟩

/-- A token that is current is not a retired one. -/
theorem retiredIn_current (hrow : row ∈ tables.sessions)
    (hcurrent : row.hash = input.hash) : tables.retiredIn input.hash = none := by
  cases hretired : tables.retiredIn input.hash with
  | none => rfl
  | some other =>
    obtain ⟨hother, hroot, hdepth⟩ := retiredIn_mem hinv hretired
    have hsame : other.id = row.id := by rw [hroot, ← hcurrent, hinv.root row hrow]
    obtain rfl : other = row := eq_of_key_eq hinv.ids hother hrow hsame
    rw [hcurrent] at hdepth
    omega

end

variable {ids : List Nat}

theorem mem_deleteSessions : row ∈ (tables.deleteSessions ids).sessions ↔ row ∈ tables.sessions ∧ row.id ∉ ids := by
  rw [deleteSessions, mem_deleteWhere]
  simp

theorem mem_deleteSessions_ancestors {ancestor : AncestorRow} :
    ancestor ∈ (tables.deleteSessions ids).ancestors ↔ ancestor ∈ tables.ancestors ∧ ancestor.sessionId ∉ ids := by
  rw [deleteSessions, mem_deleteWhere]
  simp

theorem filter_deleteSessions_ancestors (hkept : sessionId ∉ ids) :
    (tables.deleteSessions ids).ancestors.filter (fun row => row.sessionId == sessionId) =
      tables.ancestors.filter fun row => row.sessionId == sessionId :=
  filter_deleteWhere (by simp_all)

end RefreshTables

namespace TablesInv

open RefreshTables

variable {config : RefreshConfig} {order : Token → Nat} {tables : RefreshTables} {row : SessionRow}
  {sessionId now : Nat} {input : RefreshInput}

section

variable (h : TablesInv config tables)

include h

theorem tick {time : Nat} (hle : tables.clock ≤ time) : TablesInv config { tables with clock := time } := { h with
  live := by
    intro userId
    refine le_trans (countP_mono_left fun row _ hrow => ?_) (h.live userId)
    simp only [SessionRow.live, Bool.and_eq_true, decide_eq_true_eq] at hrow ⊢
    exact ⟨hrow.1, hrow.2.1, by omega⟩
  remembered := fun retired hretired hyoung hsession =>
    h.remembered retired hretired (lt_of_le_of_lt hle hyoung) hsession }

/-- A deleted session takes its ancestors with it. -/
theorem deleteSessions (ids : List Nat) : TablesInv config (tables.deleteSessions ids) := { h with
  ids := nodup_map_key_deleteWhere h.ids
  fresh row hrow := h.fresh row (mem_deleteSessions.mp hrow).1
  root row hrow := h.root row (mem_deleteSessions.mp hrow).1
  unrevoked row hrow := h.unrevoked row (mem_deleteSessions.mp hrow).1
  expiry row hrow := h.expiry row (mem_deleteSessions.mp hrow).1
  chain ancestor hancestor := by
    obtain ⟨hmem, hkept⟩ := mem_deleteSessions_ancestors.mp hancestor
    obtain ⟨hroot, row, hrow, hid, hdepth⟩ := h.chain ancestor hmem
    refine ⟨hroot, row, mem_deleteSessions.mpr ⟨hrow, ?_⟩, hid, hdepth⟩
    rw [hid]
    exact hkept
  hashes := nodup_map_key_deleteWhere h.hashes
  kept sessionId := (countP_deleteWhere_le _).trans (h.kept sessionId)
  live userId := (countP_deleteWhere_le _).trans (h.live userId)
  remembered retired hretired hyoung hsession := by
    obtain ⟨row, hrow, hid⟩ := hsession
    obtain ⟨hmem, hkept⟩ := mem_deleteSessions.mp hrow
    refine mem_deleteSessions_ancestors.mpr ⟨?_, by rw [← hid]; exact hkept⟩
    exact h.remembered retired hretired hyoung ⟨row, hmem, hid⟩ }

/-- An answer is noted. -/
theorem note {before : RefreshTables} {result : RefreshResult}
    (hanswer : ∀ row, before.retiredIn input.hash = some row →
      AnswerOk config { input, now, retiredIn := some row, result
                        deleted := (tables.find row.id).isNone }) :
    TablesInv config (before.note tables input now result) := { h with
  answered := by
    intro answer hmem
    rcases mem_cons.mp hmem with rfl | hold
    · intro row hrow
      have hrow : before.retiredIn input.hash = some row := hrow
      rw [hrow]
      exact hanswer row hrow row rfl
    · exact h.answered answer hold }

variable {active : List Nat}

/-- A login trims its user's sessions to one less than there may be. -/
theorem issue {userId : Nat} {purged : List Nat} (hnow : now ≤ tables.clock)
    (hcovered : ∀ row ∈ tables.sessions, row.userId = userId → row.live now = true → row.id ∈ active) :
    TablesInv config (tables.issue config userId now purged active) := by
  set ids := purged ++ overflow active (config.maximumSessions - 1) with hids
  have htrimmed := h.deleteSessions ids
  have hpos := config.maximum_pos
  refine ⟨?_, ?_, ?_, ?_, ?_, ?_, htrimmed.hashes, htrimmed.kept, ?_, ?_, ?_, htrimmed.answered⟩
  · show ((loginRow config tables.next userId now :: (tables.deleteSessions ids).sessions).map SessionRow.id).Nodup
    rw [map_cons, nodup_cons]
    refine ⟨fun hmem => ?_, htrimmed.ids⟩
    obtain ⟨row, hrow, hid⟩ := mem_map.mp hmem
    have hlt : row.id < tables.next := htrimmed.fresh row hrow
    have hid : row.id = tables.next := hid
    omega
  · intro row hrow
    rcases mem_cons.mp hrow with rfl | hold
    · exact Nat.lt_succ_self _
    · exact Nat.lt_succ_of_lt (htrimmed.fresh row hold)
  · exact forall_mem_cons.mpr ⟨rfl, htrimmed.root⟩
  · exact forall_mem_cons.mpr ⟨rfl, htrimmed.unrevoked⟩
  · refine forall_mem_cons.mpr ⟨?_, htrimmed.expiry⟩
    show now + min config.idleMs config.absoluteMs ≤ now + config.absoluteMs
    omega
  · intro ancestor hancestor
    obtain ⟨hroot, row, hrow, hid, hdepth⟩ := htrimmed.chain ancestor hancestor
    exact ⟨hroot, row, mem_cons_of_mem _ hrow, hid, hdepth⟩
  · intro other
    show (loginRow config tables.next userId now :: (tables.deleteSessions ids).sessions).countP
      (fun row => row.userId == other && row.live tables.clock) ≤ config.maximumSessions
    rw [countP_cons]
    by_cases hsame : userId = other
    · -- what is left of the live sessions are the newest ones of the trim
      have hleft : ∀ row ∈ (tables.deleteSessions ids).sessions, (row.userId == other && row.live tables.clock) = true →
          row.id ∈ active.drop (active.length - (config.maximumSessions - 1)) := by
        intro row hrow hlive
        obtain ⟨hmem, hkept⟩ := mem_deleteSessions.mp hrow
        simp only [SessionRow.live, Bool.and_eq_true, beq_iff_eq, decide_eq_true_eq] at hlive
        have hlive' : row.live now = true := by
          simp only [SessionRow.live, Bool.and_eq_true, decide_eq_true_eq]
          exact ⟨hlive.2.1, by omega⟩
        have hactive := hcovered row hmem (hlive.1.trans hsame.symm) hlive'
        rw [← take_append_drop (active.length - (config.maximumSessions - 1)) active, mem_append] at hactive
        refine hactive.resolve_left fun htake => hkept ?_
        rw [hids, mem_append]
        exact .inr htake
      have hcount := countP_le_length_of_key htrimmed.ids hleft
      rw [length_drop] at hcount
      split <;> omega
    · have hother : ((loginRow config tables.next userId now).userId == other &&
          (loginRow config tables.next userId now).live tables.clock) = false := by
        simp [loginRow, hsame]
      rw [hother]
      exact htrimmed.live other
  · intro retired hretired
    exact Nat.lt_succ_of_lt (h.past retired hretired)
  · intro retired hretired hyoung hsession
    obtain ⟨row, hrow, hid⟩ := hsession
    rcases mem_cons.mp hrow with rfl | hold
    · -- the new session has retired nothing yet
      have hlt := h.past retired hretired
      have hid : tables.next = retired.sessionId := hid
      omega
    · exact htrimmed.remembered retired hretired hyoung ⟨row, hold, hid⟩

section

variable (hrow : row ∈ tables.sessions)

include hrow

section

variable (hcurrent : row.hash = input.hash)

include hcurrent

/-- The rows after a rotation: the session's own is rotated, the others are as they were. -/
theorem mem_updateCurrent {other : SessionRow} :
    other ∈ updateWhere tables.sessions (isCurrent input row.id) (rotateRow config input now) ↔
      (other ∈ tables.sessions ∧ other.id ≠ row.id) ∨ other = rotateRow config input now row := by
  have hiff : ∀ old ∈ tables.sessions, (isCurrent input row.id old = true ↔ old.id = row.id) := by
    intro old hold
    rw [isCurrent, Bool.and_eq_true, beq_iff_eq, beq_iff_eq]
    refine ⟨fun hboth => hboth.1, fun hid => ⟨hid, ?_⟩⟩
    rw [eq_of_key_eq h.ids hold hrow hid]
    exact hcurrent
  rw [mem_updateWhere]
  constructor
  · rintro ⟨old, hold, rfl⟩
    by_cases hid : old.id = row.id
    · rw [if_pos ((hiff old hold).mpr hid), eq_of_key_eq h.ids hold hrow hid]
      exact .inr rfl
    · rw [if_neg (fun htrue => hid ((hiff old hold).mp htrue))]
      exact .inl ⟨hold, hid⟩
  · rintro (⟨hother, hid⟩ | rfl)
    · exact ⟨other, hother, if_neg fun htrue => hid ((hiff other hother).mp htrue)⟩
    · exact ⟨row, hrow, if_pos ((hiff row hrow).mpr rfl)⟩

/-- The presented hash, which was current, is not among the ancestors. -/
theorem current_not_ancestor : ∀ ancestor ∈ tables.ancestors, ancestor.hash ≠ input.hash := by
  intro ancestor hancestor hhash
  obtain ⟨hroot, other, hother, hid, hdepth⟩ := h.chain ancestor hancestor
  have hsame : other.id = row.id := by rw [hid, ← hroot, hhash, ← hcurrent, h.root row hrow]
  obtain rfl : other = row := eq_of_key_eq h.ids hother hrow hsame
  rw [hhash, hcurrent] at hdepth
  omega

/-- A rotation, once the other sessions of the user are trimmed. -/
theorem rotateTrimmed (hnow : now ≤ tables.clock) (hlive : tables.clock < row.expiresAt)
    (hthrottle : rotationThrottleMs config order tables.ancestors row.id now = 0) : TablesInv config { tables with
      ancestors := retireRefreshHash order tables.ancestors
        { hash := input.hash, sessionId := row.id, retiredAt := now } config.retainedAncestors
      sessions := updateWhere tables.sessions (isCurrent input row.id) (rotateRow config input now)
      retirements := { hash := input.hash, sessionId := row.id, retiredAt := now } :: tables.retirements } := by
  set retired : AncestorRow := { hash := input.hash, sessionId := row.id, retiredAt := now } with hretired
  have hfresh : ∀ ancestor ∈ tables.ancestors, ancestor.hash ≠ retired.hash := h.current_not_ancestor hrow hcurrent
  have hrotated : rotateRow config input now row ∈
      updateWhere tables.sessions (isCurrent input row.id) (rotateRow config input now) :=
    (h.mem_updateCurrent hrow hcurrent).mpr (.inr rfl)
  have hrows {p : SessionRow → Prop} (hall : ∀ other ∈ tables.sessions, p other)
      (hown : p (rotateRow config input now row)) :
      ∀ other ∈ updateWhere tables.sessions (isCurrent input row.id) (rotateRow config input now), p other := by
    intro other hother
    rcases (h.mem_updateCurrent hrow hcurrent).mp hother with ⟨hold, -⟩ | rfl
    · exact hall other hold
    · exact hown
  have hroot : input.hash.root = row.id := by rw [← hcurrent, h.root row hrow]
  refine ⟨?_, ?_, ?_, ?_, ?_, ?_, nodup_retireRefreshHash hfresh h.hashes, ?_, ?_, ?_, ?_, h.answered⟩
  · have hids : (updateWhere tables.sessions (isCurrent input row.id) (rotateRow config input now)).map
        SessionRow.id = tables.sessions.map SessionRow.id := map_key_updateWhere fun _ _ => rfl
    rw [hids]
    exact h.ids
  · exact hrows h.fresh (h.fresh row hrow)
  · exact hrows h.root hroot
  · exact hrows h.unrevoked (h.unrevoked row hrow)
  · refine hrows h.expiry ?_
    show min (now + config.idleMs) (row.createdAt + config.absoluteMs) ≤ row.createdAt + config.absoluteMs
    omega
  · intro ancestor hancestor
    obtain ⟨hmem, -⟩ := (mem_retireRefreshHash hfresh h.hashes).mp hancestor
    rcases mem_cons.mp hmem with rfl | hold
    · refine ⟨hroot, rotateRow config input now row, hrotated, rfl, ?_⟩
      show input.hash.depth < input.hash.depth + 1
      omega
    obtain ⟨hroot', other, hother, hid, hdepth⟩ := h.chain ancestor hold
    refine ⟨hroot', ?_⟩
    by_cases hsame : other.id = row.id
    · obtain rfl : other = row := eq_of_key_eq h.ids hother hrow hsame
      refine ⟨rotateRow config input now other, hrotated, hid, ?_⟩
      show ancestor.hash.depth < input.hash.depth + 1
      rw [hcurrent] at hdepth
      omega
    · exact ⟨other, (h.mem_updateCurrent hrow hcurrent).mpr (.inl ⟨hother, hsame⟩), hid, hdepth⟩
  · intro sessionId
    by_cases hsame : sessionId = row.id
    · rw [hsame]
      exact countP_retireRefreshHash_le hfresh h.hashes
    · rw [countP_eq_length_filter, filter_retireRefreshHash_other hsame, ← countP_eq_length_filter]
      exact h.kept sessionId
  · intro userId
    -- the rotated session was live before
    refine le_trans ?_ (h.live userId)
    rw [updateWhere, countP_map]
    refine countP_mono_left fun other hother hcounts => ?_
    simp only [Function.comp_apply] at hcounts
    split at hcounts
    · rename_i hcur
      rw [isCurrent, Bool.and_eq_true, beq_iff_eq] at hcur
      obtain rfl : other = row := eq_of_key_eq h.ids hother hrow hcur.1
      rw [Bool.and_eq_true] at hcounts ⊢
      refine ⟨hcounts.1, ?_⟩
      rw [SessionRow.live, h.unrevoked other hrow]
      simpa using hlive
    · exact hcounts
  · exact forall_mem_cons.mpr ⟨h.fresh row hrow, h.past⟩
  · intro other hother hyoung hsession
    have hyoung : tables.clock < other.retiredAt + config.ancestorMinimumAgeMs := hyoung
    have hmem : other ∈ retired :: tables.ancestors := by
      rcases mem_cons.mp hother with rfl | hold
      · exact mem_cons_self
      obtain ⟨later, hlater, hid⟩ := hsession
      refine mem_cons_of_mem _ (h.remembered other hold hyoung ?_)
      rcases (h.mem_updateCurrent hrow hcurrent).mp hlater with ⟨hbefore, -⟩ | rfl
      · exact ⟨later, hbefore, hid⟩
      · exact ⟨row, hrow, hid⟩
    by_contra hforgotten
    have hage := retireRefreshHash_forgets hfresh h.hashes (h.kept row.id) hthrottle hmem hforgotten
    have hretiredAt : retired.retiredAt = now := rfl
    omega

end

end

end

/-- The other sessions that a rotation trims do not matter to its throttle. -/
theorem throttle_deleteSessions {ids : List Nat} (hkept : row.id ∉ ids) :
    rotationThrottleMs config order (tables.deleteSessions ids).ancestors row.id now =
      rotationThrottleMs config order tables.ancestors row.id now := by
  have hsame : newestAncestors order (tables.deleteSessions ids).ancestors row.id =
      newestAncestors order tables.ancestors row.id := by
    rw [newestAncestors, newestAncestors, filter_deleteSessions_ancestors hkept]
  rw [rotationThrottleMs, hsame, rotationThrottleMs]

theorem not_mem_overflow {keepCount : Nat} (h : ∀ id ∈ active, id ≠ sessionId) :
    sessionId ∉ overflow active keepCount :=
  fun hmem => h sessionId (mem_of_mem_take hmem) rfl

theorem rotate (h : TablesInv config tables) (hrow : row ∈ tables.sessions) (hcurrent : row.hash = input.hash)
    (hnow : now ≤ tables.clock) (hlive : tables.clock < row.expiresAt)
    (hthrottle : rotationThrottleMs config order tables.ancestors row.id now = 0)
    (hactive : ∀ id ∈ active, id ≠ row.id) :
    TablesInv config (tables.rotate config order input row now active) := by
  have hkept : row.id ∉ overflow active (config.maximumSessions - 1) := not_mem_overflow hactive
  refine (h.deleteSessions _).rotateTrimmed (mem_deleteSessions.mpr ⟨hrow, hkept⟩) hcurrent hnow hlive ?_
  rw [throttle_deleteSessions hkept]
  exact hthrottle

end TablesInv

end Nyabase.Backend
