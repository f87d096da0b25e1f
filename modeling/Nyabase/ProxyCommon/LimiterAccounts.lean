import Nyabase.Lib.Transition
import Nyabase.ProxyCommon.ConnLimit

/-!
# The limiter's accounts

`Accounts` says what the limiter's cells are in terms of the live permits' clients and the live pending slots
alone.  Every operation of the limiter keeps it, without an underflow.
-/

namespace Nyabase.ProxyCommon

open Lib List Option AssocList

/-- Ids are handed out in order, so a queue grows younger from front to back. -/
def OldestFirst (queue : List PendingSlot) : Prop := (queue.map PendingSlot.id).Pairwise (· < ·)

/-- The cells of the limiter, for the clients of the live permits and the live slots. -/
structure Accounts (settings : LimitSettings) (limiter : ConnectionLimiter) (buckets : List ClientBucket)
    (slots : List PendingSlot) : Prop where
  unchanged : limiter.settings = settings
  clients : IsTally settings.perClient limiter.counts.clients buckets
  sites : IsTally settings.perSite limiter.counts.sites (buckets.filterMap ClientBucket.site)
  global : limiter.available + buckets.length = settings.global
  queues : QueueMap.WellKeyed PendingSlot.source limiter.counts.pendingSources
  queued : (QueueMap.items limiter.counts.pendingSources).Perm
    (slots.filter fun slot => decide (slot.id ∉ limiter.evicted))
  total : limiter.counts.pendingTotal = (QueueMap.items limiter.counts.pendingSources).length
  pending : limiter.counts.pendingTotal ≤ settings.pending
  /-- every queue has its oldest slot first -/
  aged : ∀ entry ∈ limiter.counts.pendingSources, OldestFirst entry.2
  ids : (slots.map PendingSlot.id).Nodup
  idsBelow : ∀ slot ∈ slots, slot.id < limiter.nextPendingId
  evictedBelow : ∀ id ∈ limiter.evicted, id < limiter.nextPendingId

/-- The try of `ip` evicted the oldest slot of a heaviest source, which still holds no fewer slots than the
newcomer's source. -/
def ConnectionLimiter.Evicts (limiter : ConnectionLimiter) (ip : IpAddr) (next : ConnectionLimiter) : Prop :=
  ∃ victim rest, next.evicted = victim.id :: limiter.evicted ∧
    limiter.counts.pendingSources.lookup victim.source = some (victim :: rest) ∧
    (∀ slot ∈ rest, victim.id < slot.id) ∧
    (∀ source, QueueMap.held limiter.counts.pendingSources source ≤ rest.length + 1) ∧
    QueueMap.held next.counts.pendingSources (ClientBucket.of ip).pendingSource ≤
      QueueMap.held next.counts.pendingSources victim.source

namespace Accounts

variable {settings : LimitSettings} {limiter : ConnectionLimiter} {buckets : List ClientBucket}
  {slots : List PendingSlot}

theorem new (settings : LimitSettings) : Accounts settings (.new settings) [] [] where
  unchanged := rfl
  clients := .nil
  sites := .nil
  global := rfl
  queues := .nil
  queued := .refl _
  total := rfl
  pending := Nat.zero_le _
  aged := by simp [ConnectionLimiter.new]
  ids := nodup_nil
  idsBelow := by simp
  evictedBelow := by simp [ConnectionLimiter.new]

section

variable (h : Accounts settings limiter buckets slots)

include h

/-- The order of the live permits and slots does not matter. -/
theorem perm {others : List ClientBucket} {otherSlots : List PendingSlot} (hbuckets : buckets.Perm others)
    (hslots : slots.Perm otherSlots) : Accounts settings limiter others otherSlots := { h with
  clients := h.clients.perm hbuckets
  sites := h.sites.perm (hbuckets.filterMap ClientBucket.site)
  global := hbuckets.length_eq ▸ h.global
  queued := h.queued.trans (hslots.filter _)
  ids := (hslots.map _).nodup_iff.mp h.ids
  idsBelow := fun slot hslot => h.idsBelow slot (hslots.mem_iff.mpr hslot) }

variable {slot : PendingSlot}

/-- Two live slots with one id are one slot. -/
theorem eq_of_id {other : PendingSlot} (hslot : slot ∈ slots)
    (hother : other ∈ slots) (hid : slot.id = other.id) : slot = other :=
  inj_on_of_nodup_map h.ids hslot hother hid

theorem mem_queued :
    slot ∈ QueueMap.items limiter.counts.pendingSources ↔ slot ∈ slots ∧ slot.id ∉ limiter.evicted := by
  rw [h.queued.mem_iff, mem_filter, decide_eq_true_eq]

/-! ## Releasing a pending slot -/

/-- An evicted slot is not queued any more, so its release finds nothing. -/
theorem releasePending_evicted (hevicted : slot.id ∈ limiter.evicted) :
    limiter.releasePending slot = some limiter := by
  unfold ConnectionLimiter.releasePending
  cases hqueue : limiter.counts.pendingSources.lookup slot.source with
  | none => rfl
  | some queue =>
    have hnone : queue.findIdx? (fun queued => queued.id == slot.id) = none := by
      rw [List.findIdx?_eq_none_iff]
      intro queued hqueued
      rw [beq_eq_false_iff_ne]
      intro hid
      have hitem : queued ∈ QueueMap.items limiter.counts.pendingSources :=
        mem_flatMap.mpr ⟨_, mem_of_lookup hqueue, hqueued⟩
      exact (h.mem_queued.mp hitem).2 (hid ▸ hevicted)
    simp [hnone]

end

/-- Dropping a live slot takes it out of the account, whether or not it was evicted before. -/
theorem releasePending (h : Accounts settings limiter buckets (slot :: slots)) :
    ∃ next, limiter.releasePending slot = some next ∧ Accounts settings next buckets slots := by
  have hids := nodup_cons.mp h.ids
  by_cases hevicted : slot.id ∈ limiter.evicted
  · refine ⟨limiter, h.releasePending_evicted hevicted, ?_⟩
    have hqueued := h.queued
    rw [filter_cons_of_neg (by simpa using hevicted)] at hqueued
    exact { h with
      queued := hqueued
      ids := hids.2
      idsBelow := fun other hother => h.idsBelow other (mem_cons_of_mem slot hother) }
  · have hitem : slot ∈ QueueMap.items limiter.counts.pendingSources :=
      h.mem_queued.mpr ⟨mem_cons_self, hevicted⟩
    obtain ⟨queue, hlookup, hmem⟩ := h.queues.lookup_of_mem_items hitem
    -- the first slot of the queue with this id is this slot
    obtain ⟨index, hindex⟩ : ∃ index, queue.findIdx? (fun queued => queued.id == slot.id) = some index := by
      rw [← Option.isSome_iff_exists, List.findIdx?_isSome, List.any_eq_true]
      exact ⟨slot, hmem, beq_self_eq_true _⟩
    obtain ⟨hlt, hid, -⟩ := List.findIdx?_eq_some_iff_getElem.mp hindex
    have hsame : queue[index] = slot := by
      have hqueued : queue[index] ∈ QueueMap.items limiter.counts.pendingSources :=
        mem_flatMap.mpr ⟨_, mem_of_lookup hlookup, getElem_mem hlt⟩
      exact h.eq_of_id (h.mem_queued.mp hqueued).1 mem_cons_self (beq_iff_eq.mp hid)
    have hperm : queue.Perm (slot :: queue.eraseIdx index) := by
      have hcons := getElem_cons_eraseIdx_perm hlt
      rw [hsame] at hcons
      exact hcons.symm
    obtain ⟨hkeyed, hitems⟩ := h.queues.put_erased hlookup hperm
    generalize hsources : QueueMap.put slot.source (queue.eraseIdx index) limiter.counts.pendingSources = sources
      at hkeyed hitems
    have hlength := hitems.length_eq
    rw [length_cons, ← h.total] at hlength
    refine ⟨{ limiter with
      counts :=
        { limiter.counts with pendingSources := sources, pendingTotal := (QueueMap.items sources).length } }, ?_, ?_⟩
    · simp [ConnectionLimiter.releasePending, hlookup, hindex, hlength, checkedPred, hsources]
    have hqueued := h.queued
    rw [filter_cons_of_pos (by simpa using hevicted)] at hqueued
    exact { h with
      queues := hkeyed
      queued := (hitems.symm.trans hqueued).cons_inv
      total := rfl
      pending := by
        have hle := h.pending
        show (QueueMap.items _).length ≤ _
        omega
      aged := by
        have hqueue := h.aged _ (mem_of_lookup hlookup)
        subst hsources
        exact QueueMap.each_put h.aged _ (hqueue.sublist ((eraseIdx_sublist queue index).map PendingSlot.id))
      ids := hids.2
      idsBelow := fun other hother => h.idsBelow other (mem_cons_of_mem slot hother) }

theorem dropSlot {slot : Option PendingSlot} (h : Accounts settings limiter buckets (slot.toList ++ slots)) :
    ∃ next, limiter.dropSlot slot = some next ∧ Accounts settings next buckets slots := by
  cases slot with
  | none => exact ⟨limiter, rfl, h⟩
  | some slot => exact h.releasePending

/-! ## Dropping a permit -/

theorem release {bucket : ClientBucket} (h : Accounts settings limiter (bucket :: buckets) slots) :
    ∃ next, limiter.release bucket = some next ∧
      Accounts settings { next with available := next.available + 1 } buckets slots := by
  obtain ⟨clients, hclients, htally⟩ := h.clients.decrement
  have hglobal : limiter.available + 1 + buckets.length = settings.global := by
    have hlength := h.global
    rw [length_cons] at hlength
    omega
  have hsites := h.sites
  obtain ⟨sites, hrelease, hnext⟩ : ∃ sites, limiter.release bucket =
      some { limiter with counts := { limiter.counts with clients := clients, sites := sites } } ∧
        IsTally settings.perSite sites (buckets.filterMap ClientBucket.site) := by
    simp only [ConnectionLimiter.release, hclients, bind_eq_bind, bind_some]
    cases hsite : bucket.site with
    | none =>
      rw [filterMap_cons_none hsite] at hsites
      exact ⟨_, rfl, hsites⟩
    | some site =>
      rw [filterMap_cons_some hsite] at hsites
      obtain ⟨sites, hdecrement, hnext⟩ := hsites.decrement
      exact ⟨sites, by simp only [hdecrement, bind_some], hnext⟩
  exact ⟨_, hrelease, { h with clients := htally, sites := hnext, global := hglobal }⟩

theorem dropPermit {permit : ConnectionPermit}
    (h : Accounts settings limiter (permit.bucket :: buckets) (permit.pending.toList ++ slots)) :
    ∃ next, limiter.dropPermit permit = some next ∧ Accounts settings next buckets slots := by
  obtain ⟨middle, hslot, hmiddle⟩ := h.dropSlot
  obtain ⟨next, hrelease, hnext⟩ := hmiddle.release
  refine ⟨{ next with available := next.available + 1 }, ?_, hnext⟩
  simp [ConnectionLimiter.dropPermit, hslot, hrelease]

/-! ## Acquiring a permit -/

theorem heaviest_eq_none {entries : List (PendingSource × Nat)} {best : Option (PendingSource × Nat)}
    (h : heaviest entries best = none) : entries = [] ∧ best = none := by
  fun_induction heaviest entries best with
  | case1 => exact ⟨rfl, h⟩
  | case2 entry rest ih => cases (ih h).2
  | case3 entry rest best ih => exact absurd (ih h).2 (by split <;> nofun)

theorem heaviest_spec {entries : List (PendingSource × Nat)} {best : Option (PendingSource × Nat)}
    {found : PendingSource × Nat} (h : heaviest entries best = some found) :
    found ∈ best.toList ++ entries ∧ ∀ entry ∈ best.toList ++ entries, entry.2 ≤ found.2 := by
  fun_induction heaviest entries best with
  | case1 best => simp [h]
  | case2 entry rest ih => exact ih h
  | case3 entry rest best ih =>
    -- the scan goes on with the heavier of the two
    by_cases hle : best.2 ≤ entry.2
    · rw [if_pos hle] at ih h
      obtain ⟨hfound, hmost⟩ := ih h
      exact ⟨mem_cons_of_mem best hfound, forall_mem_cons.mpr ⟨hle.trans (hmost entry mem_cons_self), hmost⟩⟩
    · rw [if_neg hle] at ih h
      obtain ⟨hfound, hmost⟩ := ih h
      obtain ⟨hbest, hrest⟩ := forall_mem_cons.mp hmost
      refine ⟨?_, forall_mem_cons.mpr ⟨hbest, forall_mem_cons.mpr ⟨by omega, hrest⟩⟩⟩
      rcases mem_cons.mp hfound with rfl | hfound
      · exact mem_cons_self
      · exact mem_cons_of_mem best (mem_cons_of_mem entry hfound)

section

variable (h : Accounts settings limiter buckets slots)

include h

/-- Either nobody is heavy enough and nothing changes, or the oldest slot of a heaviest queue leaves it. -/
theorem heaviestVictim_cases (newcomer : Nat) : heaviestVictim limiter.counts newcomer = (none, limiter.counts) ∧
        (∀ source, QueueMap.held limiter.counts.pendingSources source ≤ newcomer + 1) ∨
      ∃ victim rest, heaviestVictim limiter.counts newcomer = (some victim, { limiter.counts with
          pendingSources := QueueMap.put victim.source rest limiter.counts.pendingSources }) ∧
        limiter.counts.pendingSources.lookup victim.source = some (victim :: rest) ∧
        newcomer < rest.length ∧
        ∀ source, QueueMap.held limiter.counts.pendingSources source ≤ rest.length + 1 := by
  cases hheavy : heaviest (limiter.counts.pendingSources.map fun entry => (entry.1, entry.2.length)) none with
  | none =>
    left
    have hnil := map_eq_nil_iff.mp (heaviest_eq_none hheavy).1
    simp [heaviestVictim, heaviest, hnil, QueueMap.held]
  | some found =>
    obtain ⟨source, held⟩ := found
    obtain ⟨hmem, hmost⟩ := heaviest_spec hheavy
    have hheld : ∀ other, QueueMap.held limiter.counts.pendingSources other ≤ held :=
      QueueMap.held_le fun entry hentry => hmost (entry.1, entry.2.length) (mem_map_of_mem hentry)
    by_cases hlight : held ≤ newcomer + 1
    · left
      refine ⟨by simp only [heaviestVictim, hheavy, hlight, if_true], fun other => (hheld other).trans hlight⟩
    right
    obtain ⟨⟨key, queue⟩, hentry, heq⟩ := mem_map.mp hmem
    obtain ⟨rfl, rfl⟩ := Prod.mk.inj heq
    have hlookup := lookup_of_mem h.queues.keys hentry
    cases queue with
    | nil => exact absurd rfl (h.queues.nonempty _ hentry)
    | cons victim rest =>
      obtain rfl : victim.source = key := h.queues.keyed_of_lookup hlookup victim mem_cons_self
      refine ⟨victim, rest, ?_, hlookup, ?_, hheld⟩
      · simp only [heaviestVictim, hheavy, hlight, if_false, hlookup, List.head?_cons, tail_cons]
      · rw [length_cons] at hlight
        omega

/-- The account while a newcomer is let in: one place of the semaphore is taken for it. -/
theorem enter {bucket : ClientBucket}
    (hroom : 0 < limiter.available) (hclient : buckets.count bucket < settings.perClient)
    (hsite : ∀ site, bucket.site = some site → (buckets.filterMap ClientBucket.site).count site < settings.perSite)
    (hpending : limiter.counts.pendingTotal < settings.pending) :
    Accounts settings (({ limiter with available := limiter.available - 1 } : ConnectionLimiter).enter bucket).1
      (bucket :: buckets) (⟨limiter.nextPendingId, bucket⟩ :: slots) := by
  have hnew : limiter.nextPendingId ∉ limiter.evicted := by
    intro hmem
    have hlt := h.evictedBelow _ hmem
    omega
  obtain ⟨hkeyed, hitems⟩ := @QueueMap.WellKeyed.pushBack _ _ _ _ _ h.queues ⟨limiter.nextPendingId, bucket⟩
  constructor
  case unchanged => exact h.unchanged
  case clients => exact h.clients.increment hclient
  case sites =>
    cases hsome : bucket.site with
    | none =>
      simp only [ConnectionLimiter.enter, hsome, filterMap_cons_none hsome]
      exact h.sites
    | some site =>
      simp only [ConnectionLimiter.enter, hsome, filterMap_cons_some hsome]
      exact h.sites.increment (hsite site hsome)
  case global =>
    have hglobal := h.global
    show limiter.available - 1 + (buckets.length + 1) = settings.global
    omega
  case queues => exact hkeyed
  case queued =>
    have hkeep : (⟨limiter.nextPendingId, bucket⟩ :: slots).filter (fun slot => decide (slot.id ∉ limiter.evicted)) =
        ⟨limiter.nextPendingId, bucket⟩ :: slots.filter fun slot => decide (slot.id ∉ limiter.evicted) :=
      filter_cons_of_pos (by simpa using hnew)
    exact hitems.trans (hkeep ▸ h.queued.cons _)
  case total =>
    have hlength := hitems.length_eq
    show limiter.counts.pendingTotal + 1 = _
    rw [h.total]
    exact hlength.symm
  case pending =>
    show limiter.counts.pendingTotal + 1 ≤ settings.pending
    omega
  case aged =>
    apply QueueMap.each_set h.aged
    cases hlookup : limiter.counts.pendingSources.lookup bucket.pendingSource with
    | none => simp [OldestFirst]
    | some queue =>
      have hqueue := mem_of_lookup hlookup
      unfold OldestFirst
      -- the newcomer's id is above every id handed out so far
      rw [getD_some, map_append, pairwise_append]
      refine ⟨h.aged _ hqueue, by simp, ?_⟩
      intro id hid new hnew
      obtain ⟨slot, hslot, rfl⟩ := mem_map.mp hid
      obtain rfl : new = limiter.nextPendingId := by simpa using hnew
      exact h.idsBelow slot (h.mem_queued.mp (mem_flatMap.mpr ⟨_, hqueue, hslot⟩)).1
  case ids =>
    rw [map_cons, nodup_cons]
    refine ⟨?_, h.ids⟩
    intro hmem
    obtain ⟨slot, hslot, hid⟩ := mem_map.mp hmem
    have hlt := h.idsBelow slot hslot
    have hsame : slot.id = limiter.nextPendingId := hid
    omega
  case idsBelow =>
    intro slot hslot
    show slot.id < limiter.nextPendingId + 1
    rcases mem_cons.mp hslot with rfl | hold
    · exact Nat.lt_succ_self _
    · have hlt := h.idsBelow slot hold
      omega
  case evictedBelow =>
    intro id hid
    have hlt := h.evictedBelow id hid
    show id < limiter.nextPendingId + 1
    omega

/-- Evicting the oldest slot of a queue takes it out of the queues; its holder still has it. -/
theorem evict {victim : PendingSlot} {rest : List PendingSlot}
    (hlookup : limiter.counts.pendingSources.lookup victim.source = some (victim :: rest)) :
    ∃ total, limiter.counts.pendingTotal = total + 1 ∧ Accounts settings { limiter with
      counts := { limiter.counts with
        pendingSources := QueueMap.put victim.source rest limiter.counts.pendingSources
        pendingTotal := total }
      evicted := victim.id :: limiter.evicted
      evictedTotal := limiter.evictedTotal + 1 } buckets slots := by
  obtain ⟨hkeyed, hitems⟩ := h.queues.put_erased hlookup (Perm.refl _)
  have haged := QueueMap.each_put h.aged victim.source (pairwise_cons.mp (h.aged _ (mem_of_lookup hlookup))).2
  generalize QueueMap.put victim.source rest limiter.counts.pendingSources = sources at hkeyed hitems haged
  have hlength := hitems.length_eq
  rw [length_cons, ← h.total] at hlength
  obtain ⟨hvictim, hnot⟩ := h.mem_queued.mp (hitems.mem_iff.mpr mem_cons_self)
  refine ⟨(QueueMap.items sources).length, hlength, ?_⟩
  have hslots : slots.Nodup := h.ids.of_map
  have hnodup := nodup_cons.mp (hitems.nodup_iff.mp (h.queued.nodup_iff.mpr (hslots.filter _)))
  exact { h with
    queues := hkeyed
    queued := by
      rw [perm_ext_iff_of_nodup hnodup.2 (hslots.filter _)]
      intro slot
      have hmem : slot ∈ slots ∧ slot.id ∉ limiter.evicted ↔ slot = victim ∨ slot ∈ QueueMap.items sources := by
        rw [← h.mem_queued, hitems.mem_iff, mem_cons]
      rw [mem_filter, decide_eq_true_eq, mem_cons, not_or]
      constructor
      · intro hslot
        obtain ⟨hlive, hkept⟩ := hmem.mpr (.inr hslot)
        refine ⟨hlive, ?_, hkept⟩
        -- among the live slots only the victim has its id
        intro hid
        exact hnodup.1 (h.eq_of_id hlive hvictim hid ▸ hslot)
      · rintro ⟨hlive, hother, hkept⟩
        rcases hmem.mp ⟨hlive, hkept⟩ with rfl | hslot
        · exact absurd rfl hother
        · exact hslot
    total := rfl
    pending := by
      have hle := h.pending
      show (QueueMap.items sources).length ≤ settings.pending
      omega
    aged := haged
    evictedBelow := by
      intro id hid
      rcases mem_cons.mp hid with rfl | hold
      · exact h.idsBelow victim hvictim
      · exact h.evictedBelow id hold }

/-- A try either is refused and changes nothing, or counts the newcomer.  A full pool refuses a newcomer only while
no source holds two slots more than the newcomer's, and otherwise evicts the oldest slot of a heaviest source. -/
theorem tryAcquire (ip : IpAddr) : (∃ reason, limiter.tryAcquire ip = some (limiter, .error reason) ∧
        (reason = .pending → settings.pending ≤ limiter.counts.pendingTotal ∧
          ∀ source, QueueMap.held limiter.counts.pendingSources source ≤
            QueueMap.held limiter.counts.pendingSources (ClientBucket.of ip).pendingSource + 1)) ∨
      ∃ next permit, limiter.tryAcquire ip = some (next, .ok permit) ∧
        Accounts settings next (permit.bucket :: buckets) (permit.pending.toList ++ slots) ∧
        (next.evicted = limiter.evicted ∨ limiter.Evicts ip next) := by
  obtain rfl := h.unchanged
  unfold ConnectionLimiter.tryAcquire
  simp only [h.clients.counted, h.sites.counted]
  unfold ConnectionLimiter.Evicts
  generalize ClientBucket.of ip = bucket
  by_cases hclient : limiter.settings.perClient ≤ buckets.count bucket
  · exact .inl ⟨.perClient, by rw [if_pos hclient], by simp⟩
  by_cases hsite : (bucket.site.any fun site =>
      decide (limiter.settings.perSite ≤ (buckets.filterMap ClientBucket.site).count site)) = true
  · exact .inl ⟨.perSite, by rw [if_neg hclient, if_pos hsite], by simp⟩
  have hsiteRoom : ∀ site, bucket.site = some site →
      (buckets.filterMap ClientBucket.site).count site < limiter.settings.perSite := by
    intro site hsome
    rw [hsome, any_some, decide_eq_true_eq] at hsite
    omega
  rw [if_neg hclient, if_neg hsite]
  cases hsem : limiter.available with
  | zero => exact .inl ⟨.global, rfl, by simp⟩
  | succ available =>
    have hroom : 0 < limiter.available := by omega
    have htaken : available = limiter.available - 1 := by omega
    simp only [checkedPred]
    by_cases hfull : limiter.settings.pending ≤ limiter.counts.pendingTotal
    · rw [if_pos hfull]
      rcases h.heaviestVictim_cases (QueueMap.held limiter.counts.pendingSources bucket.pendingSource) with
        ⟨hnone, hlight⟩ | ⟨victim, rest, hvictim, hlookup, hheavy, hmost⟩
      · left
        refine ⟨.pending, ?_, fun _ => ⟨hfull, hlight⟩⟩
        simp only [QueueMap.held] at hnone
        simp [hnone, ← hsem]
      · right
        obtain ⟨total, htotal, hnext⟩ := h.evict hlookup
        have hpending := h.pending
        have hless : total < limiter.settings.pending := by omega
        have hentered := hnext.enter hroom (Nat.lt_of_not_le hclient) hsiteRoom hless
        refine ⟨_, { bucket := bucket, pending := some ⟨limiter.nextPendingId, bucket⟩ }, ?_, hentered, .inr ?_⟩
        · simp only [QueueMap.held] at hvictim
          simp only [hvictim, ConnectionLimiter.evict, htotal, checkedPred, map_some, htaken]
          rfl
        refine ⟨victim, rest, rfl, hlookup, ?_, hmost, ?_⟩
        · have haged := pairwise_cons.mp (h.aged _ (mem_of_lookup hlookup))
          exact fun slot hslot => haged.1 slot.id (mem_map_of_mem hslot)
        -- the newcomer's source held fewer slots than are left to the victim's
        have hother : bucket.pendingSource ≠ victim.source := by
          intro hsame
          simp only [hsame, QueueMap.held, hlookup, map_some, getD_some, length_cons] at hheavy
          omega
        simp only [ConnectionLimiter.enter, QueueMap.held_pushBack, QueueMap.held_put, if_neg hother,
          if_neg (Ne.symm hother), if_true]
        omega
    · right
      rw [if_neg hfull, htaken]
      exact ⟨_, _, rfl, h.enter hroom (Nat.lt_of_not_le hclient) hsiteRoom (Nat.lt_of_not_le hfull), .inl rfl⟩

end

end Accounts

/-! ## Runs -/

namespace LimitWorld

/-- The account is that of the live permits and slots. -/
def Balanced (settings : LimitSettings) (world : LimitWorld) : Prop :=
  Accounts settings world.limiter (world.permits.map ConnectionPermit.bucket) world.liveSlots

variable {settings : LimitSettings} {world : LimitWorld}

variable {index : Nat} {permit : ConnectionPermit}

/-- The clients and the slots of the permits, with one permit taken out in front. -/
theorem permits_perm {permits : List ConnectionPermit} (hpermit : permits[index]? = some permit) :
    permits.Perm (permit :: permits.eraseIdx index) := by
  obtain ⟨hlt, rfl⟩ := List.getElem?_eq_some_iff.mp hpermit
  exact (getElem_cons_eraseIdx_perm hlt).symm

theorem liveSlots_perm (hpermit : world.permits[index]? = some permit) : world.liveSlots.Perm
      (permit.pending.toList ++
        ((world.permits.eraseIdx index).filterMap ConnectionPermit.pending ++ world.moved)) := by
  have hslots := (permits_perm hpermit).filterMap ConnectionPermit.pending
  rw [← append_assoc]
  refine List.Perm.append_right world.moved (hslots.trans ?_)
  cases hpending : permit.pending with
  | none => rw [filterMap_cons_none hpending]; rfl
  | some slot => rw [filterMap_cons_some hpending]; rfl

theorem slots_set {permits : List ConnectionPermit} (hpermit : permits[index]? = some permit) :
    ((permits.set index { permit with pending := none }).map ConnectionPermit.bucket).Perm
        (permits.map ConnectionPermit.bucket) ∧
      ((permits.set index { permit with pending := none }).filterMap ConnectionPermit.pending).Perm
        ((permits.eraseIdx index).filterMap ConnectionPermit.pending) := by
  obtain ⟨hlt, -⟩ := List.getElem?_eq_some_iff.mp hpermit
  have hset := set_perm_cons_eraseIdx hlt ({ permit with pending := none } : ConnectionPermit)
  constructor
  · exact (hset.map ConnectionPermit.bucket).trans ((permits_perm hpermit).map ConnectionPermit.bucket).symm
  · exact hset.filterMap ConnectionPermit.pending

/-- Every call keeps the balance, and none underflows. -/
theorem Balanced.step (h : Balanced settings world) (call : LimitCall) :
    ∃ next, world.step call = some next ∧ Balanced settings next := by
  fun_cases LimitWorld.step world call with
  | case1 ip =>
    rcases Accounts.tryAcquire h ip with ⟨reason, hrefused, -⟩ | ⟨limiter, permit, htaken, hnext, -⟩
    · exact ⟨world, by simp only [hrefused, map_some], h⟩
    simp only [htaken, map_some, some.injEq, exists_eq_left']
    refine Accounts.perm hnext (Perm.refl _) ?_
    show (permit.pending.toList ++ (_ ++ _)).Perm ((permit :: world.permits).filterMap _ ++ world.moved)
    cases hpending : permit.pending with
    | none => rw [filterMap_cons_none hpending]; rfl
    | some slot => rw [filterMap_cons_some hpending]; rfl
  | case3 index permit hpermit =>
    obtain ⟨limiter, hdrop, hnext⟩ := (Accounts.perm h (Perm.refl _) (liveSlots_perm hpermit)).dropSlot
    obtain ⟨hbuckets, hslots⟩ := slots_set hpermit
    simp only [hdrop, map_some, some.injEq, exists_eq_left']
    exact hnext.perm hbuckets.symm (hslots.symm.append_right world.moved)
  | case5 index permit hpermit =>
    obtain ⟨hbuckets, hslots⟩ := slots_set hpermit
    simp only [some.injEq, exists_eq_left']
    refine Accounts.perm h hbuckets.symm ((liveSlots_perm hpermit).trans ?_)
    refine perm_append_comm_assoc .. |>.trans ?_
    exact hslots.symm.append_right _
  | case7 index slot hslot =>
    obtain ⟨hlt, rfl⟩ := List.getElem?_eq_some_iff.mp hslot
    have hmoved := (getElem_cons_eraseIdx_perm hlt).symm
    obtain ⟨limiter, hdrop, hnext⟩ := (Accounts.perm h (Perm.refl _)
      ((hmoved.append_left _).trans perm_middle)).releasePending
    simp only [hdrop, map_some, some.injEq, exists_eq_left']
    exact hnext
  | case9 index permit hpermit =>
    obtain ⟨limiter, hdrop, hnext⟩ :=
      (Accounts.perm h ((permits_perm hpermit).map ConnectionPermit.bucket) (liveSlots_perm hpermit)).dropPermit
    simp only [hdrop, map_some, some.injEq, exists_eq_left']
    exact hnext
  | case10 order hperm =>
    have hitems := hperm.flatMap_right Prod.snd
    exact ⟨_, rfl, { h with
      queues := h.queues.perm hperm.symm
      queued := hitems.trans h.queued
      total := h.total.trans hitems.length_eq.symm
      aged := fun entry hentry => h.aged entry (hperm.mem_iff.mp hentry) }⟩
  | _ => exact ⟨world, rfl, h⟩

end LimitWorld

/-- The limiter's accounting in one state. -/
structure LimitWorld.Accounted (settings : LimitSettings) (world : LimitWorld) : Prop where
  clients : ∀ bucket, (world.limiter.counts.clients.lookup bucket).getD 0 =
    (world.permits.map ConnectionPermit.bucket).count bucket
  perClient : ∀ bucket, (world.permits.map ConnectionPermit.bucket).count bucket ≤ settings.perClient
  sites : ∀ site, (world.limiter.counts.sites.lookup site).getD 0 =
    ((world.permits.map ConnectionPermit.bucket).filterMap ClientBucket.site).count site
  perSite : ∀ site,
    ((world.permits.map ConnectionPermit.bucket).filterMap ClientBucket.site).count site ≤ settings.perSite
  /-- what the semaphore gave out is the live permits -/
  global : world.limiter.available + world.permits.length = settings.global
  queued : world.limiter.counts.pendingTotal = (world.limiter.counts.pendingSources.map fun entry => entry.2.length).sum
  live : world.limiter.counts.pendingTotal = world.liveSlots.countP fun slot => decide (slot.id ∉ world.limiter.evicted)
  pending : world.limiter.counts.pendingTotal ≤ settings.pending
  noZero : (∀ entry ∈ world.limiter.counts.clients, entry.2 ≠ 0) ∧ (∀ entry ∈ world.limiter.counts.sites, entry.2 ≠ 0) ∧
    ∀ entry ∈ world.limiter.counts.pendingSources, entry.2 ≠ []
  /-- a slot that was evicted is not released again -/
  evictedOnce : ∀ slot ∈ world.liveSlots, slot.id ∈ world.limiter.evicted →
    world.limiter.releasePending slot = some world.limiter
  refused : ∀ ip next reason, world.limiter.tryAcquire ip = some (next, .error reason) → next = world.limiter

theorem LimitWorld.Balanced.accounted {settings : LimitSettings} {world : LimitWorld}
    (h : Balanced settings world) : Accounted settings world := by
  constructor
  case clients => exact h.clients.counted
  case perClient => exact h.clients.capped
  case sites => exact h.sites.counted
  case perSite => exact h.sites.capped
  case global =>
    have hglobal := h.global
    rwa [length_map] at hglobal
  case queued =>
    rw [h.total, QueueMap.items, length_flatMap]
  case live =>
    rw [h.total, h.queued.length_eq, countP_eq_length_filter]
  case pending => exact h.pending
  case noZero => exact ⟨h.clients.positive, h.sites.positive, h.queues.nonempty⟩
  case evictedOnce => exact fun slot _ hevicted => Accounts.releasePending_evicted h hevicted
  case refused =>
    intro ip next reason hrefused
    rcases Accounts.tryAcquire h ip with ⟨_, hsame, -⟩ | ⟨_, _, htaken, -⟩
    · rw [hsame] at hrefused
      exact (Prod.mk.inj (some.inj hrefused)).1.symm
    · rw [htaken] at hrefused
      cases hrefused

theorem LimitWorld.balanced_run (settings : LimitSettings) (calls : List LimitCall) :
    ∃ world, run LimitWorld.step (LimitWorld.init settings) calls = some world ∧ Balanced settings world := by
  have hinit : Balanced settings (LimitWorld.init settings) := Accounts.new settings
  exact run_total (fun _ call h => Balanced.step h call) hinit calls

/-- Whatever the callers do, no count underflows and the accounts are right. -/
theorem limiter_always_accounted (settings : LimitSettings) (calls : List LimitCall) :
    ∃ world, run LimitWorld.step (LimitWorld.init settings) calls = some world ∧
      LimitWorld.Accounted settings world := by
  obtain ⟨last, hlast, hbalanced⟩ := LimitWorld.balanced_run settings calls
  exact ⟨last, hlast, hbalanced.accounted⟩

/-! ## Fairness of the pending pool -/

/-- What a full pool does to the next client. -/
structure LimitWorld.Fair (settings : LimitSettings) (world : LimitWorld) : Prop where
  /-- a pool is kept against a client that holds nothing only by as many sources as there are slots -/
  refused : ∀ ip next, world.limiter.tryAcquire ip = some (next, .error .pending) →
    QueueMap.held world.limiter.counts.pendingSources (ClientBucket.of ip).pendingSource = 0 →
    (∀ source, QueueMap.held world.limiter.counts.pendingSources source ≤ 1) ∧
      (world.limiter.counts.pendingSources.map Prod.fst).Nodup ∧
      world.limiter.counts.pendingSources.length = settings.pending
  evicted : ∀ ip next permit, world.limiter.tryAcquire ip = some (next, .ok permit) →
    next.evicted ≠ world.limiter.evicted → world.limiter.Evicts ip next

theorem LimitWorld.Balanced.fair {settings : LimitSettings} {world : LimitWorld} (h : Balanced settings world) :
    Fair settings world := by
  constructor
  case refused =>
    intro ip next hrefused hnone
    rcases Accounts.tryAcquire h ip with ⟨reason, htry, hfull⟩ | ⟨_, _, htaken, -⟩
    · rw [htry] at hrefused
      obtain ⟨hpending, hlight⟩ := hfull (Except.error.inj (Prod.mk.inj (some.inj hrefused)).2)
      rw [hnone] at hlight
      refine ⟨hlight, h.queues.keys, ?_⟩
      have hones : ∀ entry ∈ world.limiter.counts.pendingSources, entry.2.length = 1 := by
        intro entry hentry
        have hheld := hlight entry.1
        rw [QueueMap.held, lookup_of_mem h.queues.keys hentry] at hheld
        have hsome := length_pos_iff.mpr (h.queues.nonempty entry hentry)
        exact Nat.le_antisymm hheld hsome
      have htotal := h.total
      rw [QueueMap.items, length_flatMap, map_congr_left hones, map_const', sum_replicate] at htotal
      have hbound := h.pending
      simp only [smul_eq_mul] at htotal
      omega
    · rw [htaken] at hrefused
      cases hrefused
  case evicted =>
    intro ip next permit htaken hevicted
    rcases Accounts.tryAcquire h ip with ⟨_, hrefused, -⟩ | ⟨_, _, htry, -, hcase⟩
    · rw [hrefused] at htaken
      cases htaken
    · rw [htry] at htaken
      cases htaken
      exact hcase.resolve_left hevicted

/-- In every reachable state a full pool is fair. -/
theorem pending_pool_fair (settings : LimitSettings) (calls : List LimitCall) :
    ∃ world, run LimitWorld.step (LimitWorld.init settings) calls = some world ∧ LimitWorld.Fair settings world := by
  obtain ⟨last, hlast, hbalanced⟩ := LimitWorld.balanced_run settings calls
  exact ⟨last, hlast, hbalanced.fair⟩

end Nyabase.ProxyCommon
