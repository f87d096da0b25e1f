import Nyabase.Backend.HttpBindings
import Mathlib.Logic.Relation

/-!
# What the transactions on bindings and pools do

Every committed transaction is a chain of changes to the tables: expired reservations go, a hostname is bound,
a binding gets another target, a binding goes with its hostname released, a pool comes, changes or goes.  What
the changes keep, the runs keep.

A rename is not among the changes.  The reservation of the new hostname carries the binding's id, which the
index on active reservations has once only, and then no reservation is left for the release of the old one.
-/

namespace Nyabase.Backend

open Common Lib List Except

/-- Neither domain lies under the other. -/
def WildcardDomain.Apart (domain other : WildcardDomain) : Prop :=
  ¬ Under '.' other.base domain.base ∧ ¬ Under '.' domain.base other.base

namespace HttpDb

variable {db next : HttpDb}

/-- The container and the port of a binding pass its constraints. -/
def Target (db : HttpDb) (containerId : Uuid) (targetPort : Nat) : Prop :=
  (∃ container ∈ db.containers, container.id = containerId) ∧ 1 ≤ targetPort ∧ targetPort ≤ 65535

/-! ## Statements -/

theorem onUniqueViolation_ok {α : Type} {answer : HttpError} {result : Except HttpError α} {value : α}
    (h : onUniqueViolation answer result = .ok value) : result = .ok value := by
  cases result with
  | ok other => exact h
  | error error => cases error <;> exact absurd h (by simp [onUniqueViolation])

theorem insertReservation_ok {row : ReservationRow} (h : db.insertReservation row = .ok next) :
    (∀ other ∈ db.reservations, other.hostname ≠ row.hostname) ∧ (∀ bindingId, row.activeBinding = some bindingId →
        ∀ other ∈ db.reservations, other.activeBinding ≠ some bindingId) ∧
      next = { db with reservations := db.reservations ++ [row] } := by
  unfold insertReservation at h
  simp only [ensure_bind_eq_ok] at h
  obtain ⟨hhostname, hindex, -, h⟩ := h
  refine ⟨?_, ?_, (ok.inj h).symm⟩
  · simpa using hhostname
  · intro bindingId hbinding other hother
    rw [hbinding, Option.isNone_some, Bool.false_or, all_eq_true] at hindex
    exact of_decide_eq_true (hindex other hother)

theorem checkBinding_iff {others : List BindingRow} {row : BindingRow} : db.checkBinding others row = .ok () ↔
    (∀ other ∈ others, other.id ≠ row.id) ∧ (∀ other ∈ others, other.hostname ≠ row.hostname) ∧
      (∃ pool ∈ db.pools, pool.id = row.domainPoolId) ∧ (∃ user ∈ db.users, user.id = row.ownerId) ∧
      db.Target row.containerId row.targetPort := by
  unfold checkBinding Target
  simp [ensure_bind_eq_ok, ensure_eq_ok]

variable {binding : BindingRow} {time : Nat} {hostname : Hostname} {clock : ReserveClock} {value : List Char}
  {id actorId : Uuid}

theorem not_heldBy_of_mem_drain {row : ReservationRow} (h : row ∈ (db.drain binding time).reservations) :
    row.heldBy binding = false := by
  obtain ⟨old, -, rfl⟩ := mem_updateWhere.mp h
  by_cases hheld : old.heldBy binding = true
  · rw [if_pos hheld]
    simp [ReservationRow.heldBy, ReservationRow.drained]
  · rw [if_neg hheld]
    exact eq_false_of_ne_true hheld

/-- The trigger finds nothing to do after a release. -/
theorem drain_drain (binding : BindingRow) (time later : Nat) :
    (db.drain binding time).drain binding later = db.drain binding time := by
  have hnone : ∀ row ∈ (db.drain binding time).reservations, ¬ row.heldBy binding = true :=
    fun row hrow => ne_true_of_eq_false (not_heldBy_of_mem_drain hrow)
  have hany := any_eq_false.mpr hnone
  have hupdate : updateWhere (db.drain binding time).reservations (·.heldBy binding) (·.drained later) =
      (db.drain binding time).reservations :=
    updateWhere_eq_self fun row hrow hheld => absurd hheld (hnone row hrow)
  generalize db.drain binding time = released at hany hupdate ⊢
  unfold drain
  rw [hupdate, hany]
  rfl

theorem releaseHostname_ok (h : db.releaseHostname binding time = .ok next) :
    db.reservations.countP (·.heldBy binding) = 1 ∧ next = db.drain binding time := by
  unfold releaseHostname at h
  simp only [ensure_bind_eq_ok, beq_iff_eq] at h
  exact ⟨h.1, (ok.inj h.2).symm⟩

/-! ## Hostnames and pools -/

theorem checkFree_ok {ownerId : Uuid} (h : db.checkFree hostname ownerId = .ok ()) :
    (∀ row ∈ db.bindings, row.hostname ≠ hostname) ∧ (∀ row ∈ db.reservations, row.hostname ≠ hostname) ∧
      db.reservations.length < maxHttpHostnameReservations ∧
      db.ownedReservations ownerId < maxHttpHostnameReservationsPerUser := by
  unfold checkFree at h
  simp only [ensure_bind_eq_ok, ensure_eq_ok, Bool.and_eq_true, all_eq_true, decide_eq_true_eq] at h
  obtain ⟨⟨hbindings, hreservations⟩, hcount, howned⟩ := h
  exact ⟨hbindings, hreservations, hcount, howned⟩

theorem reserveHostname_ok {ownerId bindingId : Uuid}
    (h : db.reserveHostname hostname ownerId bindingId clock = .ok next) :
    (db.collectExpired clock).checkFree hostname ownerId = .ok () ∧
      (∀ row ∈ (db.collectExpired clock).reservations, row.activeBinding ≠ some bindingId) ∧
      next = { db.collectExpired clock with reservations :=
          (db.collectExpired clock).reservations ++ [⟨hostname, ownerId, .active bindingId, 0⟩] } := by
  obtain ⟨⟨⟩, hfree, h⟩ := bind_eq_ok.mp h
  obtain ⟨-, hindex, rfl⟩ := insertReservation_ok (onUniqueViolation_ok h)
  exact ⟨hfree, hindex bindingId rfl, rfl⟩

/-- The new reservation has taken the binding's place in the index, so the old hostname has none. -/
theorem renameBinding_fails (hne : hostname ≠ binding.hostname) (clock : ReserveClock) (releasedAt : Nat)
    (result : HttpDb × Uuid) : db.renameBinding binding hostname clock releasedAt ≠ .ok result := by
  intro h
  obtain ⟨pool, -, h⟩ := bind_eq_ok.mp h
  obtain ⟨reserved, hreserved, h⟩ := bind_eq_ok.mp h
  obtain ⟨released, hreleased, -⟩ := bind_eq_ok.mp h
  obtain ⟨-, hindex, rfl⟩ := reserveHostname_ok hreserved
  obtain ⟨hcount, -⟩ := releaseHostname_ok hreleased
  have hzero : ∀ row ∈ (db.collectExpired clock).reservations ++
      [⟨hostname, binding.ownerId, .active binding.id, 0⟩], ¬ row.heldBy binding = true := by
    intro row hrow hheld
    simp only [ReservationRow.heldBy, decide_eq_true_eq] at hheld
    rcases mem_append.mp hrow with hold | hnew
    · apply hindex row hold
      rw [ReservationRow.activeBinding, hheld.2.2]
    · rw [mem_singleton.mp hnew] at hheld
      exact hne hheld.1
  rw [countP_eq_zero.mpr hzero] at hcount
  omega

theorem enabledPoolForHostname_ok {pool : DomainPoolRow} (h : db.enabledPoolForHostname hostname = .ok pool) :
    pool ∈ db.pools ∧ OneLabelUnder hostname.text pool.wildcardDomain.base ∧
      ∀ other ∈ db.pools, ¬ Under '.' other.wildcardDomain.base hostname.text := by
  obtain ⟨hcovers, h⟩ := ensure_bind_eq_ok.mp h
  split at h
  · rename_i found hfound
    obtain rfl := ok.inj h
    have hmatch := List.find?_some hfound
    rw [Bool.and_eq_true] at hmatch
    refine ⟨(mem_insertionSort _).mp (mem_of_find?_eq_some hfound), matches_iff.mp hmatch.2, ?_⟩
    intro other hother
    rw [all_eq_true] at hcovers
    have hother := hcovers other ((mem_insertionSort _).mpr hother)
    rw [hostnameCovers_eq, beq_iff_eq, Option.some.injEq] at hother
    exact of_decide_eq_false hother
  · cases h

theorem assertDisjoint_ok {wildcardDomain : WildcardDomain} {pools : List DomainPoolRow}
    (h : assertDisjoint wildcardDomain pools = .ok ()) : ∀ pool ∈ pools, wildcardDomain.Apart pool.wildcardDomain := by
  induction pools with
  | nil => exact nofun
  | cons first pools ih =>
    unfold assertDisjoint at h
    simp only [ensure_bind_eq_ok] at h
    obtain ⟨-, hoverlap, h⟩ := h
    refine forall_mem_cons.mpr ⟨?_, ih h⟩
    unfold wildcardDomainsOverlap at hoverlap
    unfold WildcardDomain.Apart
    simpa [cons_suffix_cons_iff] using hoverlap

/-! ## Changes -/

/-- What a transaction has found before it binds a hostname. -/
structure Bindable (db : HttpDb) (row : BindingRow) (time : Nat) : Prop where
  placed : ∃ pool ∈ db.pools, pool.id = row.domainPoolId ∧
    OneLabelUnder row.hostname.text pool.wildcardDomain.base
  covers : ∀ other ∈ db.pools, ¬ Under '.' other.wildcardDomain.base row.hostname.text
  bindings_lt : db.bindings.length < maxHttpProxyRoutes
  owned_lt : db.ownedBindings row.ownerId < maxHttpProxyBindingsPerUser
  fresh : ∀ other ∈ db.bindings, other.id ≠ row.id
  target : db.Target row.containerId row.targetPort
  free : db.checkFree row.hostname row.ownerId = .ok ()
  collected : ∀ collectedAt, .collected row.hostname collectedAt ∈ db.history → collectedAt ≤ time

/-- The hostname is reserved and bound. -/
def bindRow (db : HttpDb) (row : BindingRow) (time : Nat) : HttpDb :=
  { db with
    bindings := db.bindings ++ [row]
    reservations := db.reservations ++ [⟨row.hostname, row.ownerId, .active row.id, 0⟩]
    history := .bound row.hostname time :: db.history }

def retargetRow (db : HttpDb) (id containerId : Uuid) (targetPort : Nat) : HttpDb :=
  { db with bindings := updateWhere db.bindings (fun row => decide (row.id = id)) fun row =>
    { row with containerId, targetPort } }

/-- The pool may have the domain: its own, or one apart from the other pools' while it has no bindings. -/
def DomainFits (db : HttpDb) (current : DomainPoolRow) (domain : WildcardDomain) : Prop :=
  domain = current.wildcardDomain ∨
    (∀ other ∈ db.pools, other.id ≠ current.id → domain.Apart other.wildcardDomain) ∧
      ∀ row ∈ db.bindings, row.domainPoolId ≠ current.id

/-- One change of the tables, with what the transaction has found before it. -/
inductive Change (db : HttpDb) : HttpDb → Prop where
  | collect (clock : ReserveClock) : Change db (db.collectExpired clock)
  | bind (row : BindingRow) (time : Nat) (hbindable : db.Bindable row time) : Change db (db.bindRow row time)
  | retarget (id containerId : Uuid) (targetPort : Nat) (htarget : db.Target containerId targetPort) :
      Change db (db.retargetRow id containerId targetPort)
  | unbind (binding : BindingRow) (time : Nat) (hbinding : binding ∈ db.bindings) :
      Change db (db.deleteBindingRow binding time)
  | addPool (pool : DomainPoolRow) (hid : ∀ other ∈ db.pools, other.id ≠ pool.id)
      (hdisjoint : ∀ other ∈ db.pools, pool.wildcardDomain.Apart other.wildcardDomain) :
      Change db { db with pools := db.pools ++ [pool] }
  | patchPool (current pool : DomainPoolRow) (hcurrent : current ∈ db.pools) (hid : pool.id = current.id)
      (hdomain : db.DomainFits current pool.wildcardDomain) :
      Change db { db with
        pools := updateWhere db.pools (fun other => decide (other.id = current.id)) fun _ => pool }
  | removePool (id : Uuid) (hunused : ∀ row ∈ db.bindings, row.domainPoolId ≠ id) :
      Change db { db with pools := deleteWhere db.pools fun pool => decide (pool.id = id) }
  | around (users : List UserRow) (containers : List ContainerOwner)
      (hcontainers : ∀ row ∈ db.bindings, ∀ container ∈ db.containers, container.id = row.containerId →
        container ∈ containers) :
      Change db { db with users, containers }

/-- A chain of changes. -/
abbrev Changes : HttpDb → HttpDb → Prop := Relation.ReflTransGen Change

theorem Changes.single (h : Change db next) : Changes db next := Relation.ReflTransGen.single h

/-- What every change keeps, a chain keeps. -/
theorem Changes.invariant (Invariant : HttpDb → Prop)
    (preserved : ∀ {db next}, Change db next → Invariant db → Invariant next)
    (h : Changes db next) (start : Invariant db) : Invariant next := by
  induction h with
  | refl => exact start
  | tail _ hchange ih => exact preserved hchange ih

/-! ## Transactions -/

theorem createBinding_changes {requesterId bindingId : Uuid} {input : CreateBindingRequest}
    (hbegins : db.collectedBefore input.hostname clock.selectAt = true)
    (h : db.createBinding requesterId input bindingId clock = .ok next) : Changes db next := by
  obtain ⟨text, htext, h⟩ := bind_eq_ok.mp h
  obtain ⟨⟨⟩, -, h⟩ := bind_eq_ok.mp h
  obtain ⟨hostname, hhostname, h⟩ := bind_eq_ok.mp h
  simp only [ensure_bind_eq_ok, decide_eq_true_eq] at h
  obtain ⟨hbindings, howned, h⟩ := h
  obtain ⟨pool, hpool, h⟩ := bind_eq_ok.mp h
  obtain ⟨⟨⟩, -, h⟩ := bind_eq_ok.mp h
  obtain ⟨⟨⟩, -, h⟩ := bind_eq_ok.mp h
  obtain ⟨reserved, hreserved, h⟩ := bind_eq_ok.mp h
  obtain ⟨⟨⟩, hcheck, h⟩ := bind_eq_ok.mp (onUniqueViolation_ok h)
  obtain rfl := ok.inj h
  obtain ⟨hfree, -, rfl⟩ := reserveHostname_ok hreserved
  obtain ⟨hmem, hunder, hcovers⟩ := enabledPoolForHostname_ok hpool
  obtain ⟨hfresh, -, -, -, htarget⟩ := checkBinding_iff.mp hcheck
  have hname : normalizeHttpProxyHostname text = some hostname := by
    unfold parseHttpProxyHostname at hhostname
    split at hhostname
    · rename_i found hfound
      rw [hfound, ok.inj hhostname]
    · cases hhostname
  unfold parseHostnameText at htext
  simp only [ensure_bind_eq_ok] at htext
  rw [← ok.inj htext.2] at hname
  -- first the expired reservations go, then the hostname is bound
  refine (Changes.single (.collect clock)).tail (.bind _ clock.writeAt ?_)
  refine ⟨⟨pool, hmem, rfl, hunder⟩, hcovers, hbindings, howned, hfresh, htarget, hfree,
    fun collectedAt hcollected => ?_⟩
  rcases mem_append.mp hcollected with hnew | hold
  · obtain ⟨row, -, heq⟩ := mem_map.mp hnew
    injection heq with _ htime
    rw [← htime]
    exact Nat.le_add_right _ _
  · have hle : collectedAt ≤ clock.selectAt := by simpa [hname] using all_eq_true.mp hbegins _ hold
    unfold ReserveClock.writeAt ReserveClock.deleteAt
    omega

/-- A committed patch leaves the hostname. -/
theorem updateBinding_changes (hids : (db.bindings.map BindingRow.id).Nodup) {requesterId : Uuid}
    {input : PatchBindingRequest} {releasedAt : Nat}
    (h : db.updateBinding requesterId id input clock releasedAt = .ok next) : Changes db next := by
  obtain ⟨text, -, h⟩ := bind_eq_ok.mp h
  obtain ⟨⟨⟩, -, h⟩ := bind_eq_ok.mp h
  obtain ⟨-, h⟩ := ensure_bind_eq_ok.mp h
  split at h
  · cases h
  rename_i binding hfound
  obtain ⟨-, h⟩ := ensure_bind_eq_ok.mp h
  obtain ⟨⟨⟩, -, h⟩ := bind_eq_ok.mp h
  obtain ⟨hostname, -, h⟩ := bind_eq_ok.mp h
  obtain ⟨⟨claimed, poolId⟩, hclaimed, h⟩ := bind_eq_ok.mp h
  obtain ⟨⟨⟩, -, h⟩ := bind_eq_ok.mp h
  obtain ⟨⟨⟩, hcheck, h⟩ := bind_eq_ok.mp (onUniqueViolation_ok h)
  obtain rfl := ok.inj h
  by_cases hsame : hostname = binding.hostname
  · rw [claimHostname, if_pos hsame] at hclaimed
    obtain ⟨rfl, rfl⟩ := Prod.mk.inj (ok.inj hclaimed)
    subst hsame
    have hmem := mem_of_find?_eq_some hfound
    have hupdate : updateWhere db.bindings (fun other => decide (other.id = binding.id)) (fun _ =>
        { binding with
          containerId := input.containerId.getD binding.containerId
          targetPort := input.targetPort.getD binding.targetPort }) =
        updateWhere db.bindings (fun other => decide (other.id = binding.id)) fun row =>
          { row with
            containerId := input.containerId.getD binding.containerId
            targetPort := input.targetPort.getD binding.targetPort } := by
      apply map_congr_left
      intro row hrow
      split
      · next hcondition => rw [eq_of_key_eq hids hrow hmem (of_decide_eq_true hcondition)]
      · rfl
    rw [if_pos rfl]
    rw [hupdate]
    exact .single (.retarget binding.id _ _ (checkBinding_iff.mp hcheck).2.2.2.2)
  · rw [claimHostname, if_neg hsame] at hclaimed
    exact absurd hclaimed (renameBinding_fails hsame clock releasedAt _)

theorem deleteBinding_changes {actor : UserActor} {scope : ListScope} {releasedAt drainedAt : Nat}
    (h : db.deleteBinding actor id scope releasedAt drainedAt = .ok next) : Changes db next := by
  obtain ⟨-, h⟩ := ensure_bind_eq_ok.mp h
  split at h
  · cases h
  rename_i binding hfound
  obtain ⟨-, h⟩ := ensure_bind_eq_ok.mp h
  obtain ⟨⟨⟩, -, h⟩ := bind_eq_ok.mp h
  obtain ⟨released, hreleased, h⟩ := bind_eq_ok.mp h
  obtain ⟨-, rfl⟩ := releaseHostname_ok hreleased
  obtain rfl := ok.inj h
  have hdelete : (db.drain binding releasedAt).deleteBindingRow binding drainedAt =
      db.deleteBindingRow binding releasedAt := by
    unfold deleteBindingRow
    rw [drain_drain]
  rw [hdelete]
  exact .single (.unbind binding releasedAt (mem_of_find?_eq_some hfound))

/-- The rows of a cascade go one after the other. -/
theorem cascade_changes {rows : List BindingRow} (hids : (rows.map BindingRow.id).Nodup)
    (hrows : ∀ row ∈ rows, row ∈ db.bindings) (drainedAt : Uuid → Nat) :
    Changes db (rows.foldl (fun db row => db.deleteBindingRow row (drainedAt row.id)) db) := by
  induction rows generalizing db with
  | nil => exact .refl
  | cons row rows ih =>
    rw [map_cons, nodup_cons] at hids
    have hrest : ∀ other ∈ rows, other ∈ (db.deleteBindingRow row (drainedAt row.id)).bindings := by
      intro other hother
      apply mem_deleteWhere.mpr
      refine ⟨hrows other (mem_cons_of_mem row hother), decide_eq_false ?_⟩
      intro heq
      exact hids.1 (mem_map.mpr ⟨other, hother, heq⟩)
    have hhead : Change db (db.deleteBindingRow row (drainedAt row.id)) :=
      .unbind row (drainedAt row.id) (hrows row mem_cons_self)
    exact (ih hids.2 hrest).head hhead

/-- A cascade leaves the rows of other ids. -/
theorem mem_cascade {rows : List BindingRow} {drainedAt : Uuid → Nat} {row : BindingRow}
    (h : row ∈ (rows.foldl (fun db row => db.deleteBindingRow row (drainedAt row.id)) db).bindings) :
    row ∈ db.bindings ∧ row ∉ rows := by
  induction rows generalizing db with
  | nil => exact ⟨h, not_mem_nil⟩
  | cons first rows ih =>
    obtain ⟨hmem, hrest⟩ := ih h
    obtain ⟨hbefore, hid⟩ := mem_deleteWhere.mp hmem
    refine ⟨hbefore, ?_⟩
    rw [mem_cons, not_or]
    refine ⟨?_, hrest⟩
    rintro rfl
    exact of_decide_eq_false hid rfl

theorem deleteContainer_changes (hids : (db.bindings.map BindingRow.id).Nodup) (id : Uuid)
    (drainedAt : Uuid → Nat) : Changes db (db.deleteContainer id drainedAt) := by
  have hrows : ((db.bindings.filter fun row => decide (row.containerId = id)).map BindingRow.id).Nodup :=
    hids.sublist (filter_sublist.map _)
  have hcascade := cascade_changes hrows (fun row hrow => mem_of_mem_filter hrow) drainedAt
  refine hcascade.tail (.around _ _ ?_)
  intro row hrow container hcontainer hid
  obtain ⟨hmem, hkept⟩ := mem_cascade hrow
  refine mem_deleteWhere.mpr ⟨hcontainer, decide_eq_false ?_⟩
  rw [hid]
  exact fun heq => hkept (mem_filter.mpr ⟨hmem, decide_eq_true heq⟩)

theorem createDomainPool_changes {input : CreateDomainPoolRequest} {checks : CertificateChecks}
    (h : db.createDomainPool actorId input id checks = .ok next) : Changes db next := by
  obtain ⟨wildcardDomain, -, h⟩ := bind_eq_ok.mp h
  obtain ⟨certificate, -, h⟩ := bind_eq_ok.mp h
  obtain ⟨-, h⟩ := ensure_bind_eq_ok.mp h
  obtain ⟨⟨⟩, -, h⟩ := bind_eq_ok.mp h
  obtain ⟨⟨⟩, hdisjoint, h⟩ := bind_eq_ok.mp h
  obtain ⟨-, h⟩ := ensure_bind_eq_ok.mp h
  obtain ⟨⟨⟩, hcheck, h⟩ := bind_eq_ok.mp h
  obtain rfl := ok.inj h
  have hcheck := onUniqueViolation_ok hcheck
  unfold checkPool at hcheck
  simp only [ensure_bind_eq_ok, all_eq_true, decide_eq_true_eq] at hcheck
  exact .single (.addPool _ hcheck.1 (assertDisjoint_ok hdisjoint))

theorem nextWildcardDomain_ok {current : DomainPoolRow} {value : Option (List Char)} {domain : WildcardDomain}
    (h : db.nextWildcardDomain current value = .ok domain) : db.DomainFits current domain := by
  cases value with
  | none => exact .inl (ok.inj h).symm
  | some value =>
    obtain ⟨parsed, -, h⟩ := bind_eq_ok.mp h
    split at h
    · exact .inl (ok.inj h).symm
    obtain ⟨⟨⟩, hdisjoint, h⟩ := bind_eq_ok.mp h
    simp only [ensure_bind_eq_ok, all_eq_true, decide_eq_true_eq] at h
    obtain ⟨hunused, h⟩ := h
    obtain rfl := ok.inj h
    refine .inr ⟨?_, hunused⟩
    intro other hother hne
    exact assertDisjoint_ok hdisjoint other (mem_filter.mpr ⟨hother, decide_eq_true hne⟩)

theorem updateDomainPool_changes {input : PatchDomainPoolRequest} {checks : CertificateChecks}
    (h : db.updateDomainPool actorId id input checks = .ok next) : Changes db next := by
  obtain ⟨-, h⟩ := ensure_bind_eq_ok.mp h
  obtain ⟨⟨⟩, -, h⟩ := bind_eq_ok.mp h
  split at h
  · cases h
  rename_i current hfound
  obtain ⟨wildcardDomain, hdomain, h⟩ := bind_eq_ok.mp h
  obtain ⟨certificate, -, h⟩ := bind_eq_ok.mp h
  obtain ⟨-, h⟩ := ensure_bind_eq_ok.mp h
  obtain ⟨⟨⟩, -, h⟩ := bind_eq_ok.mp h
  obtain rfl := ok.inj h
  have hid := List.find?_some hfound
  obtain rfl : current.id = id := of_decide_eq_true hid
  exact .single (.patchPool current _ (mem_of_find?_eq_some hfound) rfl (nextWildcardDomain_ok hdomain))

theorem deleteDomainPool_changes (h : db.deleteDomainPool actorId id = .ok next) : Changes db next := by
  obtain ⟨⟨⟩, -, h⟩ := bind_eq_ok.mp h
  simp only [ensure_bind_eq_ok, all_eq_true, decide_eq_true_eq] at h
  obtain ⟨-, hunused, h⟩ := h
  obtain rfl := ok.inj h
  exact .single (.removePool id hunused)

theorem transact_changes (hids : (db.bindings.map BindingRow.id).Nodup) {label : HttpLabel}
    (hbegins : db.begins label = true) (h : db.transact label = .ok next) : Changes db next := by
  cases label with
  | createBinding requesterId input bindingId clock => exact createBinding_changes hbegins h
  | updateBinding requesterId id input clock releasedAt => exact updateBinding_changes hids h
  | deleteBinding actor id scope releasedAt drainedAt => exact deleteBinding_changes h
  | deleteContainer id drainedAt =>
    obtain rfl := ok.inj h
    exact deleteContainer_changes hids id drainedAt
  | createDomainPool actorId input id checks => exact createDomainPool_changes h
  | updateDomainPool actorId id input checks => exact updateDomainPool_changes h
  | deleteDomainPool actorId id => exact deleteDomainPool_changes h
  | putUser user =>
    obtain rfl := ok.inj h
    exact .single (.around _ _ fun _ _ _ hcontainer _ => hcontainer)
  | deleteUser id =>
    unfold transact deleteUser at h
    simp only [ensure_bind_eq_ok] at h
    obtain rfl := ok.inj h.2
    exact .single (.around _ _ fun _ _ _ hcontainer _ => hcontainer)
  | createContainer container =>
    unfold transact createContainer at h
    simp only [ensure_bind_eq_ok] at h
    obtain rfl := ok.inj h.2.2
    exact .single (.around _ _ fun _ _ _ hcontainer _ => mem_append_left _ hcontainer)

/-! ## Keys -/

/-- The primary keys and the unique hostnames. -/
structure Keys (db : HttpDb) : Prop where
  bindingIds : (db.bindings.map BindingRow.id).Nodup
  bindingHostnames : (db.bindings.map BindingRow.hostname).Nodup
  reservationHostnames : (db.reservations.map ReservationRow.hostname).Nodup
  poolIds : (db.pools.map DomainPoolRow.id).Nodup

theorem Change.keys (h : Change db next) (hkeys : Keys db) : Keys next := by
  cases h with
  | collect clock => exact { hkeys with
      reservationHostnames := nodup_map_key_deleteWhere hkeys.reservationHostnames }
  | bind row time hbindable =>
    obtain ⟨hunbound, hunreserved, -⟩ := checkFree_ok hbindable.free
    exact { hkeys with
      bindingIds := nodup_map_append_singleton hkeys.bindingIds hbindable.fresh
      bindingHostnames := nodup_map_append_singleton hkeys.bindingHostnames hunbound
      reservationHostnames := nodup_map_append_singleton hkeys.reservationHostnames hunreserved }
  | retarget id containerId targetPort htarget => exact { hkeys with
      bindingIds := nodup_map_key_updateWhere hkeys.bindingIds fun _ _ => rfl
      bindingHostnames := nodup_map_key_updateWhere hkeys.bindingHostnames fun _ _ => rfl }
  | unbind binding time hbinding => exact { hkeys with
      bindingIds := nodup_map_key_deleteWhere hkeys.bindingIds
      bindingHostnames := nodup_map_key_deleteWhere hkeys.bindingHostnames
      reservationHostnames := nodup_map_key_updateWhere hkeys.reservationHostnames fun _ _ => rfl }
  | addPool pool hid hdisjoint => exact { hkeys with poolIds := nodup_map_append_singleton hkeys.poolIds hid }
  | patchPool current pool hcurrent hid hdomain => exact { hkeys with
      poolIds := nodup_map_key_updateWhere hkeys.poolIds fun other hother =>
        hid.trans (of_decide_eq_true hother).symm }
  | removePool id hunused => exact { hkeys with poolIds := nodup_map_key_deleteWhere hkeys.poolIds }
  | around users containers hcontainers => exact { hkeys with }

/-- What every change keeps beside the keys, every run keeps. -/
theorem run_keeps {Invariant : HttpDb → Prop}
    (preserved : ∀ {db next}, Change db next → Keys db → Invariant db → Invariant next) (start : Invariant initial)
    {labels : List HttpLabel} (hrun : run step initial labels = some db) : Keys db ∧ Invariant db := by
  have hinitial : Keys initial ∧ Invariant initial :=
    ⟨⟨nodup_nil, nodup_nil, nodup_nil, nodup_nil⟩, start⟩
  refine @run_invariant HttpDb HttpLabel step (fun db => Keys db ∧ Invariant db) ?_ _ _ _ hinitial hrun
  intro state label next hstate hstep
  obtain ⟨hbegins, rfl⟩ := of_guard hstep
  cases htransact : state.transact label with
  | ok committed =>
    refine Changes.invariant (fun db => Keys db ∧ Invariant db) ?_
      (transact_changes hstate.1.bindingIds hbegins htransact) hstate
    intro before after hchange hbefore
    exact ⟨hchange.keys hbefore.1, preserved hchange hbefore.1 hbefore.2⟩
  | error error => exact hstate

end HttpDb

end Nyabase.Backend
