import Nyabase.Backend.HttpSeparation

/-!
# Reservations of hostnames

Every binding has a reservation with its hostname, its owner and its id.  A binding that goes leaves its
reservation draining.  While it drains nobody gets the hostname, and a transaction that sees it gone reads a
clock that is past the drain.
-/

namespace Nyabase.Backend

open Common Lib List

/-- A hostname is bound by the events so far, the newest first. -/
def isBound (hostname : Hostname) : List HostnameEvent → Bool
  | [] => false
  | .bound other _ :: older => decide (other = hostname) || isBound hostname older
  | .released other _ :: older => decide (other ≠ hostname) && isBound hostname older
  | .collected _ _ :: older => isBound hostname older

/-- A hostname is bound when its releases before have drained. -/
def DrainedFirst (older : List HostnameEvent) (event : HostnameEvent) : Prop :=
  ∀ hostname time, event = .bound hostname time →
    ∀ releasedAt, .released hostname releasedAt ∈ older → releasedAt + hostnameDrain ≤ time

namespace HttpDb

variable {db next : HttpDb}

/-- A release of the hostname drains in its reservation, or a reservation past the drain was deleted. -/
def Draining (db : HttpDb) (hostname : Hostname) (releasedAt : Nat) : Prop :=
  (∃ row ∈ db.reservations, row.hostname = hostname ∧
    ∃ reusableAt, row.state = .releasing reusableAt ∧ releasedAt + hostnameDrain ≤ reusableAt) ∨
  ∃ collectedAt, .collected hostname collectedAt ∈ db.history ∧ releasedAt + hostnameDrain ≤ collectedAt

/-- The owners of a table's rows, within the limits on the rows and on the rows of a user. -/
def Within (limit perUser : Nat) (owners : List Uuid) : Prop :=
  owners.length ≤ limit ∧ ∀ ownerId, owners.count ownerId ≤ perUser

structure Reserved (db : HttpDb) : Prop where
  held : ∀ binding ∈ db.bindings, ∃ row ∈ db.reservations, row.heldBy binding = true
  bound : ∀ hostname, (∃ binding ∈ db.bindings, binding.hostname = hostname) ↔ isBound hostname db.history = true
  draining : ∀ hostname releasedAt, .released hostname releasedAt ∈ db.history → db.Draining hostname releasedAt
  drainedFirst : EachAfter DrainedFirst db.history
  bindings_le : Within maxHttpProxyRoutes maxHttpProxyBindingsPerUser (db.bindings.map BindingRow.ownerId)
  reservations_le : Within maxHttpHostnameReservations maxHttpHostnameReservationsPerUser
    (db.reservations.map ReservationRow.ownerId)

theorem reserved_initial : Reserved initial where
  held := by simp [initial]
  bound := by simp [initial, isBound]
  draining := by simp [initial]
  drainedFirst := trivial
  bindings_le := ⟨Nat.zero_le _, fun _ => Nat.zero_le _⟩
  reservations_le := ⟨Nat.zero_le _, fun _ => Nat.zero_le _⟩

variable {binding : BindingRow}

theorem heldBy_iff {row : ReservationRow} : row.heldBy binding = true ↔
    row.hostname = binding.hostname ∧ row.ownerId = binding.ownerId ∧ row.state = .active binding.id := by
  simp [ReservationRow.heldBy]

section

variable {limit perUser : Nat} {owners fewer : List Uuid} {ownerId : Uuid} (h : Within limit perUser owners)

include h

theorem Within.sublist (hsub : fewer.Sublist owners) : Within limit perUser fewer :=
  ⟨hsub.length_le.trans h.1, fun ownerId => (hsub.count_le ownerId).trans (h.2 ownerId)⟩

theorem Within.concat (hlength : owners.length < limit) (howned : owners.count ownerId < perUser) :
    Within limit perUser (owners ++ [ownerId]) := by
  refine ⟨by rwa [length_append], fun other => ?_⟩
  have hother := h.2 other
  rw [count_append, count_singleton]
  split
  · rename_i hsame
    rw [beq_iff_eq.mp hsame] at howned
    omega
  · exact hother

end

theorem count_map_ownerId {α : Type} (rows : List α) (key : α → Uuid) (ownerId : Uuid) :
    (rows.map key).count ownerId = rows.countP fun row => key row == ownerId :=
  countP_map

/-! ## Collecting -/

theorem isBound_collected (hostname : Hostname) (rows : List ReservationRow) (time : Nat) (older : List HostnameEvent) :
    isBound hostname (rows.map (fun row => HostnameEvent.collected row.hostname time) ++ older) =
      isBound hostname older := by
  induction rows with
  | nil => rfl
  | cons row rows ih => exact ih

variable {hostname : Hostname} {releasedAt : Nat}

theorem Draining.mono (h : db.Draining hostname releasedAt)
    (hrows : ∀ row ∈ db.reservations, (∃ reusableAt, row.state = .releasing reusableAt) → row ∈ next.reservations)
    (hhistory : db.history ⊆ next.history) : next.Draining hostname releasedAt := by
  rcases h with ⟨row, hrow, hname, reusableAt, hstate, hle⟩ | ⟨collectedAt, hmem, hle⟩
  · exact .inl ⟨row, hrows row hrow ⟨reusableAt, hstate⟩, hname, reusableAt, hstate, hle⟩
  · exact .inr ⟨collectedAt, hhistory hmem, hle⟩

theorem Draining.collect {clock : ReserveClock}
    (h : db.Draining hostname releasedAt) : (db.collectExpired clock).Draining hostname releasedAt := by
  rcases h with ⟨row, hrow, rfl, reusableAt, hstate, hle⟩ | ⟨collectedAt, hmem, hle⟩
  · by_cases hcollectable : db.collectable clock row = true
    · -- the deletion has read a time past the drain
      have hexpired : reusableAt ≤ clock.deleteAt := by
        have hand := Bool.and_eq_true_iff.mp hcollectable
        simpa [ReservationRow.expired, hstate] using hand.2
      refine .inr ⟨clock.deleteAt, ?_, hle.trans hexpired⟩
      exact mem_append_left _
        (mem_map.mpr ⟨row, mem_filter.mpr ⟨hrow, hcollectable⟩, rfl⟩)
    · exact .inl ⟨row, mem_deleteWhere.mpr ⟨hrow, eq_false_of_ne_true hcollectable⟩, rfl, reusableAt, hstate, hle⟩
  · exact .inr ⟨collectedAt, mem_append_right _ hmem, hle⟩

section

variable (hreserved : Reserved db)

include hreserved

theorem reserved_collect (clock : ReserveClock) : Reserved (db.collectExpired clock) := { hreserved with
  held := by
    intro binding hbinding
    obtain ⟨row, hrow, hheld⟩ := hreserved.held binding hbinding
    obtain ⟨-, -, hstate⟩ := heldBy_iff.mp hheld
    exact ⟨row, mem_deleteWhere.mpr ⟨hrow, by simp [collectable, ReservationRow.expired, hstate]⟩, hheld⟩
  bound := by
    intro hostname
    show _ ↔ isBound hostname (_ ++ db.history) = true
    rw [isBound_collected]
    exact hreserved.bound hostname
  draining := by
    intro hostname releasedAt hmem
    rcases mem_append.mp hmem with hnew | hold
    · obtain ⟨row, -, heq⟩ := mem_map.mp hnew
      cases heq
    · exact (hreserved.draining hostname releasedAt hold).collect
  drainedFirst := by
    refine hreserved.drainedFirst.append ?_
    intro event hevent older hostname time heq
    obtain ⟨row, -, rfl⟩ := mem_map.mp hevent
    cases heq
  reservations_le := hreserved.reservations_le.sublist (filter_sublist.map _) }

/-! ## Binding -/

theorem reserved_bind {row : BindingRow} {time : Nat} (hbindable : db.Bindable row time) :
    Reserved (db.bindRow row time) := by
  obtain ⟨-, hunreserved, hcount, howned⟩ := checkFree_ok hbindable.free
  constructor
  case held =>
    intro binding hbinding
    rcases mem_append.mp hbinding with hold | hnew
    · obtain ⟨held, hmem, hheld⟩ := hreserved.held binding hold
      exact ⟨held, mem_append_left _ hmem, hheld⟩
    · rw [mem_singleton.mp hnew]
      exact ⟨_, mem_append_right _ (mem_singleton.mpr rfl), heldBy_iff.mpr ⟨rfl, rfl, rfl⟩⟩
  case bound =>
    intro hostname
    show (∃ binding ∈ db.bindings ++ [row], binding.hostname = hostname) ↔
      (decide (row.hostname = hostname) || isBound hostname db.history) = true
    rw [Bool.or_eq_true, decide_eq_true_eq, ← hreserved.bound hostname]
    simp only [mem_append, mem_singleton, or_and_right, exists_or, exists_eq_left]
    exact or_comm
  case draining =>
    intro hostname releasedAt hmem
    have hold := (mem_cons.mp hmem).resolve_left nofun
    exact (hreserved.draining hostname releasedAt hold).mono (fun row hrow _ => mem_append_left _ hrow)
      (subset_cons_self _ _)
  case drainedFirst =>
    refine ⟨?_, hreserved.drainedFirst⟩
    intro hostname boundAt heq releasedAt hreleased
    obtain ⟨rfl, rfl⟩ := HostnameEvent.bound.inj heq
    -- the hostname has no reservation, so the one that drained was collected
    rcases hreserved.draining row.hostname releasedAt hreleased with
      ⟨draining, hdraining, hname, -⟩ | ⟨collectedAt, hmem, hle⟩
    · exact absurd hname (hunreserved draining hdraining)
    · exact hle.trans (hbindable.collected collectedAt hmem)
  case bindings_le =>
    rw [bindRow, map_append]
    refine hreserved.bindings_le.concat (by rw [length_map]; exact hbindable.bindings_lt) ?_
    rw [count_map_ownerId]
    exact hbindable.owned_lt
  case reservations_le =>
    rw [bindRow, map_append]
    refine hreserved.reservations_le.concat (by rwa [length_map]) ?_
    rw [count_map_ownerId]
    exact howned

/-! ## Retargeting and unbinding -/

theorem reserved_retarget (id containerId : Uuid) (targetPort : Nat) :
    Reserved (db.retargetRow id containerId targetPort) := by
  have hsame : ∀ row : BindingRow, ∀ reservation : ReservationRow, reservation.heldBy
      (if decide (row.id = id) = true then { row with containerId, targetPort } else row) =
      reservation.heldBy row := by
    intro row reservation
    split
    · rfl
    · rfl
  exact { hreserved with
    held := by
      intro binding hbinding
      obtain ⟨old, hold, rfl⟩ := mem_updateWhere.mp hbinding
      obtain ⟨row, hrow, hheld⟩ := hreserved.held old hold
      exact ⟨row, hrow, (hsame old row).trans hheld⟩
    bound := by
      intro hostname
      rw [retargetRow, ← hreserved.bound hostname, ← mem_map, ← mem_map, map_key_updateWhere]
      exact fun _ _ => rfl
    bindings_le := by
      rw [retargetRow, map_key_updateWhere]
      exacts [hreserved.bindings_le, fun _ _ => rfl] }

end

theorem reserved_unbind (hkeys : Keys db) (hreserved : Reserved db) (hbinding : binding ∈ db.bindings) (time : Nat) :
    Reserved (db.deleteBindingRow binding time) := by
  obtain ⟨row, hrow, hheld⟩ := hreserved.held binding hbinding
  have hhistory : (db.deleteBindingRow binding time).history = .released binding.hostname time :: db.history :=
    if_pos (any_eq_true.mpr ⟨row, hrow, hheld⟩)
  constructor
  case held =>
    intro other hother
    obtain ⟨hmem, hid⟩ := mem_deleteWhere.mp hother
    obtain ⟨row, hrow, hheld⟩ := hreserved.held other hmem
    refine ⟨row, mem_updateWhere_of_not hrow ?_, hheld⟩
    -- the reservation names the other binding
    rw [Bool.eq_false_iff]
    intro hboth
    have hstate := (heldBy_iff.mp hheld).2.2.symm.trans (heldBy_iff.mp hboth).2.2
    exact of_decide_eq_false hid (ReservationState.active.inj hstate)
  case bound =>
    intro hostname
    rw [hhistory]
    show (∃ other ∈ deleteWhere db.bindings _, other.hostname = hostname) ↔
      (decide (binding.hostname ≠ hostname) && isBound hostname db.history) = true
    rw [Bool.and_eq_true, decide_eq_true_eq, ← hreserved.bound hostname]
    constructor
    · rintro ⟨other, hother, rfl⟩
      obtain ⟨hmem, hid⟩ := mem_deleteWhere.mp hother
      refine ⟨?_, other, hmem, rfl⟩
      intro hname
      apply of_decide_eq_false hid
      exact congrArg BindingRow.id (eq_of_key_eq hkeys.bindingHostnames hmem hbinding hname.symm)
    · rintro ⟨hne, other, hother, rfl⟩
      refine ⟨other, mem_deleteWhere.mpr ⟨hother, decide_eq_false ?_⟩, rfl⟩
      intro hid
      exact hne (congrArg BindingRow.hostname (eq_of_key_eq hkeys.bindingIds hother hbinding hid)).symm
  case draining =>
    intro hostname releasedAt hmem
    rw [hhistory] at hmem
    rcases mem_cons.mp hmem with heq | hold
    · obtain ⟨rfl, rfl⟩ := HostnameEvent.released.inj heq
      refine .inl ⟨row.drained releasedAt, mem_updateWhere.mpr ⟨row, hrow, if_pos hheld⟩, ?_, ?_⟩
      · exact (heldBy_iff.mp hheld).1
      · exact ⟨releasedAt + hostnameDrain, rfl, le_rfl⟩
    · refine (hreserved.draining hostname releasedAt hold).mono ?_ (by rw [hhistory]; exact subset_cons_self _ _)
      rintro row hrow ⟨reusableAt, hstate⟩
      exact mem_updateWhere_of_not hrow (by simp [ReservationRow.heldBy, hstate])
  case drainedFirst =>
    rw [hhistory]
    refine ⟨?_, hreserved.drainedFirst⟩
    intro hostname boundAt heq
    cases heq
  case bindings_le => exact hreserved.bindings_le.sublist (filter_sublist.map _)
  case reservations_le =>
    show Within _ _ ((updateWhere _ _ _).map _)
    rw [map_key_updateWhere]
    exacts [hreserved.reservations_le, fun _ _ => rfl]

theorem Change.reserved (h : Change db next) (hkeys : Keys db) (hreserved : Reserved db) : Reserved next := by
  cases h with
  | collect clock => exact reserved_collect hreserved clock
  | bind row time hbindable => exact reserved_bind hreserved hbindable
  | retarget id containerId targetPort htarget => exact reserved_retarget hreserved id containerId targetPort
  | unbind binding time hbinding => exact reserved_unbind hkeys hreserved hbinding time
  | addPool pool hid hdisjoint | patchPool current pool hcurrent hid hdomain | removePool id hunused
  | around users containers hcontainers => exact { hreserved with }

theorem Reserved.heldBy_once (hreserved : Reserved db) (hkeys : Keys db) (hbinding : binding ∈ db.bindings) :
    db.reservations.countP (·.heldBy binding) = 1 := by
  obtain ⟨row, hrow, hheld⟩ := hreserved.held binding hbinding
  apply countP_eq_one_of_key hkeys.reservationHostnames hrow hheld
  intro other hother
  rw [(heldBy_iff.mp hother).1, (heldBy_iff.mp hheld).1]

variable {labels : List HttpLabel}

theorem reserved_of_run (hrun : run step initial labels = some db) : Keys db ∧ Reserved db :=
  run_keeps Change.reserved reserved_initial hrun

/-- In every state a run reaches, a bound hostname has one active reservation, with the binding's id and owner;
a hostname was only ever bound when 360 seconds had passed since each of its releases; and the limits on
bindings and reservations hold. -/
theorem hostnames_drain_before_reuse (hrun : run step initial labels = some db) :
    (∀ binding ∈ db.bindings,
      db.reservations.countP (fun row => decide (row.hostname = binding.hostname) && row.activeBinding.isSome) = 1 ∧
        db.reservations.countP (·.heldBy binding) = 1) ∧
    EachAfter DrainedFirst db.history ∧
    (∀ hostname, (∃ binding ∈ db.bindings, binding.hostname = hostname) ↔ isBound hostname db.history = true) ∧
    db.bindings.length ≤ maxHttpProxyRoutes ∧
    (∀ ownerId, db.ownedBindings ownerId ≤ maxHttpProxyBindingsPerUser) ∧
    db.reservations.length ≤ maxHttpHostnameReservations ∧
    ∀ ownerId, db.ownedReservations ownerId ≤ maxHttpHostnameReservationsPerUser := by
  obtain ⟨hkeys, hreserved⟩ := reserved_of_run hrun
  obtain ⟨hbindings, howned⟩ := hreserved.bindings_le
  obtain ⟨hreservations, hownedReservations⟩ := hreserved.reservations_le
  simp only [length_map, count_map_ownerId] at hbindings howned hreservations hownedReservations
  refine ⟨?_, hreserved.drainedFirst, hreserved.bound, hbindings, howned, hreservations, hownedReservations⟩
  intro binding hbinding
  refine ⟨?_, hreserved.heldBy_once hkeys hbinding⟩
  obtain ⟨row, hrow, hheld⟩ := hreserved.held binding hbinding
  obtain ⟨hname, howner, hstate⟩ := heldBy_iff.mp hheld
  apply countP_eq_one_of_key hkeys.reservationHostnames hrow
  · simp [hname, ReservationRow.activeBinding, hstate]
  · intro other hother
    rw [Bool.and_eq_true, decide_eq_true_eq] at hother
    rw [hother.1, hname]

/-- The hostname is deleted, refused a second before the drain ends, and bound again when it has ended. -/
def secondBinding : List HttpLabel := firstBinding ++ [.deleteBinding ⟨2, .user⟩ 20 .mine 2000000 2000001,
  .createBinding 2 ⟨"a.example.com".toList, 7, 81⟩ 21 ⟨361000000, 1, 1, []⟩,
  .createBinding 2 ⟨"a.example.com".toList, 7, 82⟩ 22 ⟨362000000, 1, 1, []⟩]

theorem secondBinding_drained : ∃ db, run step initial secondBinding = some db ∧
    db.bindings.map (fun row => (row.id, row.hostname.text)) = [(22, "a.example.com".toList)] ∧
    db.history.length = 4 ∧ EachAfter DrainedFirst db.history := by
  have hrun : (run step initial secondBinding).map
      (fun db => (db.bindings.map (fun row => (row.id, row.hostname.text)), db.history.length)) =
      some ([(22, "a.example.com".toList)], 4) := by
    decide +kernel
  obtain ⟨db, hdb, hobserved⟩ := Option.map_eq_some_iff.mp hrun
  obtain ⟨hbindings, hhistory⟩ := Prod.mk.inj hobserved
  exact ⟨db, hdb, hbindings, hhistory, (hostnames_drain_before_reuse hdb).2.1⟩

/-! ## Patches -/

/-- A patch of the hostname alone. -/
def renameRequest (text : List Char) : PatchBindingRequest := ⟨some text, none, none⟩

/-- The text of the request is read as the hostname. -/
def Requests (text : List Char) (hostname : Hostname) : Prop :=
  (parseHostnameText text >>= parseHttpProxyHostname) = .ok hostname

theorem nextHostname_eq (binding : BindingRow) (text : List Char) :
    nextHostname binding (some text) = parseHttpProxyHostname text := by
  show (if text = binding.hostname.text then Except.ok binding.hostname else parseHttpProxyHostname text) = _
  by_cases hsame : text = binding.hostname.text
  · rw [if_pos hsame, hsame, parseHttpProxyHostname, Hostname.normalize_text]
  · rw [if_neg hsame]

/-- A binding of an active owner and a new hostname for it: neither bound nor reserved, with room under the limits,
one label under an enabled pool, and no pool's domain lies under it. -/
structure Renamable (db : HttpDb) (binding : BindingRow) (hostname : Hostname) : Prop where
  bound : binding ∈ db.bindings
  active : db.assertRequesterActive binding.ownerId = .ok ()
  free : db.checkFree hostname binding.ownerId = .ok ()
  placed : ∃ pool ∈ db.pools, pool.enabled = true ∧ OneLabelUnder hostname.text pool.wildcardDomain.base
  covers : ∀ pool ∈ db.pools, ¬ Under '.' pool.wildcardDomain.base hostname.text

/-- In every state a run reaches, the patch to a new hostname never commits. -/
theorem rename_never_commits (hrun : run step initial labels = some db) (hrename : db.Renamable binding hostname)
    {text : List Char} (hrequest : Requests text hostname) (clock : ReserveClock) (releasedAt : Nat) (next : HttpDb) :
    db.updateBinding binding.ownerId binding.id (renameRequest text) clock releasedAt ≠ .ok next := by
  intro h
  have hne : hostname ≠ binding.hostname := fun heq => (checkFree_ok hrename.free).1 binding hrename.bound heq.symm
  have hfound : db.bindings.find? (fun row => decide (row.id = binding.id)) = some binding :=
    find?_key_eq_some (reserved_of_run hrun).1.bindingIds hrename.bound
  obtain ⟨parsed, hparsed, h⟩ := bind_eq_ok.mp h
  obtain ⟨⟨⟩, -, h⟩ := bind_eq_ok.mp h
  simp only [ensure_bind_eq_ok, hfound] at h
  obtain ⟨-, -, h⟩ := h
  obtain ⟨⟨⟩, -, h⟩ := bind_eq_ok.mp h
  obtain ⟨asked, hasked, h⟩ := bind_eq_ok.mp h
  obtain ⟨claimed, hclaimed, -⟩ := bind_eq_ok.mp h
  obtain ⟨trimmed, htrimmed, hname⟩ := bind_eq_ok.mp hrequest
  have hsome : parsed = some trimmed := by
    simp only [renameRequest, Option.mapM_some, htrimmed] at hparsed
    exact (Except.ok.inj hparsed).symm
  rw [hsome, nextHostname_eq, hname] at hasked
  obtain rfl := Except.ok.inj hasked
  -- the reservation is made while the old one is active for the same binding
  rw [claimHostname, if_neg hne] at hclaimed
  exact renameBinding_fails hne clock releasedAt claimed hclaimed

/-- Where `firstBinding` leads. -/
def boundDb : HttpDb where
  users := [⟨2, true, .user⟩, ⟨1, true, .admin⟩]
  containers := [⟨7, 2⟩]
  pools := [⟨10, ⟨"example.com".toList, by decide, by decide⟩, true, false, none⟩,
    ⟨11, ⟨"example.org".toList, by decide, by decide⟩, true, false, none⟩]
  bindings := [⟨20, ⟨"a.example.com".toList, by decide⟩, 10, 2, 7, 80⟩]
  reservations := [⟨⟨"a.example.com".toList, by decide⟩, 2, .active 20, 0⟩]
  history := [.bound ⟨"a.example.com".toList, by decide⟩ 1000002]

theorem run_firstBinding : run step initial firstBinding = some boundDb := by decide +kernel

theorem boundDb_renamable : boundDb.Renamable ⟨20, ⟨"a.example.com".toList, by decide⟩, 10, 2, 7, 80⟩
      ⟨"b.example.com".toList, by decide⟩ where
  bound := mem_singleton.mpr rfl
  active := rfl
  free := rfl
  placed := ⟨_, mem_cons_self, rfl, matches_iff.mp (by decide +kernel)⟩
  covers := by decide +kernel

theorem rename_to_b_never_commits : Requests "b.example.com".toList ⟨"b.example.com".toList, by decide⟩ ∧
    ∀ clock releasedAt next,
      boundDb.updateBinding 2 20 (renameRequest "b.example.com".toList) clock releasedAt ≠ .ok next :=
  ⟨rfl, rename_never_commits run_firstBinding boundDb_renamable rfl⟩

/-- A state with one binding, in which its active owner asks for a free hostname of an enabled pool: the patch is
refused. -/
theorem rename_refused : ∃ db binding hostname, run step initial firstBinding = some db ∧
    db.Renamable binding hostname ∧ Requests "b.example.com".toList hostname ∧
    db.updateBinding binding.ownerId binding.id (renameRequest "b.example.com".toList) ⟨3000000, 1, 1, []⟩ 3000003 =
      .error (.conflict none "Hostname is already occupied or draining") :=
  ⟨boundDb, _, _, run_firstBinding, boundDb_renamable, rfl, by decide +kernel⟩

end HttpDb

end Nyabase.Backend
