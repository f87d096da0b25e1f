import Nyabase.Backend.IpPools

/-!
# Claimed addresses and their pools

A patch or a deletion looks at the claims of its pool's network in several statements, with the row of the
pool locked.  Each look refuses what it finds; what it did not find can only come from a creation that commits
later.  So a claim that is still active at the end has passed every look: that is what a pool transaction
carries from its lock to its commit, claim by claim.

A creation takes no lock on the pool it allocates from, and a patch none that a creation takes.
-/

namespace Nyabase.Backend

open Lib List Option IpWorld NetworkClaim

/-- The claim lies in the pool: its network, its server, its range, and none of the blocked addresses. -/
structure IpPool.Hosts (pool : IpPool) (members : List (Uuid × Uuid)) (claim : NetworkClaim) : Prop where
  network : pool.cidr = claim.networkKey
  member : (pool.id, claim.serverId) ∈ members
  usable : pool.allocationCidr.isUsableHost claim.address = true
  gateway : claim.address ≠ pool.gateway
  reserved : claim.address ∉ pool.reservedIps

instance (pool : IpPool) (members : List (Uuid × Uuid)) (claim : NetworkClaim) : Decidable (pool.Hosts members claim) :=
  decidable_of_iff (pool.cidr = claim.networkKey ∧ (pool.id, claim.serverId) ∈ members ∧
      pool.allocationCidr.isUsableHost claim.address = true ∧ claim.address ≠ pool.gateway ∧
      claim.address ∉ pool.reservedIps)
    ⟨fun h => ⟨h.1, h.2.1, h.2.2.1, h.2.2.2.1, h.2.2.2.2⟩,
      fun h => ⟨h.network, h.member, h.usable, h.gateway, h.reserved⟩⟩

/-- Every active claim lies in a pool. -/
def IpTables.ClaimsInside (tables : IpTables) : Prop :=
  ∀ claim ∈ tables.claims, claim.state = .active → ∃ pool ∈ tables.pools, pool.Hosts tables.members claim

instance (tables : IpTables) : Decidable tables.ClaimsInside :=
  inferInstanceAs (Decidable (∀ claim ∈ tables.claims, _))

/-! ## The search for an address -/

/-- The signed network number and the low 32 bits of a sum give the sum. -/
theorem toUint32_toInt32_add {network offset : Nat} (h : network + offset < 2 ^ 32) :
    Common.toUint32 (Common.toInt32 network + (offset : Nat)) = network + offset := by
  unfold Common.toUint32 Common.toInt32
  omega

variable {allocation : Ipv4Cidr} {occupied : List Nat} {seed address : Nat}

/-- The search in numbers: the hosts of the range in a circle from the seed's, the first that is not occupied. -/
theorem searchAddress_eq : searchAddress allocation occupied seed =
    (List.range (min allocation.size 65536)).findSome? fun offset =>
      let address := allocation.network + (seed % max allocation.size 1 + offset) % allocation.size
      if allocation.isUsableHost address = true ∧ address ∉ occupied then some address else none := by
  have hsize : 0 < allocation.size := Nat.two_pow_pos _
  have hbounded : allocation.network + allocation.size ≤ 2 ^ 32 := allocation.bounded
  unfold searchAddress
  dsimp only
  generalize min allocation.size 65536 = bound
  refine congrArg (fun look => (List.range bound).findSome? look) (funext fun offset => ?_)
  have hmod := Nat.mod_lt (seed % max allocation.size 1 + offset) hsize
  generalize (seed % max allocation.size 1 + offset) % allocation.size = shift at hmod ⊢
  have hcandidate : Common.toUint32 (Common.toInt32 allocation.network + (shift : Nat)) =
      allocation.network + shift := toUint32_toInt32_add (by omega)
  have hnetwork : Common.toUint32 (Common.toInt32 allocation.network) = allocation.network := by
    have hlt : allocation.network + 0 < 2 ^ 32 := by omega
    have hzero := toUint32_toInt32_add hlt
    simpa using hzero
  have husable : allocation.isUsableHost (allocation.network + shift) = true ↔
      allocation.network + shift ≠ allocation.network ∧ allocation.network + shift ≠ allocation.broadcast := by
    rw [Ipv4Cidr.isUsableHost, decide_eq_true_eq, Ipv4Cidr.broadcast]
    omega
  rw [hcandidate, hnetwork, ← ite_not]
  simp only [husable, not_or, ne_eq, and_assoc]

theorem searchAddress_spec (h : searchAddress allocation occupied seed = some address) :
    allocation.isUsableHost address = true ∧ address ∉ occupied := by
  rw [searchAddress_eq] at h
  obtain ⟨offset, -, hoffset⟩ := List.exists_of_findSome?_eq_some h
  obtain ⟨hfree, rfl⟩ := of_guard hoffset
  exact hfree

/-- In a range that the search goes round it fails only when every usable host is occupied. -/
theorem occupied_of_searchAddress (hsmall : allocation.size ≤ 65536)
    (h : searchAddress allocation occupied seed = none) (husable : allocation.isUsableHost address = true) :
    address ∈ occupied := by
  rw [searchAddress_eq, List.findSome?_eq_none_iff, Nat.min_eq_left hsmall] at h
  dsimp only at h
  have hsize : 0 < allocation.size := Nat.two_pow_pos _
  have hrange := of_decide_eq_true husable
  unfold Ipv4Cidr.broadcast at hrange
  have hstart := Nat.mod_lt seed (show 0 < max allocation.size 1 by omega)
  generalize seed % max allocation.size 1 = start at h hstart
  -- the offset at which the circle from `start` comes to the address
  have hoffset := h ((address - allocation.network + (allocation.size - start)) % allocation.size)
    (mem_range.mpr (Nat.mod_lt _ hsize))
  have hround : (start + (address - allocation.network + (allocation.size - start)) % allocation.size) %
      allocation.size = address - allocation.network := by
    rw [Nat.add_mod_mod, show start + (address - allocation.network + (allocation.size - start)) =
      address - allocation.network + allocation.size by omega, Nat.add_mod_right, Nat.mod_eq_of_lt (by omega)]
  rw [hround, show allocation.network + (address - allocation.network) = address by omega, husable] at hoffset
  by_contra hfree
  rw [if_pos ⟨rfl, hfree⟩] at hoffset
  cases hoffset

/-- The address of a creation is usable in the range of its pool and not blocked there. -/
def IpPool.Offers (pool : IpPool) (address : Nat) : Prop :=
  pool.allocationCidr.isUsableHost address = true ∧ address ≠ pool.gateway ∧ address ∉ pool.reservedIps

variable {now : Nat} {claim : NetworkClaim}

theorem Creation.mem_occupied {creation : Creation} {pool : IpPool} {address : Nat} :
    address ∈ ((creation.visible pool.cidr).filter (NetworkClaim.occupies now)).map NetworkClaim.address ++
      pool.gateway :: pool.reservedIps ↔
    (∃ claim ∈ creation.visible pool.cidr, claim.occupies now = true ∧ claim.address = address) ∨
      address = pool.gateway ∨ address ∈ pool.reservedIps := by
  simp only [mem_append, List.mem_map, mem_filter, mem_cons, and_assoc]

theorem Creation.findAvailableAddress_offers {creation : Creation} {pool : IpPool} {address : Nat}
    (h : creation.findAvailableAddress pool now = some address) : pool.Offers address := by
  obtain ⟨husable, hfree⟩ := searchAddress_spec h
  obtain ⟨-, hblocked⟩ := not_or.mp (mt Creation.mem_occupied.mpr hfree)
  exact ⟨husable, not_or.mp hblocked⟩

/-- 10.0.0.0/30 with its second host for the gateway. -/
def lastHostPool : IpPool :=
  ⟨5, "", ⟨0x0a000000, 30, by decide, by decide, by decide⟩, ⟨0x0a000000, 30, by decide, by decide, by decide⟩,
    0x0a000002, [], 1⟩

/-- The address may be given to the creation: its pool offers it, and no claim that the transaction sees is active
or draining on it. -/
def Creation.Free (creation : Creation) (pool : IpPool) (now address : Nat) : Prop :=
  pool.Offers address ∧ ∀ claim ∈ creation.visible pool.cidr, claim.address = address → claim.counts now = false

/-- The drain of the claim ends within the millisecond of the clock's reading, after its start. -/
def NetworkClaim.EndsWithin (claim : NetworkClaim) (now : Nat) : Prop :=
  claim.state = .releasing ∧ ∃ time, claim.reusableAt = some time ∧ time / 1000 = now ∧ time % 1000 ≠ 0

/-- A claim that drains and does not occupy its address ends within the millisecond. -/
theorem NetworkClaim.counts_iff : claim.counts now = true ↔ claim.occupies now = true ∨ claim.EndsWithin now := by
  unfold counts occupies EndsWithin
  cases hstate : claim.state with
  | active => simp
  | releasing =>
    cases hreusable : claim.reusableAt with
    | none => simp
    | some time =>
      simp
      omega

/-- The seed that begins the search at a usable host. -/
theorem searchAddress_from (husable : allocation.isUsableHost address = true) (hfree : address ∉ occupied) :
    searchAddress allocation occupied (address - allocation.network) = some address := by
  have hsize : 0 < allocation.size := Nat.two_pow_pos _
  have hrange := of_decide_eq_true husable
  unfold Ipv4Cidr.broadcast at hrange
  obtain ⟨bound, hbound⟩ := Nat.exists_eq_add_one_of_ne_zero (show min allocation.size 65536 ≠ 0 by omega)
  have hstart : allocation.network + ((address - allocation.network) % max allocation.size 1 + 0) % allocation.size =
      address := by
    rw [Nat.max_eq_left hsize, Nat.add_zero, Nat.mod_mod, Nat.mod_eq_of_lt (by omega)]
    omega
  rw [searchAddress_eq, hbound, List.range_succ_eq_map, List.findSome?_cons]
  simp only [hstart, if_pos (And.intro husable hfree)]

/-- For every container the address found is free, exactly when no claim on an address that could be given away ends
within the millisecond of the clock's reading; and in a range of at most 65536 addresses one is found if there is
one. -/
theorem address_search_exact (creation : Creation) (pool : IpPool) (now : Nat) :
    ((∀ containerId address, { creation with containerId }.findAvailableAddress pool now = some address →
        creation.Free pool now address) ↔
      ∀ claim ∈ creation.visible pool.cidr, pool.Offers claim.address → claim.EndsWithin now →
        ∃ other ∈ creation.visible pool.cidr, other.occupies now = true ∧ other.address = claim.address) ∧
      (pool.allocationCidr.size ≤ 65536 → creation.findAvailableAddress pool now = none →
        ∀ address, ¬creation.Free pool now address) := by
  refine ⟨⟨?_, ?_⟩, ?_⟩
  · intro hsound claim hclaim hoffers hends
    by_contra hnone
    obtain ⟨husable, hgateway, hreserved⟩ := hoffers
    -- a container whose id begins the search at the address
    have hfound : { creation with
        containerId := (claim.address - pool.allocationCidr.network) * 2 ^ 96 }.findAvailableAddress pool now =
          some claim.address := by
      have hseed : addressSeed ((claim.address - pool.allocationCidr.network) * 2 ^ 96) =
          claim.address - pool.allocationCidr.network := Nat.mul_div_cancel _ (Nat.two_pow_pos 96)
      show searchAddress _ _ (addressSeed _) = _
      rw [hseed]
      exact searchAddress_from husable fun hmem =>
        (Creation.mem_occupied.mp hmem).elim hnone (not_or.mpr ⟨hgateway, hreserved⟩)
    have hcounts := (hsound _ _ hfound).2 claim hclaim rfl
    rw [NetworkClaim.counts_iff.mpr (.inr hends)] at hcounts
    cases hcounts
  · intro hwhole containerId address h
    have hoffers := Creation.findAvailableAddress_offers h
    have hfree : ∀ claim ∈ creation.visible pool.cidr, claim.address = address → ¬ claim.occupies now = true :=
      fun claim hclaim haddress hoccupies =>
        (searchAddress_spec h).2 (Creation.mem_occupied.mpr (.inl ⟨claim, hclaim, hoccupies, haddress⟩))
    refine ⟨hoffers, fun claim hclaim haddress => ?_⟩
    rw [Bool.eq_false_iff]
    intro hcounts
    rcases NetworkClaim.counts_iff.mp hcounts with hoccupies | hends
    · exact hfree claim hclaim haddress hoccupies
    · obtain ⟨other, hother, hoccupies, hsame⟩ := hwhole claim hclaim (haddress ▸ hoffers) hends
      exact hfree other hother (hsame.trans haddress) hoccupies
  · rintro hsmall h address ⟨⟨husable, hgateway, hreserved⟩, hclaims⟩
    rcases Creation.mem_occupied.mp (occupied_of_searchAddress hsmall h husable) with
      ⟨claim, hclaim, hoccupies, haddress⟩ | hblocked | hmem
    · have hnot := hclaims claim hclaim haddress
      rw [NetworkClaim.counts_iff.mpr (.inl hoccupies)] at hnot
      cases hnot
    · exact hgateway hblocked
    · exact hreserved hmem

/-- A creation that sees one claim on 10.0.0.1, in a pool that has only this address left to give. -/
def drainingCreation (reusableAt : Nat) : Creation :=
  ⟨1, 2, 3, ⟨[], [], [⟨4, none, 1, lastHostPool.cidr, 0x0a000001, .releasing, some reusableAt⟩]⟩, [], .targets⟩

/-- The drain ends 0.5 ms after the clock's reading of 1 ms, and the address is given away. -/
theorem draining_address_found : ∃ claim ∈ (drainingCreation 1500).visible lastHostPool.cidr,
    claim.counts 1 = true ∧ (drainingCreation 1500).findAvailableAddress lastHostPool 1 = some claim.address := by
  decide +kernel

/-! ## What a check says of one claim -/

/-- The check would let the claim be. -/
def PoolCheck.Allows (claim : NetworkClaim) : PoolCheck → Prop
  | .unclaimed _ => False
  | .lockTopology | .disjoint _ _ | .serversExist _ => True
  | .addressesFree _ addresses => claim.address ∉ addresses
  | .claimsUsable _ allocation => allocation.isUsableHost claim.address = true
  | .membership _ _ serverIds => claim.serverId ∈ serverIds
  | .serverUnclaimed _ serverId => claim.serverId ≠ serverId

/-- The check is one of a transaction on this pool. -/
def PoolCheck.About (current : IpPool) : PoolCheck → Prop
  | .unclaimed network | .addressesFree network _ | .claimsUsable network _ | .serverUnclaimed network _ =>
    network = current.cidr
  | .membership poolId network _ => poolId = current.id ∧ network = current.cidr
  | .lockTopology | .disjoint _ _ | .serversExist _ => True

/-- After the write the pool still hosts a claim that it hosts now. -/
def PoolWrite.Keeps (current : IpPool) (claim : NetworkClaim) : PoolWrite → Prop
  | .update next serverIds =>
    next.id = current.id ∧ next.cidr = current.cidr ∧ next.Offers claim.address ∧
      ∀ servers ∈ serverIds, claim.serverId ∈ servers
  | .delete => False

theorem NetworkClaim.counts_of_active (h : claim.state = .active) (now : Nat) : claim.counts now = true := by
  simp [counts, h]

theorem IpTables.mem_listClaimAddresses {tables : IpTables} (hclaim : claim ∈ tables.claims)
    (hactive : claim.state = .active) : claim.address ∈ tables.listClaimAddresses claim.networkKey now := by
  apply List.mem_map.mpr
  refine ⟨claim, mem_filter.mpr ⟨?_, counts_of_active hactive now⟩, rfl⟩
  exact mem_filter.mpr ⟨hclaim, decide_eq_true rfl⟩

/-- No claim is counted where one is active. -/
theorem IpTables.countClaims_ne_zero {tables : IpTables} {serverId : Option Uuid} (hclaim : claim ∈ tables.claims)
    (hactive : claim.state = .active) (hserver : ∀ server ∈ serverId, claim.serverId = server) :
    tables.countClaims claim.networkKey serverId now ≠ 0 := by
  intro hzero
  have hnone := countP_eq_zero.mp hzero claim
    (mem_filter.mpr ⟨hclaim, decide_eq_true rfl⟩)
  rw [counts_of_active hactive now, Bool.true_and] at hnone
  cases serverId with
  | none => exact hnone rfl
  | some server =>
    have hsame : claim.serverId = server := hserver server rfl
    exact hnone (by simp [hsame])

/-- A check that lets the transaction go on, and the ones it leads to, let every active claim of the
network be. -/
theorem PoolCheck.allows_of_run {world : IpWorld} {check : PoolCheck} {more : List PoolCheck} {current : IpPool}
    (habout : check.About current) (hrun : world.runCheck now check = some more) (hclaim : claim ∈ world.claims)
    (hactive : claim.state = .active) (hhosts : current.Hosts world.members claim)
    (hmore : ∀ next ∈ more, next.Allows claim) : check.Allows claim := by
  have hkey : ∀ {network}, network = current.cidr → network = claim.networkKey := (·.trans hhosts.network)
  revert hrun
  fun_cases runCheck world now check with
  | case1 network hzero =>
    obtain rfl := hkey habout
    exact absurd hzero (IpTables.countClaims_ne_zero hclaim hactive fun _ hnone => absurd hnone (by simp))
  | case7 network addresses hnone =>
    obtain rfl := hkey habout
    exact fun _ hblocked => hnone (any_eq_true.mpr ⟨claim.address,
      IpTables.mem_listClaimAddresses hclaim hactive, decide_eq_true hblocked⟩)
  | case8 network allocation hall =>
    obtain rfl := hkey habout
    exact fun _ => all_eq_true.mp hall claim.address (IpTables.mem_listClaimAddresses hclaim hactive)
  | case12 poolId network serverIds =>
    obtain ⟨rfl, rfl⟩ : poolId = current.id ∧ network = current.cidr := habout
    rintro ⟨⟩
    by_contra hremoved
    -- the server is one that is to be removed, so it is looked at
    have hmember : claim.serverId ∈ world.listServerIds current.id := List.mem_map.mpr ⟨(current.id, claim.serverId),
        mem_filter.mpr ⟨hhosts.member, beq_iff_eq.mpr rfl⟩, rfl⟩
    have hnext : PoolCheck.serverUnclaimed current.cidr claim.serverId ∈
        ((world.listServerIds current.id).filter fun server => decide (server ∉ serverIds)).map
          (PoolCheck.serverUnclaimed current.cidr) :=
      List.mem_map.mpr ⟨claim.serverId, mem_filter.mpr ⟨hmember, decide_eq_true hremoved⟩, rfl⟩
    exact hmore _ hnext rfl
  | case13 network serverId hzero =>
    obtain rfl := hkey habout
    intro _ hserver
    refine absurd hzero (IpTables.countClaims_ne_zero hclaim hactive ?_)
    intro server hmem
    rw [hserver]
    exact some.inj hmem
  | case3 | case4 | case10 => exact fun _ => trivial
  | _ => nofun

theorem PoolCheck.about_of_run {world : IpWorld} {check : PoolCheck} {more : List PoolCheck} {current : IpPool}
    (habout : check.About current) (hrun : world.runCheck now check = some more) :
    ∀ next ∈ more, next.About current := by
  revert hrun
  fun_cases runCheck world now check with
  | case12 poolId network serverIds =>
    rintro ⟨⟩ next hnext
    obtain ⟨server, -, rfl⟩ := mem_map.mp hnext
    exact habout.2
  | _ => rintro ⟨⟩ <;> simp

/-! ## What the checks of a patch are for -/

namespace PatchIpPoolRequest

variable {input : PatchIpPoolRequest} {current : IpPool} {claim : NetworkClaim}

theorem checks_about : ∀ check ∈ input.checks current, check.About current := by
  unfold checks cidrChecks blockedChecks allocationChecks memberChecks
  -- which checks there are is decided by what the patch changes
  repeat' split
  all_goals simp [PoolCheck.About]

theorem cidr_kept (hall : ∀ check ∈ input.cidrChecks current, check.Allows claim) :
    (input.next current).cidr = current.cidr := by
  by_contra hchanged
  have hgiven : input.cidr.isSome = true := by
    cases hcidr : input.cidr with
    | none => exact absurd (by simp [next, hcidr]) hchanged
    | some cidr => rfl
  unfold cidrChecks at hall
  rw [if_pos ⟨hgiven, hchanged⟩] at hall
  exact hall _ mem_cons_self

theorem blocked_free (hall : ∀ check ∈ input.blockedChecks current, check.Allows claim) :
    claim.address ∉ input.newlyBlocked current := by
  unfold blockedChecks at hall
  split at hall
  · rename_i hnone
    rw [hnone]
    exact not_mem_nil
  · exact hall _ mem_cons_self

theorem allocation_usable (hall : ∀ check ∈ input.allocationChecks current, check.Allows claim)
    (husable : current.allocationCidr.isUsableHost claim.address = true) :
    (input.next current).allocationCidr.isUsableHost claim.address = true := by
  by_cases hsame : (input.next current).allocationCidr = current.allocationCidr
  · rw [hsame]
    exact husable
  have hgiven : input.allocationCidr.isSome = true := by
    cases hallocation : input.allocationCidr with
    | none => exact absurd (by simp [next, hallocation]) hsame
    | some cidr => rfl
  unfold allocationChecks at hall
  rw [if_pos ⟨hgiven, hsame⟩] at hall
  exact hall _ mem_cons_self

theorem offers_of_blocked_free (hoffers : current.Offers claim.address)
    (husable : (input.next current).allocationCidr.isUsableHost claim.address = true)
    (hfree : claim.address ∉ input.newlyBlocked current) : (input.next current).Offers claim.address := by
  refine ⟨husable, ?_, ?_⟩
  · intro hgateway
    by_cases hsame : (input.next current).gateway = current.gateway
    · exact hoffers.2.1 (hgateway.trans hsame)
    apply hfree
    unfold newlyBlocked
    rw [if_neg hsame, hgateway]
    exact mem_append_left _ mem_cons_self
  · intro hreserved
    apply hfree
    exact mem_append_right _ (mem_filter.mpr ⟨hreserved, decide_eq_true hoffers.2.2⟩)

theorem members_kept (hall : ∀ check ∈ input.memberChecks current, check.Allows claim) :
    ∀ servers ∈ input.serverIds, claim.serverId ∈ servers := by
  intro servers hservers
  have hsome : input.serverIds = some servers := hservers
  unfold memberChecks at hall
  rw [hsome] at hall
  exact hall (.membership current.id current.cidr servers) (mem_cons_of_mem _ mem_cons_self)

/-- The checks of a patch are enough: the new row hosts every claim that they all let be. -/
theorem keeps_of_checks {members : List (Uuid × Uuid)} (hhosts : current.Hosts members claim)
    (hall : ∀ check ∈ input.checks current, check.Allows claim) :
    (PoolWrite.update (input.next current) input.serverIds).Keeps current claim := by
  have hoffers : current.Offers claim.address := ⟨hhosts.usable, hhosts.gateway, hhosts.reserved⟩
  have hmember := members_kept fun check hcheck => hall check (mem_append_right _ hcheck)
  by_cases hchanges : input.changesNetwork = true
  · have hnetwork : ∀ check ∈ input.cidrChecks current ++ input.blockedChecks current ++
        input.allocationChecks current, check.Allows claim := by
      intro check hcheck
      apply hall
      unfold checks
      rw [if_pos hchanges]
      exact mem_append_left _ hcheck
    have hcidr := cidr_kept fun check hcheck =>
      hnetwork check (mem_append_left _ (mem_append_left _ hcheck))
    have hfree := blocked_free fun check hcheck =>
      hnetwork check (mem_append_left _ (mem_append_right _ hcheck))
    have husable := allocation_usable
      (fun check hcheck => hnetwork check (mem_append_right _ hcheck)) hhosts.usable
    exact ⟨rfl, hcidr, offers_of_blocked_free hoffers husable hfree, hmember⟩
  · -- the patch names no network field
    simp only [changesNetwork, Bool.or_eq_true, not_or, not_isSome_iff_eq_none] at hchanges
    obtain ⟨⟨⟨hcidr, hallocation⟩, hgateway⟩, hreserved⟩ := hchanges
    refine ⟨rfl, by simp [next, hcidr], ?_, hmember⟩
    simpa [IpPool.Offers, next, hallocation, hgateway, hreserved] using hoffers

end PatchIpPoolRequest

/-! ## The invariant -/

/-- The database enforces the keys; the rest is what the transactions keep up. -/
structure IpTables.Inv (tables : IpTables) : Prop where
  ids : (tables.pools.map IpPool.id).Nodup
  cidrs : (tables.pools.map IpPool.cidr).Nodup
  inside : tables.ClaimsInside

/-- A pool transaction: its row is locked and as it read it, and a claim that the remaining checks let be
is kept by its write. -/
structure PoolTx.Inv (tables : IpTables) (locks : IpLock → Option Nat) (tx : Nat) (state : PoolTx) : Prop where
  locked : locks (.pool state.current.id) = some tx
  row : state.current ∈ tables.pools
  same : ∀ next serverIds, state.write = .update next serverIds → next.id = state.current.id
  about : ∀ check ∈ state.checks, check.About state.current
  keeps : ∀ claim ∈ tables.claims, claim.state = .active → state.current.Hosts tables.members claim →
    (∀ check ∈ state.checks, check.Allows claim) → state.write.Keeps state.current claim

def CreationPhase.Inv : CreationPhase → Prop
  | .inserting pool address | .inserted pool address => pool.Offers address
  | _ => True

def IpTx.Inv (tables : IpTables) (locks : IpLock → Option Nat) (tx : Nat) : IpTx → Prop
  | .creation started => started.phase.Inv
  | .pool started => started.Inv tables locks tx

namespace IpWorld

structure Inv (world : IpWorld) : Prop where
  tables : world.toIpTables.Inv
  txs : ∀ tx state, world.txs tx = some state → state.Inv world.toIpTables world.locks tx

variable {world next : IpWorld} {tx : Nat}

theorem initial_inv (servers : List Uuid) : (initial servers).Inv where
  tables := ⟨nodup_nil, nodup_nil, nofun⟩
  txs := fun _ _ hnone => absurd hnone (some_ne_none _).symm

/-! ### Locks and phases -/

/-- Locks that a transaction takes leave the others theirs. -/
theorem Inv.lock (h : world.Inv) {locks : IpLock → Option Nat}
    (hkept : ∀ other lock, world.locks lock = some other → locks lock = some other) :
    { world with locks }.Inv := { h with
  txs := by
    intro other state hstate
    have hinv := h.txs other state hstate
    cases state with
    | creation creation => exact hinv
    | pool state => exact { hinv with locked := hkept other _ hinv.locked } }

theorem Inv.acquire (h : world.Inv) {lock : IpLock} (havailable : world.available tx lock = true) :
    (world.acquire tx lock).Inv := by
  apply h.lock
  intro other taken hother
  by_cases hsame : taken = lock
  · subst hsame
    rw [Function.update_self]
    simp only [available, hother, Bool.or_eq_true, beq_iff_eq, reduceCtorEq, false_or] at havailable
    exact havailable.symm
  · rw [Function.update_of_ne hsame]
    exact hother

theorem Inv.setTx (h : world.Inv) {state : IpTx} (hstate : state.Inv world.toIpTables world.locks tx) :
    (world.setTx tx state).Inv := { h with
  txs := by
    intro other entered hentered
    rcases update_eq_some hentered with ⟨rfl, ⟨⟩⟩ | ⟨-, hold⟩
    · exact hstate
    · exact h.txs other entered hold }

variable {creation : Creation}

theorem Inv.enter (h : world.Inv) {phase : CreationPhase} (hphase : phase.Inv) :
    (world.enter tx creation phase).Inv := by
  apply h.setTx
  exact hphase

/-- A pool transaction goes on under the tables. -/
def Spares (world : IpWorld) (tables : IpTables) (other : Nat) : Prop :=
  ∀ state, world.txs other = some (.pool state) → state.Inv world.toIpTables world.locks other →
    state.Inv tables world.locks other

/-- Tables that keep up the invariant and spare the transactions. -/
theorem Inv.setTables (h : world.Inv) {tables : IpTables} (htables : tables.Inv)
    (hspares : ∀ other, world.Spares tables other) : (world.setTables tables).Inv where
  tables := htables
  txs := by
    intro other state hstate
    have hinv := h.txs other state hstate
    cases state with
    | creation creation => exact hinv
    | pool state => exact hspares other state hstate hinv

/-- Tables that spare the transactions other than `tx`, which has come to its end. -/
theorem Inv.commit (h : world.Inv) {tables : IpTables} (htables : tables.Inv)
    (hspares : ∀ other, other ≠ tx → world.Spares tables other) : ((world.setTables tables).finish tx).Inv where
  tables := htables
  txs := by
    intro other state hstate
    rcases update_eq_some hstate with ⟨-, ⟨⟩⟩ | ⟨hother, hstate⟩
    have hinv := h.txs other state hstate
    cases state with
    | creation creation => exact hinv
    | pool state =>
      refine { hspares other hother state hstate hinv with locked := ?_ }
      show (if world.locks (.pool state.current.id) = some tx then none
        else world.locks (.pool state.current.id)) = some other
      have hlocked : world.locks (.pool state.current.id) = some other := hinv.locked
      rw [hlocked, if_neg (fun heq => hother (some.inj heq))]

theorem Inv.finish (h : world.Inv) : (world.finish tx).Inv :=
  h.commit h.tables fun _ _ _ _ hinv => hinv

/-! ### Pools -/

variable {state : PoolTx} {poolId : Uuid} {label : IpLabel}

theorem Inv.lockPool (h : world.Inv) {start : IpPool → Option PoolTx}
    (hstart : ∀ current state, start current = some state → state.current = current ∧
      (∀ next serverIds, state.write = .update next serverIds → next.id = current.id) ∧
      (∀ check ∈ state.checks, check.About current) ∧
      ∀ claim members, current.Hosts members claim → (∀ check ∈ state.checks, check.Allows claim) →
      state.write.Keeps current claim) (hstep : world.lockPool tx poolId start = some next) : next.Inv := by
  obtain ⟨hready, hstep⟩ := ite_none_right_eq_some.mp hstep
  split at hstep
  · rename_i state hfound
    cases hstep
    obtain ⟨current, hcurrent, hstate⟩ := bind_eq_some_iff.mp hfound
    have hid := List.find?_some hcurrent
    obtain ⟨rfl, hsame, habout, hkeeps⟩ := hstart current state hstate
    have hlocked : (world.acquire tx (.pool poolId)).Inv := h.acquire hready.2
    apply hlocked.setTx
    refine ⟨?_, List.mem_of_find?_eq_some hcurrent, hsame, habout, fun claim _ _ => hkeeps claim _⟩
    rw [beq_iff_eq.mp hid]
    exact Function.update_self ..
  · cases hstep
    exact h

theorem Inv.patch (h : world.Inv) {input : PatchIpPoolRequest}
    (hstep : world.lockPool tx poolId (startPatch input) = some next) : next.Inv := by
  refine h.lockPool ?_ hstep
  intro current state hstate
  obtain ⟨-, rfl⟩ := of_guard hstate
  refine ⟨rfl, ?_, PatchIpPoolRequest.checks_about, fun _ _ => PatchIpPoolRequest.keeps_of_checks⟩
  intro next serverIds hwrite
  obtain ⟨rfl, -⟩ := PoolWrite.update.inj hwrite
  rfl

theorem Inv.delete (h : world.Inv) (hstep : world.lockPool tx poolId startDelete = some next) : next.Inv := by
  refine h.lockPool ?_ hstep
  intro current state hstate
  cases hstate
  refine ⟨rfl, fun _ _ hwrite => PoolWrite.noConfusion hwrite, ?_, ?_⟩
  · intro check hcheck
    obtain rfl := mem_singleton.mp hcheck
    exact rfl
  · intro claim members _ hall
    exact hall _ mem_cons_self

theorem takeTopology_tables (check : PoolCheck) : (world.takeTopology tx check).toIpTables = world.toIpTables := by
  unfold takeTopology
  split <;> rfl

theorem takeTopology_pool (check : PoolCheck) (poolId : Uuid) :
    (world.takeTopology tx check).locks (.pool poolId) = world.locks (.pool poolId) := by
  unfold takeTopology
  split
  · have hne : IpLock.pool poolId ≠ .topology := by simp
    show Function.update world.locks .topology (some tx) (.pool poolId) = world.locks (.pool poolId)
    rw [Function.update_of_ne hne]
  · rfl

theorem Inv.takeTopology (h : world.Inv) {check : PoolCheck}
    (hfree : ¬ (check = .lockTopology ∧ world.available tx .topology = false)) : (world.takeTopology tx check).Inv := by
  unfold IpWorld.takeTopology
  split
  · rename_i hcheck
    apply h.acquire
    rw [← Bool.not_eq_false]
    exact fun hunavailable => hfree ⟨hcheck, hunavailable⟩
  · exact h

theorem Inv.check (h : world.Inv) {state : PoolTx} {now : Nat} (hstate : world.txs tx = some (.pool state))
    (hstep : world.check tx state now = some next) : next.Inv := by
  have hinv : state.Inv world.toIpTables world.locks tx := h.txs tx _ hstate
  unfold IpWorld.check at hstep
  split at hstep
  · cases hstep
  rename_i first rest hchecks
  obtain ⟨hfree, hstep⟩ := ite_none_left_eq_some.mp hstep
  split at hstep
  · rename_i more hmore
    cases hstep
    have hfirst : first.About state.current := hinv.about first (by rw [hchecks]; exact mem_cons_self)
    apply (h.takeTopology hfree).setTx
    refine ⟨?_, ?_, hinv.same, ?_, ?_⟩
    · rw [takeTopology_pool]
      exact hinv.locked
    · rw [takeTopology_tables]
      exact hinv.row
    · intro check hcheck
      rcases mem_append.mp hcheck with hnew | hrest
      · exact PoolCheck.about_of_run hfirst hmore check hnew
      · exact hinv.about check (by rw [hchecks]; exact mem_cons_of_mem _ hrest)
    · rw [takeTopology_tables]
      intro claim hclaim hactive hhosts hall
      -- the check that has just passed lets the claim be, too
      have hallows : first.Allows claim := PoolCheck.allows_of_run hfirst hmore hclaim hactive hhosts
        fun check hcheck => hall check (mem_append_left _ hcheck)
      refine hinv.keeps claim hclaim hactive hhosts ?_
      intro check hcheck
      rw [hchecks] at hcheck
      rcases mem_cons.mp hcheck with rfl | hrest
      · exact hallows
      · exact hall check (mem_append_right _ hrest)
  · cases hstep
    exact h.finish

variable {serverIds : Option (List Uuid)}

/-- A row that hosts what the write keeps. -/
theorem hosts_after_update {current pool : IpPool} {claim : NetworkClaim}
    (hkeeps : (PoolWrite.update pool serverIds).Keeps current claim) (hhosts : current.Hosts world.members claim) :
    pool.Hosts (world.replaceServers pool.id serverIds) claim where
  network := hkeeps.2.1.trans hhosts.network
  member := by
    cases serverIds with
    | none =>
      rw [hkeeps.1]
      exact hhosts.member
    | some servers =>
      exact mem_append_right _ (List.mem_map.mpr ⟨claim.serverId, hkeeps.2.2.2 servers rfl, rfl⟩)
  usable := hkeeps.2.2.1.1
  gateway := hkeeps.2.2.1.2.1
  reserved := hkeeps.2.2.1.2.2

/-- Members of other pools are left alone. -/
theorem mem_replaceServers {otherId server : Uuid} (hother : otherId ≠ poolId) :
    (otherId, server) ∈ world.replaceServers poolId serverIds ↔ (otherId, server) ∈ world.members := by
  unfold replaceServers
  cases serverIds with
  | none => exact Iff.rfl
  | some servers =>
    rw [mem_append, mem_filter]
    constructor
    · rintro (hmem | hnew)
      · exact hmem.1
      · obtain ⟨_, -, heq⟩ := mem_map.mp hnew
        exact absurd (Prod.mk.inj heq).1.symm hother
    · intro hmem
      exact .inl ⟨hmem, by simpa using hother⟩

/-! ### Writes -/

/-- What a commit may change under a pool transaction that is under way: neither its row, nor the members of
its pool, nor may it add active claims to its network. -/
theorem PoolTx.Inv.mono {tables after : IpTables} {locks : IpLock → Option Nat} (h : state.Inv tables locks tx)
    (hrow : state.current ∈ after.pools)
    (hmembers : ∀ server, (state.current.id, server) ∈ after.members → (state.current.id, server) ∈ tables.members)
    (hclaims : ∀ claim ∈ after.claims, claim.state = .active → claim.networkKey = state.current.cidr →
      claim ∈ tables.claims) : state.Inv after locks tx := { h with
  row := hrow
  keeps := by
    intro claim hclaim hactive hhosts hall
    have hbefore := hclaims claim hclaim hactive hhosts.network.symm
    exact h.keeps claim hbefore hactive
      { hhosts with member := hmembers _ hhosts.member } hall }

/-- The unique index on the CIDRs lets the update through. -/
theorem nodup_cidrs_update (h : world.toIpTables.Inv) {updated : IpPool}
    (hunique : ∀ pool ∈ world.pools, pool.id = updated.id ∨ pool.cidr ≠ updated.cidr) :
    ((updateWhere world.pools (fun pool => pool.id == updated.id) fun _ => updated).map IpPool.cidr).Nodup := by
  have hboth := (pairwise_map.mp h.ids).and (pairwise_map.mp h.cidrs)
  rw [updateWhere, List.map_map, List.Nodup, pairwise_map]
  refine hboth.imp_of_mem ?_
  intro a b ha hb hne
  show (if a.id == updated.id then updated else a).cidr ≠ (if b.id == updated.id then updated else b).cidr
  by_cases hida : a.id = updated.id
  · have hidb : b.id ≠ updated.id := fun heq => hne.1 (hida.trans heq.symm)
    rw [if_pos (beq_iff_eq.mpr hida), if_neg (by simpa using hidb)]
    exact ((hunique b hb).resolve_left hidb).symm
  rw [if_neg (by simpa using hida)]
  by_cases hidb : b.id = updated.id
  · rw [if_pos (beq_iff_eq.mpr hidb)]
    exact (hunique a ha).resolve_left hida
  · rw [if_neg (by simpa using hidb)]
    exact hne.2

section

variable (h : world.Inv)

include h

/-- Another pool transaction has another row. -/
theorem Inv.current_ne {other : Nat} (hstate : world.txs other = some (.pool state))
    (hlocked : world.locks (.pool poolId) = some tx) (hother : other ≠ tx) : state.current.id ≠ poolId := by
  intro heq
  have hinv : state.Inv world.toIpTables world.locks other := h.txs other _ hstate
  have hboth := hinv.locked
  rw [heq, hlocked] at hboth
  exact hother (some.inj hboth).symm

theorem Inv.update {state : PoolTx} {updated : IpPool}
    (hstate : world.txs tx = some (.pool state)) (hchecks : state.checks = [])
    (hwrite : state.write = .update updated serverIds)
    (hunique : ∀ pool ∈ world.pools, pool.id = updated.id ∨ pool.cidr ≠ updated.cidr) :
    ((world.setTables { world.toIpTables with
      pools := updateWhere world.pools (fun pool => pool.id == updated.id) fun _ => updated
      members := world.replaceServers updated.id serverIds }).finish tx).Inv := by
  have hinv : state.Inv world.toIpTables world.locks tx := h.txs tx _ hstate
  have hid : updated.id = state.current.id := hinv.same updated serverIds hwrite
  have hkept : ∀ pool ∈ world.pools, pool.id ≠ updated.id →
      pool ∈ updateWhere world.pools (fun pool => pool.id == updated.id) fun _ => updated :=
    fun pool hpool hne => mem_updateWhere_of_not hpool (by simpa using hne)
  apply h.commit
  · refine ⟨?_, nodup_cidrs_update h.tables hunique, ?_⟩
    · exact nodup_map_key_updateWhere h.tables.ids fun pool hcondition => (beq_iff_eq.mp hcondition).symm
    intro claim hclaim hactive
    obtain ⟨pool, hpool, hhosts⟩ := h.tables.inside claim hclaim hactive
    by_cases hsame : pool.id = updated.id
    · obtain rfl : pool = state.current :=
        eq_of_key_eq h.tables.ids hpool hinv.row (hsame.trans hid)
      have hkeeps := hinv.keeps claim hclaim hactive hhosts fun check hcheck =>
        absurd (hchecks ▸ hcheck) not_mem_nil
      rw [hwrite] at hkeeps
      refine ⟨updated, ?_, hosts_after_update hkeeps hhosts⟩
      exact mem_updateWhere.mpr ⟨state.current, hpool, if_pos (beq_iff_eq.mpr hsame)⟩
    · refine ⟨pool, hkept pool hpool hsame, ?_⟩
      exact ⟨hhosts.network, (mem_replaceServers hsame).mpr hhosts.member, hhosts.usable, hhosts.gateway,
        hhosts.reserved⟩
  · intro other hother started hstarted hbefore
    have hne : started.current.id ≠ updated.id := by
      rw [hid]
      exact h.current_ne hstarted hinv.locked hother
    exact PoolTx.Inv.mono hbefore (hkept _ hbefore.row hne) (fun _ => (mem_replaceServers hne).mp)
      fun claim hclaim _ _ => hclaim

theorem Inv.deletePool (hstate : world.txs tx = some (.pool state))
    (hchecks : state.checks = []) (hwrite : state.write = .delete) :
    ((world.setTables { world.toIpTables with
      pools := deleteWhere world.pools fun pool => pool.id == state.current.id
      members := world.members.filter fun member => member.1 != state.current.id }).finish tx).Inv := by
  have hinv : state.Inv world.toIpTables world.locks tx := h.txs tx _ hstate
  apply h.commit
  · refine ⟨nodup_map_key_deleteWhere h.tables.ids, nodup_map_key_deleteWhere h.tables.cidrs, ?_⟩
    intro claim hclaim hactive
    obtain ⟨pool, hpool, hhosts⟩ := h.tables.inside claim hclaim hactive
    by_cases hsame : pool.id = state.current.id
    · -- the count of the claims was zero
      obtain rfl : pool = state.current := eq_of_key_eq h.tables.ids hpool hinv.row hsame
      have hkeeps := hinv.keeps claim hclaim hactive hhosts fun check hcheck =>
        absurd (hchecks ▸ hcheck) not_mem_nil
      rw [hwrite] at hkeeps
      exact hkeeps.elim
    · refine ⟨pool, mem_deleteWhere.mpr ⟨hpool, by simpa using hsame⟩, ?_⟩
      refine { hhosts with member := ?_ }
      exact mem_filter.mpr ⟨hhosts.member, by simpa using hsame⟩
  · intro other hother started hstarted hbefore
    have hne := h.current_ne hstarted hinv.locked hother
    exact PoolTx.Inv.mono hbefore (mem_deleteWhere.mpr ⟨hbefore.row, by simpa using hne⟩)
      (fun _ hserver => (mem_filter.mp hserver).1) fun claim hclaim _ _ => hclaim

theorem Inv.commitPool (hstate : world.txs tx = some (.pool state))
    (hstep : world.commitPool tx state = some next) : next.Inv := by
  obtain ⟨hchecks, hstep⟩ := ite_none_right_eq_some.mp hstep
  split at hstep
  · rename_i tables htables
    cases hstep
    unfold writePool at htables
    split at htables
    · rename_i updated serverIds hwrite
      obtain ⟨hall, rfl⟩ := of_guard htables
      apply h.update hstate hchecks hwrite
      intro pool hpool
      have hpoolAll := all_eq_true.mp hall pool hpool
      rcases Bool.or_eq_true_iff.mp hpoolAll with hid | hcidr
      · exact .inl (beq_iff_eq.mp hid)
      · exact .inr (of_decide_eq_true hcidr).1
    · rename_i hwrite
      cases htables
      exact h.deletePool hstate hchecks hwrite
  · cases hstep
    exact h.finish

theorem Inv.createPool {id : Uuid} {request : CreateIpPoolRequest}
    (hstep : world.createPool id request = some next) : next.Inv := by
  obtain ⟨hready, rfl⟩ := of_guard hstep
  have hnew : ∀ pool ∈ world.pools, pool.id ≠ id ∧ pool.cidr ≠ request.cidr := by
    intro pool hpool
    have hpoolAll := all_eq_true.mp hready.2.2.2.2.1 pool hpool
    have hkeys := of_decide_eq_true (Bool.and_eq_true_iff.mp hpoolAll).1
    exact ⟨hkeys.1, hkeys.2.2⟩
  apply h.setTables
  · refine ⟨nodup_map_append_singleton h.tables.ids fun pool hpool => (hnew pool hpool).1,
      nodup_map_append_singleton h.tables.cidrs fun pool hpool => (hnew pool hpool).2, ?_⟩
    intro claim hclaim hactive
    obtain ⟨pool, hpool, hhosts⟩ := h.tables.inside claim hclaim hactive
    refine ⟨pool, mem_append_left _ hpool, ?_⟩
    exact { hhosts with member := mem_append_left _ hhosts.member }
  · intro other started _ hbefore
    refine PoolTx.Inv.mono hbefore (mem_append_left _ hbefore.row) (fun server hserver => ?_)
      fun claim hclaim _ _ => hclaim
    rcases mem_append.mp hserver with hold | hadded
    · exact hold
    · obtain ⟨_, -, heq⟩ := mem_map.mp hadded
      exact absurd (Prod.mk.inj heq).1.symm (hnew _ hbefore.row).1

theorem Inv.releaseContainer {containerId : Uuid} {time : Nat} :
    (world.setTables { world.toIpTables with
      claims := updateWhere world.claims (fun claim => claim.containerId == some containerId)
        (released time) }).Inv := by
  have hsub : ∀ claim ∈ updateWhere world.claims (fun claim => claim.containerId == some containerId)
      (.released time), claim.state = .active → claim ∈ world.claims := by
    intro claim hclaim hactive
    obtain ⟨old, hold, rfl⟩ := mem_updateWhere.mp hclaim
    split at hactive
    · exact absurd hactive (by simp [released])
    · rename_i hkept
      rw [if_neg hkept]
      exact hold
  refine h.setTables ⟨h.tables.ids, h.tables.cidrs, fun claim hclaim hactive =>
    h.tables.inside claim (hsub claim hclaim hactive) hactive⟩ fun other started _ hbefore => ?_
  exact PoolTx.Inv.mono hbefore hbefore.row (fun _ hserver => hserver)
    fun claim hclaim hactive _ => hsub claim hclaim hactive

/-! ### Creations -/

/-- A creation commits while the pool it allocated from is as it read it and bound to its server, and no
patch or deletion of that pool is under way. -/
def undisturbed (world : IpWorld) : IpLabel → Bool
  | .commitCreation tx =>
    match world.txs tx with
    | some (.creation creation) =>
      match creation.phase with
      | .inserted pool _ =>
        decide (pool ∈ world.pools ∧ (pool.id, creation.serverId) ∈ world.members ∧ world.locks (.pool pool.id) = none)
      | _ => true
    | _ => true
  | _ => true

theorem Inv.commitCreation {pool : IpPool} {address : Nat}
    (hoffers : pool.Offers address) (hpool : pool ∈ world.pools)
    (hmember : (pool.id, creation.serverId) ∈ world.members) (hunlocked : world.locks (.pool pool.id) = none) :
    ((world.setTables { world.toIpTables with
      claims := creation.newClaim pool address ::
        deleteWhere world.claims fun claim => decide (claim.id ∈ creation.deleted) }).finish tx).Inv := by
  apply h.commit
  · refine ⟨h.tables.ids, h.tables.cidrs, ?_⟩
    intro claim hclaim hactive
    rcases mem_cons.mp hclaim with rfl | hold
    · exact ⟨pool, hpool, rfl, hmember, hoffers.1, hoffers.2.1, hoffers.2.2⟩
    · exact h.tables.inside claim (mem_deleteWhere.mp hold).1 hactive
  · intro other _ started _ hbefore
    refine PoolTx.Inv.mono hbefore hbefore.row (fun _ hserver => hserver) fun claim hclaim _ hnetwork => ?_
    rcases mem_cons.mp hclaim with rfl | hold
    · -- the new claim is in the network of another pool, for this one is locked
      obtain rfl : pool = started.current := eq_of_key_eq h.tables.cidrs hpool hbefore.row hnetwork
      rw [hbefore.locked] at hunlocked
      exact absurd hunlocked (some_ne_none _)
    · exact (mem_deleteWhere.mp hold).1

theorem Inv.acquireAll {locks : List IpLock}
    (havailable : ∀ lock ∈ locks, world.available tx lock = true) : (world.acquireAll tx locks).Inv := by
  apply h.lock
  intro other lock hother
  by_cases hmem : lock ∈ locks
  · have hfree := havailable lock hmem
    simp only [available, hother, Bool.or_eq_true, beq_iff_eq, reduceCtorEq, false_or] at hfree
    rw [if_pos hmem]
    exact hfree.symm
  · rw [if_neg hmem]
    exact hother

theorem Inv.lockClaims {claims : List NetworkClaim} {go : IpWorld → IpWorld}
    (hgo : ∀ locked : IpWorld, locked.Inv → (go locked).Inv)
    (hstep : world.lockClaims tx claims go = some next) : next.Inv := by
  obtain ⟨havailable, hstep⟩ := ite_none_right_eq_some.mp hstep
  split at hstep
  · cases hstep
    apply hgo
    apply h.acquireAll
    intro lock hlock
    obtain ⟨claim, hclaim, rfl⟩ := mem_map.mp hlock
    exact all_eq_true.mp havailable claim hclaim
  · cases hstep
    exact h.finish

theorem Inv.nextPool (creation : Creation) (pools : List IpPool) :
    (world.nextPool tx creation pools).Inv := by
  unfold IpWorld.nextPool
  split
  · exact h.finish
  · exact h.enter trivial

theorem Inv.creationStep (hcreation : world.txs tx = some (.creation creation))
    (htx : label.tx? = some tx) (hundisturbed : world.undisturbed label = true)
    (hstep : world.creationStep tx creation label = some next) : next.Inv := by
  have hphase : creation.phase.Inv := h.txs tx _ hcreation
  revert hstep
  fun_cases IpWorld.creationStep world tx creation label with
  | case1 _ hready =>
    rintro ⟨⟩
    exact (h.acquire hready.2).enter trivial
  | case3 =>
    rintro ⟨⟩
    exact h.nextPool creation _
  | case5 _ pool rest _ hready =>
    rintro ⟨⟩
    exact (h.acquire hready).enter trivial
  | case8 =>
    refine h.lockClaims ?_
    intro locked hlocked
    exact hlocked.enter trivial
  | case10 =>
    refine h.lockClaims ?_
    intro locked hlocked
    split
    · rename_i address hfound
      exact hlocked.enter (Creation.findAvailableAddress_offers hfound)
    · exact hlocked.nextPool creation _
  | case12 =>
    rintro ⟨⟩
    exact h.finish
  | case13 _ pool address hinserting =>
    rw [hinserting] at hphase
    rintro ⟨⟩
    exact h.enter hphase
  | case15 other pool address hinserted =>
    obtain rfl : other = tx := some.inj htx
    rintro ⟨⟩
    rw [hinserted] at hphase
    simp only [undisturbed, hcreation, hinserted, decide_eq_true_eq] at hundisturbed
    exact h.commitCreation hphase hundisturbed.1 hundisturbed.2.1 hundisturbed.2.2
  | case17 =>
    rintro ⟨⟩
    exact h.finish
  | _ => nofun

theorem Inv.poolStep (hstate : world.txs tx = some (.pool state))
    (hstep : world.poolStep tx state label = some next) : next.Inv := by
  cases label with
  | check _ now => exact h.check hstate hstep
  | commitPool _ => exact h.commitPool hstate hstep
  | rollback _ =>
    cases hstep
    exact h.finish
  | _ => cases hstep

theorem Inv.outsideStep (hstep : world.outsideStep label = some next) : next.Inv := by
  cases label with
  | createPool id request => exact h.createPool hstep
  | patch tx poolId input => exact h.patch hstep
  | delete tx poolId => exact h.delete hstep
  | create tx serverId containerId claimId =>
    obtain ⟨-, rfl⟩ := of_guard hstep
    apply h.setTx
    exact trivial
  | releaseContainer containerId time =>
    obtain ⟨-, rfl⟩ := of_guard hstep
    exact h.releaseContainer
  | _ => cases hstep

/-! ## Runs -/

def undisturbedStep (world : IpWorld) (label : IpLabel) : Option IpWorld :=
  if world.undisturbed label then world.step label else none

theorem Inv.undisturbedStep (hstep : world.undisturbedStep label = some next) : next.Inv := by
  obtain ⟨hundisturbed, hstep⟩ := ite_none_right_eq_some.mp hstep
  unfold step at hstep
  split at hstep
  · exact h.outsideStep hstep
  rename_i tx htx
  split at hstep
  · cases hstep
  · rename_i creation hcreation
    exact h.creationStep hcreation htx hundisturbed hstep
  · rename_i state hstate
    exact h.poolStep hstate hstep

end

/-- Over every interleaving of creations, pool creations, patches and deletions, and container deletions. -/
theorem claims_inside_their_pools (servers : List Uuid) (labels : List IpLabel) (world : IpWorld)
    (hrun : run undisturbedStep (initial servers) labels = some world) :
    world.toIpTables.ClaimsInside := by
  have hpreserved : ∀ (state : IpWorld) label next, state.Inv → state.undisturbedStep label = some next →
      next.Inv := fun _ _ _ h hstep => h.undisturbedStep hstep
  exact (run_invariant hpreserved (initial_inv servers) hrun).tables.inside

/-- `10.0.0.0/29`. -/
def smallCidr : Ipv4Cidr where
  network := 0x0a000000
  prefixLen := 29
  prefixLen_le := by decide
  aligned := by decide
  bounded := by decide

def smallPool : CreateIpPoolRequest := ⟨"pool", smallCidr, smallCidr, 0x0a000001, [], [3]⟩

/-- Only the reserved addresses change. -/
def reserve (addresses : List Nat) : PatchIpPoolRequest :=
  ⟨1, none, none, none, none, some addresses, none⟩

/-- A creation takes `10.0.0.2`; afterwards a patch reserves `10.0.0.3`. -/
def orderly : List IpLabel :=
  [.createPool 7 smallPool, .create 1 3 50 60, .lockServer 1, .listForServer 1, .lockNetwork 1,
    .deleteReusable 1 0, .selectClaims 1 0, .insertClaim 1, .commitCreation 1,
    .patch 2 7 (reserve [0x0a000003]), .check 2 0, .commitPool 2]

theorem reserve_after_claim : ∃ world, run undisturbedStep (initial [3]) orderly = some world ∧
      world.claims.map NetworkClaim.address = [0x0a000002] ∧ world.toIpTables.ClaimsInside := by
  have hclaims : (run undisturbedStep (.initial [3]) orderly).map
      (fun world => world.claims.map NetworkClaim.address) = some [0x0a000002] := by decide +kernel
  obtain ⟨world, hrun, hworld⟩ := map_eq_some_iff.mp hclaims
  exact ⟨world, hrun, hworld, claims_inside_their_pools [3] orderly world hrun⟩

/-- A creation reads the pool; a patch reserves `10.0.0.2`, which nobody has claimed; the creation claims it. -/
def patchFirst : List IpLabel :=
  [.createPool 7 smallPool, .create 1 3 50 60, .lockServer 1, .listForServer 1,
    .patch 2 7 (reserve [0x0a000002]), .check 2 0, .commitPool 2,
    .lockNetwork 1, .deleteReusable 1 0, .selectClaims 1 0, .insertClaim 1, .commitCreation 1]

/-- A deletion finds no claim in the pool; a creation commits one; the deletion commits. -/
def claimFirst : List IpLabel :=
  [.createPool 7 smallPool, .create 1 3 50 60, .lockServer 1, .listForServer 1, .lockNetwork 1,
    .deleteReusable 1 0, .selectClaims 1 0, .insertClaim 1,
    .delete 2 7, .check 2 0, .commitCreation 1, .commitPool 2]

/-- A run after which a claim lies in no pool. -/
theorem outside_of_run {start : IpWorld} {labels : List IpLabel} {reserved : List (List Nat)} {claimed : List Nat}
    (h : (run step start labels).map (fun world => (world.pools.map IpPool.reservedIps,
      world.claims.map NetworkClaim.address, decide world.toIpTables.ClaimsInside)) = some (reserved, claimed, false)) :
    ∃ world, run step start labels = some world ∧ world.pools.map IpPool.reservedIps = reserved ∧
      world.claims.map NetworkClaim.address = claimed ∧ ¬ world.toIpTables.ClaimsInside := by
  obtain ⟨world, hrun, hworld⟩ := map_eq_some_iff.mp h
  simp only [Prod.mk.injEq, decide_eq_false_iff_not] at hworld
  exact ⟨world, hrun, hworld.1, hworld.2.1, hworld.2.2⟩

/-- A claimed address becomes reserved; and a claim is left without its pool. -/
theorem claims_outside_their_pools : (∃ world, run step (initial [3]) patchFirst = some world ∧
      world.pools.map IpPool.reservedIps = [[0x0a000002]] ∧
      world.claims.map NetworkClaim.address = [0x0a000002] ∧ ¬ world.toIpTables.ClaimsInside) ∧
    ∃ world, run step (initial [3]) claimFirst = some world ∧ world.pools.map IpPool.reservedIps = [] ∧
      world.claims.map NetworkClaim.address = [0x0a000002] ∧ ¬ world.toIpTables.ClaimsInside := by
  refine ⟨outside_of_run ?_, outside_of_run ?_⟩
  · decide +kernel
  · decide +kernel

end IpWorld

end Nyabase.Backend
