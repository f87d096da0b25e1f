import Nyabase.SshProxy.Snapshot

/-!
# What a login target resolves to

Three things are asked of target resolution.  A route it returns belongs to an eligible container of the
authenticated user that the target names, and no other eligible container of that user answers to the
same target.  Containers of other users have no influence on the answer.  A name is read without regard
to ASCII case, trailing dots and the host suffix.

The second half of the first point has an exception.  A name is resolved through the addresses of the
containers that bear it, and an address which two eligible containers of the user share is skipped, not
reported as ambiguous.  A container can so be eclipsed: another one of the same name is returned in spite
of it.  `Eclipsed` describes exactly these snapshots.
-/

namespace Nyabase.SshProxy

open Lib List Option RoutingSnapshot

/-! ## Eligible containers -/

/-- A container of a user, with its server and route, that connections of the user may reach. -/
structure Eligible (snapshot : RoutingSnapshot) (userId : String) (container : ProxyContainer)
    (server : ProxyServer) (route : ProxyRoute) : Prop where
  listed : container ∈ snapshot.containers
  owned : container.ownerId = userId
  sshImage : ∃ image, snapshot.image container.imageId = some image ∧ image.sshEnabled = true
  onServer : snapshot.server container.serverId = some server
  online : eqIgnoreAsciiCase server.status "online".toList = true
  routed : snapshot.route container.id = some route
  sameServer : route.serverId = container.serverId
  sameInstance : route.instanceName = container.instanceName
  active : route.isActive = true

/-- The route record of a container. -/
structure RouteOf (userId : String) (container : ProxyContainer) (server : ProxyServer)
    (route : ProxyRoute) (resolved : OwnedResolvedRoute) : Prop where
  userId : resolved.userId = userId
  serverId : resolved.serverId = server.id
  serverSlug : resolved.serverSlug = server.slug
  containerId : resolved.containerId = container.id
  containerName : resolved.containerName = container.name
  instanceName : resolved.instanceName = route.instanceName
  routedIp : route.routedIp = some resolved.routedIp

variable {snapshot : RoutingSnapshot} {container : ProxyContainer} {userId : String} {name : List Char}
  {resolved : OwnedResolvedRoute}

theorem activeRoute_eq_some {server : ProxyServer} {route : ProxyRoute} :
    snapshot.activeRoute container = some (server, route) ↔
      (∃ image, snapshot.image container.imageId = some image ∧ image.sshEnabled = true) ∧
        snapshot.server container.serverId = some server ∧ eqIgnoreAsciiCase server.status "online".toList = true ∧
        snapshot.route container.id = some route ∧ route.serverId = container.serverId ∧
        route.instanceName = container.instanceName ∧ route.isActive = true := by
  unfold activeRoute
  simp only [bind_eq_bind, bind_eq_some_iff, guard_eq_some', Option.any_eq_true,
    beq_iff_eq, exists_const, some.injEq, Prod.mk.injEq]
  constructor
  · rintro ⟨himage, server', hserver, honline, route', hroute, hsame, hinstance, hactive, rfl, rfl⟩
    exact ⟨himage, hserver, honline, hroute, hsame, hinstance, hactive⟩
  · rintro ⟨himage, hserver, honline, hroute, hsame, hinstance, hactive⟩
    exact ⟨himage, server, hserver, honline, route, hroute, hsame, hinstance, hactive, rfl, rfl⟩

/-- The address a container's route names. -/
def RoutingSnapshot.address (snapshot : RoutingSnapshot) (container : ProxyContainer) : Option (List Char) :=
  (snapshot.route container.id).bind ProxyRoute.routedIp

/-- Whether a container is one connections of the user may reach. -/
def RoutingSnapshot.isEligible (snapshot : RoutingSnapshot) (userId : String) (container : ProxyContainer) : Bool :=
  container.ownerId == userId && (snapshot.activeRoute container).isSome

theorem isEligible_iff (listed : container ∈ snapshot.containers) :
    snapshot.isEligible userId container = true ↔ ∃ server route, Eligible snapshot userId container server route := by
  simp only [RoutingSnapshot.isEligible, Bool.and_eq_true, beq_iff_eq, isSome_iff_exists,
    Prod.exists, activeRoute_eq_some]
  constructor
  · rintro ⟨owned, server, route, himage, hserver, honline, hroute, hsame, hinstance, hactive⟩
    exact ⟨server, route, listed, owned, himage, hserver, honline, hroute, hsame, hinstance, hactive⟩
  · rintro ⟨server, route, h⟩
    exact ⟨h.owned, server, route, h.sshImage, h.onServer, h.online, h.routed, h.sameServer, h.sameInstance, h.active⟩

theorem Eligible.address_eq {server : ProxyServer} {route : ProxyRoute}
    (h : Eligible snapshot userId container server route) : snapshot.address container = route.routedIp := by
  simp [RoutingSnapshot.address, h.routed]

/-- The eligible containers of the user at an address. -/
def RoutingSnapshot.holders (snapshot : RoutingSnapshot) (userId : String) (address : List Char) :
    List ProxyContainer :=
  snapshot.containers.filter fun container =>
    snapshot.isEligible userId container && snapshot.address container == some address

/-- The containers of the user that bear a name. -/
def RoutingSnapshot.named (snapshot : RoutingSnapshot) (userId : String) (name : List Char) : List ProxyContainer :=
  snapshot.containers.filter fun container =>
    container.ownerId == userId && eqIgnoreAsciiCase container.name name

variable {address : List Char}

theorem mem_holders : container ∈ snapshot.holders userId address ↔
      ∃ server route, Eligible snapshot userId container server route ∧ route.routedIp = some address := by
  simp only [holders, mem_filter, Bool.and_eq_true, beq_iff_eq]
  constructor
  · rintro ⟨listed, heligible, haddress⟩
    obtain ⟨server, route, h⟩ := (isEligible_iff listed).mp heligible
    exact ⟨server, route, h, h.address_eq ▸ haddress⟩
  · rintro ⟨server, route, h, haddress⟩
    exact ⟨h.listed, (isEligible_iff h.listed).mpr ⟨server, route, h⟩, h.address_eq.trans haddress⟩

theorem eligible_of_holders_eq (h : snapshot.holders userId address = [container]) :
    ∃ server route, Eligible snapshot userId container server route ∧ route.routedIp = some address :=
  mem_holders.mp (h ▸ mem_singleton_self container)

theorem mem_named : container ∈ snapshot.named userId name ↔
      container ∈ snapshot.containers ∧ container.ownerId = userId ∧ eqIgnoreAsciiCase container.name name = true := by
  simp [named]

/-! ## Resolution by address -/

theorem candidate_eq_some (h : snapshot.candidate userId address container = some resolved) :
    container.ownerId = userId ∧ resolved.routedIp = address ∧
      ∃ server route, snapshot.activeRoute container = some (server, route) ∧
        RouteOf userId container server route resolved := by
  unfold RoutingSnapshot.candidate at h
  simp only [bind_eq_bind, bind_eq_some_iff, guard_eq_some', beq_iff_eq,
    exists_const, Prod.exists, some.injEq] at h
  obtain ⟨owned, server, route, hactive, ip, hip, rfl, rfl⟩ := h
  exact ⟨owned, rfl, server, route, hactive, rfl, rfl, rfl, rfl, rfl, rfl, hip⟩

theorem candidate_isSome : (snapshot.candidate userId address container).isSome =
      (snapshot.isEligible userId container && snapshot.address container == some address) := by
  rw [Bool.eq_iff_iff]
  simp only [RoutingSnapshot.candidate, RoutingSnapshot.isEligible, RoutingSnapshot.address,
    isSome_iff_exists, bind_eq_bind, bind_eq_some_iff, guard_eq_some',
    beq_iff_eq, exists_const, Prod.exists, some.injEq, Bool.and_eq_true]
  constructor
  · rintro ⟨_, owned, server, route, hactive, ip, hip, rfl, -⟩
    exact ⟨⟨owned, server, route, hactive⟩, route, (activeRoute_eq_some.mp hactive).2.2.2.1, hip⟩
  · rintro ⟨⟨owned, server, route, hactive⟩, route', hroute, hip⟩
    -- both lookups of the container's route find the same one
    have hsame : route' = route := some.inj (hroute.symm.trans (activeRoute_eq_some.mp hactive).2.2.2.1)
    exact ⟨_, owned, server, route, hactive, address, hsame ▸ hip, rfl, rfl⟩

theorem exists_candidate (h : snapshot.holders userId address = [container]) :
    ∃ resolved, snapshot.candidate userId address container = some resolved := by
  have hmem : container ∈ snapshot.holders userId address := h ▸ mem_singleton_self container
  rw [← isSome_iff_exists, candidate_isSome]
  exact (mem_filter.mp hmem).2

theorem single_eq_ok {α : Type} {list : List α} {a : α} : single list = .ok a ↔ list = [a] := by
  cases list with
  | nil => simp [single]
  | cons first rest => cases rest <;> simp [single]

/-- A list yields one value if just one of its elements yields any. -/
theorem filterMap_eq_singleton {α β : Type} {list : List α} {yield : α → Option β} {b : β} :
    list.filterMap yield = [b] ↔ ∃ a, list.filter (fun a => (yield a).isSome) = [a] ∧ yield a = some b := by
  induction list with
  | nil => simp
  | cons first rest ih =>
    cases hfirst : yield first with
    | none => simp [hfirst, ih]
    | some value => simp [hfirst, filterMap_eq_nil_iff, filter_eq_nil_iff, and_comm]

/-- Resolving an address finds the only eligible container there. -/
theorem candidates_eq_singleton : snapshot.containers.filterMap (snapshot.candidate userId address) = [resolved] ↔
      ∃ container, snapshot.holders userId address = [container] ∧
        snapshot.candidate userId address container = some resolved := by
  simp only [filterMap_eq_singleton, holders, candidate_isSome]

/-- A resolved address belongs to the only eligible container there. -/
theorem resolveOwnedRouteForUserIp_eq_some :
    (snapshot.resolveOwnedRouteForUserIp userId address).toOption = some resolved ↔
      ∃ container, snapshot.holders userId address = [container] ∧
        snapshot.candidate userId address container = some resolved := by
  rw [resolveOwnedRouteForUserIp, ← candidates_eq_singleton, ← single_eq_ok]
  cases single _ <;> simp [Except.toOption]

/-! ## Resolution by name -/

/-- What a container of the name contributes: the resolution of its address, if it bears the name. -/
def RoutingSnapshot.resolvedAt (snapshot : RoutingSnapshot) (userId : String) (name : List Char)
    (container : ProxyContainer) : Option OwnedResolvedRoute :=
  ((snapshot.address container).bind fun address =>
    (snapshot.resolveOwnedRouteForUserIp userId address).toOption).filter
      fun route => eqIgnoreAsciiCase route.containerName name

theorem resolvedByName_eq (snapshot : RoutingSnapshot) (userId : String) (name : List Char) :
    snapshot.resolvedByName userId name = (snapshot.named userId name).filterMap (snapshot.resolvedAt userId name) := by
  unfold resolvedByName
  rw [← filterMap_eq_filter, filterMap_filterMap, filterMap_filterMap, filterMap_filterMap]
  congr 1
  funext container
  unfold resolvedAt RoutingSnapshot.address
  cases snapshot.route container.id with
  | none => rfl
  | some route =>
    cases hip : route.routedIp with
    | none => simp [hip]
    | some address =>
      simp only [bind_some, hip]
      cases (snapshot.resolveOwnedRouteForUserIp userId address).toOption <;> rfl

theorem resolvedAt_eq_some : snapshot.resolvedAt userId name container = some resolved ↔
      ∃ address holder, snapshot.address container = some address ∧ snapshot.holders userId address = [holder] ∧
        snapshot.candidate userId address holder = some resolved ∧ eqIgnoreAsciiCase holder.name name = true := by
  simp only [resolvedAt, filter_eq_some_iff, bind_eq_some_iff, resolveOwnedRouteForUserIp_eq_some]
  constructor
  · rintro ⟨⟨address, haddress, holder, hholders, hcandidate⟩, hname⟩
    obtain ⟨-, -, _, _, -, hof⟩ := candidate_eq_some hcandidate
    exact ⟨address, holder, haddress, hholders, hcandidate, hof.containerName ▸ hname⟩
  · rintro ⟨address, holder, haddress, hholders, hcandidate, hname⟩
    obtain ⟨-, -, _, _, -, hof⟩ := candidate_eq_some hcandidate
    exact ⟨⟨address, haddress, holder, hholders, hcandidate⟩, hof.containerName ▸ hname⟩

/-- The only eligible container at an address that bears the name is one of the containers searched,
and it is found at that address. -/
theorem holder_mem_named {holder : ProxyContainer}
    (hholders : snapshot.holders userId address = [holder]) (hname : eqIgnoreAsciiCase holder.name name = true) :
    holder ∈ snapshot.named userId name ∧ snapshot.address holder = some address := by
  obtain ⟨server, route, heligible, haddress⟩ := eligible_of_holders_eq hholders
  exact ⟨mem_named.mpr ⟨heligible.listed, heligible.owned, hname⟩, heligible.address_eq.trans haddress⟩

/-- Two different eligible containers of the user bear the name, and just one container of the name
stands out: no other eligible container and no other container of the name has its address, while every
other eligible container of the name shares its address with an eligible one. -/
def Eclipsed (snapshot : RoutingSnapshot) (userId : String) (name : List Char) : Prop :=
  ∃ found ∈ snapshot.named userId name, ∃ other ∈ snapshot.named userId name,
    found ≠ other ∧ snapshot.isEligible userId other = true ∧
    ∃ address ∈ snapshot.address found, snapshot.holders userId address = [found] ∧
      (snapshot.named userId name).filter (snapshot.address · == some address) = [found] ∧
      ∀ container ∈ snapshot.named userId name, ∀ shared ∈ snapshot.address container,
        shared ≠ address → snapshot.holders userId shared ≠ [container]

instance (snapshot : RoutingSnapshot) (userId : String) (name : List Char) :
    Decidable (Eclipsed snapshot userId name) := by
  unfold Eclipsed
  infer_instance

section ByName

variable {snapshot : RoutingSnapshot} {userId : String} {name : List Char}

/-- A name that resolves does so through one container, the only one of the name at its address. -/
theorem found_of_resolvedByName {resolved : OwnedResolvedRoute} (h : snapshot.resolvedByName userId name = [resolved]) :
    ∃ found ∈ snapshot.named userId name, ∃ address ∈ snapshot.address found,
      snapshot.holders userId address = [found] ∧ snapshot.candidate userId address found = some resolved ∧
      (snapshot.named userId name).filter (snapshot.address · == some address) = [found] ∧
      ∀ container ∈ snapshot.named userId name, ∀ shared ∈ snapshot.address container,
        shared ≠ address → snapshot.holders userId shared ≠ [container] := by
  rw [resolvedByName_eq, filterMap_eq_singleton] at h
  obtain ⟨start, honly, hat⟩ := h
  have hstart : ∀ container ∈ snapshot.named userId name, ∀ r,
      snapshot.resolvedAt userId name container = some r → container = start := by
    intro container hcontainer r hr
    rw [← mem_singleton, ← honly]
    exact mem_filter.mpr ⟨hcontainer, isSome_of_eq_some hr⟩
  obtain ⟨address, found, -, hholders, hcandidate, hname⟩ := resolvedAt_eq_some.mp hat
  obtain ⟨hfound, haddress⟩ := holder_mem_named hholders hname
  have hresolved : ∀ container, snapshot.address container = some address →
      snapshot.resolvedAt userId name container = some resolved := by
    intro container hcontainer
    exact resolvedAt_eq_some.mpr ⟨address, found, hcontainer, hholders, hcandidate, hname⟩
  obtain rfl := hstart found hfound resolved (hresolved found haddress)
  refine ⟨found, hfound, address, haddress, hholders, hcandidate, ?_, ?_⟩
  · -- every container of the name at this address is resolved, so there is only one
    have hsub := monotone_filter_right (snapshot.named userId name) fun container hcontainer =>
      isSome_of_eq_some (hresolved container (beq_iff_eq.mp hcontainer))
    rw [honly, sublist_singleton] at hsub
    exact hsub.resolve_left (ne_nil_of_mem (mem_filter.mpr ⟨hfound, beq_iff_eq.mpr haddress⟩))
  · intro container hcontainer shared hshared hne hholder
    obtain ⟨r, hr⟩ := exists_candidate hholder
    have hat := resolvedAt_eq_some.mpr ⟨shared, container, hshared, hholder, hr, (mem_named.mp hcontainer).2.2⟩
    rw [hstart container hcontainer r hat] at hshared
    exact hne (some.inj (hshared.symm.trans haddress))

/-- Where a container of the name stands out, the name resolves to it. -/
theorem resolvedByName_of_eclipsed (h : Eclipsed snapshot userId name) :
    ∃ resolved, snapshot.resolvedByName userId name = [resolved] := by
  obtain ⟨found, hfound, other, -, -, -, address, haddress, hholders, hfilter, hshared⟩ := h
  have hname := (mem_named.mp hfound).2.2
  obtain ⟨resolved, hresolved⟩ := exists_candidate hholders
  have hat : ∀ container, snapshot.address container = some address →
      snapshot.resolvedAt userId name container = some resolved := by
    intro container hcontainer
    exact resolvedAt_eq_some.mpr ⟨address, found, hcontainer, hholders, hresolved, hname⟩
  refine ⟨resolved, ?_⟩
  rw [resolvedByName_eq, filterMap_eq_singleton]
  refine ⟨found, ?_, hat found haddress⟩
  rw [← hfilter]
  apply filter_congr
  intro container _
  rw [Bool.eq_iff_iff, isSome_iff_exists, beq_iff_eq]
  constructor
  · -- a container that contributes anything has the address of the one that stands out
    rintro ⟨r, hr⟩
    obtain ⟨at', holder, haddress', hholder, -, hholderName⟩ := resolvedAt_eq_some.mp hr
    obtain ⟨hholderMem, hholderAt⟩ := holder_mem_named hholder hholderName
    by_cases heq : at' = address
    · exact heq ▸ haddress'
    · exact absurd hholder (hshared holder hholderMem at' hholderAt heq)
  · exact fun h => ⟨resolved, hat container h⟩

end ByName

end Nyabase.SshProxy
