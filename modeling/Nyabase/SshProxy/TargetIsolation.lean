import Nyabase.SshProxy.TargetResolution

/-!
# A login target never crosses owners

Non-interference compares two snapshots that differ only in the containers of other users and in the
routes of those containers.  The resolution reads the containers of the user and looks their routes up by
id, so it cannot tell the two apart as long as ids are unique.  Spellings of a name are compared through
the label that `container_name_for_host` extracts.
-/

namespace Nyabase.SshProxy

open Lib List RoutingSnapshot

/-! ## Two snapshots that differ for other users only -/

/-- Whether an id belongs to a container of somebody else. -/
def RoutingSnapshot.othersHold (snapshot : RoutingSnapshot) (userId containerId : String) : Bool :=
  snapshot.containers.any fun container =>
    container.ownerId != userId && container.id == containerId

/-- Two snapshots that differ in containers of other users, and in routes of such containers, only. -/
structure OthersDiffer (userId : String) (left right : RoutingSnapshot) : Prop where
  suffix : left.hostSuffix = right.hostSuffix
  users : left.users = right.users
  servers : left.servers = right.servers
  images : left.images = right.images
  containers : left.containers.filter (·.ownerId == userId) = right.containers.filter (·.ownerId == userId)
  routes : left.routes.filter
      (fun route => !(left.othersHold userId route.containerId || right.othersHold userId route.containerId)) =
    right.routes.filter
      (fun route => !(left.othersHold userId route.containerId || right.othersHold userId route.containerId))
  leftUnique : (left.containers.map ProxyContainer.id).Nodup
  rightUnique : (right.containers.map ProxyContainer.id).Nodup

variable {snapshot : RoutingSnapshot} {host : List Char} {container : ProxyContainer}

/-- A unique id of a container of the user is nobody else's. -/
theorem othersHold_eq_false {userId : String}
    (unique : (snapshot.containers.map ProxyContainer.id).Nodup) (listed : container ∈ snapshot.containers)
    (owned : container.ownerId = userId) : snapshot.othersHold userId container.id = false := by
  rw [othersHold, any_eq_false]
  intro other hother
  simp only [Bool.and_eq_true, bne_iff_ne, ne_eq, beq_iff_eq, not_and]
  intro hforeign hid
  have hsame := inj_on_of_nodup_map unique hother listed hid
  exact hforeign (hsame ▸ owned)

theorem find?_reverse_filter {α : Type} {wanted kept : α → Bool} (list : List α)
    (h : ∀ a, wanted a = true → kept a = true) :
    (list.filter kept).reverse.find? wanted = list.reverse.find? wanted := by
  rw [← filter_reverse, List.find?_filter]
  congr 1
  funext a
  cases hwanted : wanted a with
  | false => simp
  | true => simp [h a hwanted]

section Interference

variable {userId : String} {left right : RoutingSnapshot}

variable {container : ProxyContainer}

section

variable (h : OthersDiffer userId left right)

include h

theorem OthersDiffer.route_eq (listed : container ∈ left.containers)
    (owned : container.ownerId = userId) : left.route container.id = right.route container.id := by
  have hright : container ∈ right.containers := by
    have hmem : container ∈ left.containers.filter (·.ownerId == userId) :=
      mem_filter.mpr ⟨listed, beq_iff_eq.mpr owned⟩
    rw [h.containers] at hmem
    exact (mem_filter.mp hmem).1
  have hkept : ∀ route : ProxyRoute, (route.containerId == container.id) = true →
      (!(left.othersHold userId route.containerId || right.othersHold userId route.containerId)) = true := by
    intro route hroute
    rw [beq_iff_eq.mp hroute, othersHold_eq_false h.leftUnique listed owned,
      othersHold_eq_false h.rightUnique hright owned]
    rfl
  unfold route
  rw [← find?_reverse_filter left.routes hkept, h.routes, find?_reverse_filter right.routes hkept]

omit h in
/-- Only containers of the user are candidates. -/
theorem filterMap_candidate_owned (snapshot : RoutingSnapshot) (address : List Char) :
    snapshot.containers.filterMap (snapshot.candidate userId address) =
      (snapshot.containers.filter (·.ownerId == userId)).filterMap (snapshot.candidate userId address) := by
  rw [filterMap_filter]
  apply filterMap_congr
  intro container _
  by_cases owned : container.ownerId = userId
  · simp [owned]
  · simp [owned, candidate]

theorem OthersDiffer.resolveIp_eq (address : List Char) :
    left.resolveOwnedRouteForUserIp userId address = right.resolveOwnedRouteForUserIp userId address := by
  unfold resolveOwnedRouteForUserIp
  rw [filterMap_candidate_owned left, filterMap_candidate_owned right, ← h.containers]
  congr 1
  apply filterMap_congr
  intro container hcontainer
  obtain ⟨listed, owned⟩ := mem_filter.mp hcontainer
  unfold candidate activeRoute image server
  rw [h.route_eq listed (beq_iff_eq.mp owned), h.images, h.servers, h.users]

omit h in
theorem named_eq_filter_owned (snapshot : RoutingSnapshot) (name : List Char) :
    snapshot.named userId name = (snapshot.containers.filter (·.ownerId == userId)).filter
      fun container => eqIgnoreAsciiCase container.name name := by
  rw [filter_filter]
  unfold named
  congr 1
  funext container
  rw [Bool.and_comm]

theorem OthersDiffer.resolvedByName_eq (name : List Char) :
    left.resolvedByName userId name = right.resolvedByName userId name := by
  rw [SshProxy.resolvedByName_eq left, SshProxy.resolvedByName_eq right,
    named_eq_filter_owned left, named_eq_filter_owned right, ← h.containers]
  apply filterMap_congr
  intro container hcontainer
  obtain ⟨hmem, -⟩ := mem_filter.mp hcontainer
  obtain ⟨listed, owned⟩ := mem_filter.mp hmem
  unfold resolvedAt address
  rw [h.route_eq listed (beq_iff_eq.mp owned)]
  simp [h.resolveIp_eq]

/-- Containers of other users have no influence on what a target resolves to. -/
theorem OthersDiffer.resolveTarget_eq (host : List Char) (port : Nat) :
    left.resolveTarget userId host port = right.resolveTarget userId host port := by
  have hname : left.containerNameForHost host = right.containerNameForHost host := by
    unfold containerNameForHost hostLabel
    rw [h.suffix]
  unfold resolveTarget resolveOwnedRouteForUserTarget
  rw [h.resolveIp_eq, hname]
  simp [h.resolvedByName_eq]

end

end Interference

/-! ## Spellings of a name -/

/-- Two spellings of one name: up to ASCII case and trailing dots they are the same text, or one is the
other with the host suffix, which the other does not have yet. -/
inductive SameName (suffix : List Char) : List Char → List Char → Prop
  | spelled {host other : List Char} (h : lower (host.rdropWhile (· == '.')) = lower (other.rdropWhile (· == '.'))) :
      SameName suffix host other
  | suffixed {host other : List Char} (configured : suffix ≠ [])
      (bare : ¬ ('.' :: suffix) <:+ lower (host.rdropWhile (· == '.')))
      (h : lower (other.rdropWhile (· == '.')) = lower (host.rdropWhile (· == '.')) ++ '.' :: suffix) :
      SameName suffix host other

theorem stripSuffix_append (text suffix : List Char) : stripSuffix suffix (text ++ suffix) = some text := by
  simp [stripSuffix]

theorem stripSuffix_eq_some {suffix text rest : List Char} (h : stripSuffix suffix text = some rest) :
    text = rest ++ suffix := by
  obtain ⟨hsuffix, h⟩ := Option.ite_none_right_eq_some.mp h
  obtain ⟨front, rfl⟩ := isSuffixOf_iff_suffix.mp hsuffix
  simp only [length_append, Nat.add_sub_cancel, take_left', Option.some.injEq] at h
  rw [h]

theorem hostLabel_suffixed (configured : snapshot.hostSuffix ≠ []) (host : List Char) :
    snapshot.hostLabel (host ++ '.' :: snapshot.hostSuffix) = host := by
  have hsplit : host ++ '.' :: snapshot.hostSuffix = (host ++ ['.']) ++ snapshot.hostSuffix := by simp
  unfold hostLabel
  rw [if_neg (by simpa using configured), hsplit, stripSuffix_append]
  show ((stripSuffix ['.'] (host ++ ['.']))).getD _ = host
  rw [stripSuffix_append, Option.getD_some]

theorem hostLabel_bare (bare : ¬ ('.' :: snapshot.hostSuffix) <:+ host) : snapshot.hostLabel host = host := by
  unfold hostLabel
  split
  · rfl
  cases hrest : stripSuffix snapshot.hostSuffix host with
  | none => rfl
  | some rest =>
    rw [Option.bind_some]
    cases hlabel : stripSuffix ['.'] rest with
    | none => rfl
    | some label =>
      -- the suffix and the dot before it were both there
      refine absurd ⟨label, ?_⟩ bare
      rw [stripSuffix_eq_some hrest, stripSuffix_eq_some hlabel]
      simp

/-- Every spelling of a name has the same label. -/
theorem SameName.containerNameForHost_eq {other : List Char} (h : SameName snapshot.hostSuffix host other) :
    snapshot.containerNameForHost host = snapshot.containerNameForHost other := by
  unfold containerNameForHost
  cases h with
  | spelled h => rw [h]
  | suffixed configured bare h => rw [h, hostLabel_suffixed configured, hostLabel_bare bare]

theorem SameName.resolveTarget_eq {other : List Char} (h : SameName snapshot.hostSuffix host other)
    (hname : parseIpv4 host = none) (hname' : parseIpv4 other = none) (userId : String) (port : Nat) :
    snapshot.resolveTarget userId host port = snapshot.resolveTarget userId other port := by
  unfold resolveTarget resolveOwnedRouteForUserTarget
  rw [hname, hname', h.containerNameForHost_eq]
  simp

/-! ## The answer -/

/-- Whether a target string names a container: by its address, or by its name. -/
def RoutingSnapshot.Matches (snapshot : RoutingSnapshot) (host : List Char)
    (container : ProxyContainer) (route : ProxyRoute) : Prop :=
  if (parseIpv4 host).isSome then route.routedIp = some host
  else ∃ name, snapshot.containerNameForHost host = some name ∧ eqIgnoreAsciiCase container.name name = true

/-- A resolved route is that of an eligible container of the user which the string matches, and no other
eligible container of the user matches it. -/
def OnlyMatch (snapshot : RoutingSnapshot) (userId : String) (host : List Char)
    (resolved : OwnedResolvedRoute) : Prop :=
  ∃ container server route, Eligible snapshot userId container server route ∧
    RouteOf userId container server route resolved ∧ snapshot.Matches host container route ∧
    ∀ other server' route', Eligible snapshot userId other server' route' →
      snapshot.Matches host other route' → other = container

/-- What is asked of target resolution for a snapshot, a user and a target. -/
structure TargetIsolated (snapshot : RoutingSnapshot) (userId : String) (host : List Char)
    (port : Nat) : Prop where
  /-- A resolved target is the only eligible container of the user that the string matches. -/
  sound : ∀ resolved, snapshot.resolveTarget userId host port = .ok resolved → OnlyMatch snapshot userId host resolved
  /-- Containers of other users and their routes have no influence. -/
  isolated : ∀ changed, OthersDiffer userId snapshot changed →
    changed.resolveTarget userId host port = snapshot.resolveTarget userId host port
  /-- Every spelling of a name resolves alike. -/
  spelled : parseIpv4 host = none → ∀ other, parseIpv4 other = none →
    SameName snapshot.hostSuffix host other ∨ SameName snapshot.hostSuffix other host →
    snapshot.resolveTarget userId other port = snapshot.resolveTarget userId host port

/-- The target is a name on the permitted port whose container is eclipsed. -/
def TargetEclipsed (snapshot : RoutingSnapshot) (userId : String) (host : List Char) (port : Nat) : Prop :=
  port = 22 ∧ parseIpv4 host = none ∧ ∃ name ∈ snapshot.containerNameForHost host, Eclipsed snapshot userId name

instance (snapshot : RoutingSnapshot) (userId : String) (host : List Char) (port : Nat) :
    Decidable (TargetEclipsed snapshot userId host port) := by
  unfold TargetEclipsed
  infer_instance

section Answer

variable {snapshot : RoutingSnapshot} {userId : String} {host : List Char} {port : Nat}
  {resolved : OwnedResolvedRoute}

theorem resolveTarget_eq_ok : snapshot.resolveTarget userId host port = .ok resolved ↔
      port = 22 ∧ snapshot.resolveOwnedRouteForUserTarget userId host = .ok resolved := by
  unfold resolveTarget
  rw [ensure_bind_eq_ok, beq_iff_eq]
  cases snapshot.resolveOwnedRouteForUserTarget userId host <;> simp [Except.mapError]

theorem resolveByName_eq_ok (hname : parseIpv4 host = none) :
    snapshot.resolveOwnedRouteForUserTarget userId host = .ok resolved ↔
      ∃ name, snapshot.containerNameForHost host = some name ∧ snapshot.resolvedByName userId name = [resolved] := by
  unfold resolveOwnedRouteForUserTarget
  rw [hname, Option.isSome_none, if_neg Bool.false_ne_true, bind_eq_ok]
  simp [okOr_eq_ok, single_eq_ok]

theorem resolveByIp_eq_ok (hip : (parseIpv4 host).isSome = true) :
    snapshot.resolveOwnedRouteForUserTarget userId host = .ok resolved ↔
      ∃ container, snapshot.holders userId host = [container] ∧
        snapshot.candidate userId host container = some resolved := by
  unfold resolveOwnedRouteForUserTarget
  rw [if_pos hip, resolveOwnedRouteForUserIp, single_eq_ok, candidates_eq_singleton]

/-- The only eligible container at an address, with the route record made for it. -/
theorem eligible_of_holders {address : List Char} (hholders : snapshot.holders userId address = [container])
    (hcandidate : snapshot.candidate userId address container = some resolved) :
    ∃ server route, Eligible snapshot userId container server route ∧
      RouteOf userId container server route resolved ∧ route.routedIp = some address := by
  obtain ⟨server, route, heligible, haddress⟩ := eligible_of_holders_eq hholders
  obtain ⟨-, -, server', route', hactive, hof⟩ := candidate_eq_some hcandidate
  obtain ⟨-, hserver, -, hroute, -⟩ := activeRoute_eq_some.mp hactive
  have hs : server' = server := Option.some.inj (hserver.symm.trans heligible.onServer)
  have hr : route' = route := Option.some.inj (hroute.symm.trans heligible.routed)
  subst hs hr
  exact ⟨server', route', heligible, hof, haddress⟩

/-- An address resolves to the only eligible container there. -/
theorem onlyMatch_of_ip (hip : (parseIpv4 host).isSome = true)
    (hresolved : snapshot.resolveOwnedRouteForUserTarget userId host = .ok resolved) :
    OnlyMatch snapshot userId host resolved := by
  obtain ⟨container, hholders, hcandidate⟩ := (resolveByIp_eq_ok hip).mp hresolved
  obtain ⟨server, route, heligible, hof, haddress⟩ := eligible_of_holders hholders hcandidate
  refine ⟨container, server, route, heligible, hof, ?_, ?_⟩
  · rw [RoutingSnapshot.Matches, if_pos hip]
    exact haddress
  · intro other server' route' heligible' hmatches
    rw [RoutingSnapshot.Matches, if_pos hip] at hmatches
    have hmem := mem_holders.mpr ⟨server', route', heligible', hmatches⟩
    rw [hholders] at hmem
    exact mem_singleton.mp hmem

section

variable (hname : parseIpv4 host = none)

include hname

theorem matches_of_name {route : ProxyRoute} :
    snapshot.Matches host container route ↔ ∃ name, snapshot.containerNameForHost host = some name ∧
      eqIgnoreAsciiCase container.name name = true := by
  rw [RoutingSnapshot.Matches, hname, Option.isSome_none, if_neg Bool.false_ne_true]

/-- A name that is not eclipsed resolves to the only eligible container that bears it. -/
theorem onlyMatch_of_name (hclear : ∀ name ∈ snapshot.containerNameForHost host, ¬ Eclipsed snapshot userId name)
    (hresolved : snapshot.resolveOwnedRouteForUserTarget userId host = .ok resolved) :
    OnlyMatch snapshot userId host resolved := by
  obtain ⟨name, hlabel, hbyName⟩ := (resolveByName_eq_ok hname).mp hresolved
  obtain ⟨found, hfound, address, haddress, hholders, hcandidate, hfilter, hshared⟩ := found_of_resolvedByName hbyName
  obtain ⟨server, route, heligible, hof, -⟩ := eligible_of_holders hholders hcandidate
  refine ⟨found, server, route, heligible, hof, ?_, ?_⟩
  · exact (matches_of_name hname).mpr ⟨name, hlabel, (mem_named.mp hfound).2.2⟩
  intro other server' route' heligible' hmatches
  obtain ⟨name', hlabel', hother⟩ := (matches_of_name hname).mp hmatches
  obtain rfl : name' = name := Option.some.inj (hlabel'.symm.trans hlabel)
  -- another eligible container of the name would make the target an eclipsed one
  by_contra hne
  refine hclear name' hlabel ⟨found, hfound, other, ?_, Ne.symm hne, ?_, address, haddress,
    hholders, hfilter, hshared⟩
  · exact mem_named.mpr ⟨heligible'.listed, heligible'.owned, hother⟩
  · exact (isEligible_iff heligible'.listed).mpr ⟨server', route', heligible'⟩

/-- An eclipsed name resolves, although two eligible containers bear it. -/
theorem not_onlyMatch_of_eclipsed {name : List Char}
    (hlabel : snapshot.containerNameForHost host = some name) (heclipsed : Eclipsed snapshot userId name) :
    ∃ resolved, snapshot.resolveOwnedRouteForUserTarget userId host = .ok resolved ∧
      ¬ OnlyMatch snapshot userId host resolved := by
  obtain ⟨resolved, hresolved⟩ := resolvedByName_of_eclipsed heclipsed
  refine ⟨resolved, (resolveByName_eq_ok hname).mpr ⟨name, hlabel, hresolved⟩, ?_⟩
  intro honlyMatch
  obtain ⟨container, server, route, -, -, -, honly⟩ := honlyMatch
  obtain ⟨found, hfound, other, hother, hne, helig, address, -, hholders, -⟩ := heclipsed
  have hmatches : ∀ c r, c ∈ snapshot.named userId name → snapshot.Matches host c r := by
    intro c r hc
    exact (matches_of_name hname).mpr ⟨name, hlabel, (mem_named.mp hc).2.2⟩
  -- both the container found and the other one match, so they would be the same
  obtain ⟨server₁, route₁, heligible₁, -⟩ := eligible_of_holders_eq hholders
  obtain ⟨server₂, route₂, heligible₂⟩ := (isEligible_iff (mem_named.mp hother).1).mp helig
  exact hne ((honly found server₁ route₁ heligible₁ (hmatches _ _ hfound)).trans
    (honly other server₂ route₂ heligible₂ (hmatches _ _ hother)).symm)

end

end Answer

/-- Target resolution is sound, isolated and independent of spelling for exactly the targets that are
not eclipsed. -/
theorem targetIsolated_iff_not_eclipsed (snapshot : RoutingSnapshot) (userId : String)
    (host : List Char) (port : Nat) :
    TargetIsolated snapshot userId host port ↔ ¬ TargetEclipsed snapshot userId host port := by
  constructor
  · intro h heclipsed
    obtain ⟨rfl, hname, name, hlabel, heclipsed⟩ := heclipsed
    obtain ⟨resolved, hresolved, hnot⟩ := not_onlyMatch_of_eclipsed hname hlabel heclipsed
    exact hnot (h.sound resolved (resolveTarget_eq_ok.mpr ⟨rfl, hresolved⟩))
  · intro hclear
    refine ⟨?_, fun changed hchanged => (hchanged.resolveTarget_eq host port).symm, ?_⟩
    · intro resolved hok
      obtain ⟨rfl, hresolved⟩ := resolveTarget_eq_ok.mp hok
      cases hip : parseIpv4 host with
      | some ip =>
        apply onlyMatch_of_ip _ hresolved
        rw [hip, Option.isSome_some]
      | none =>
        apply onlyMatch_of_name hip _ hresolved
        intro name hlabel heclipsed
        exact hclear ⟨rfl, hip, name, hlabel, heclipsed⟩
    · intro hname other hname' hsame
      cases hsame with
      | inl hsame => exact (hsame.resolveTarget_eq hname hname' userId port).symm
      | inr hsame => exact hsame.resolveTarget_eq hname' hname userId port

/-! ## An eclipsed container -/

/-- A container of one user on one server, its SSH image enabled. -/
def containerOf (id : String) (name : String) : ProxyContainer :=
  { id, ownerId := "alice", serverId := "server", imageId := "image", name := name.toList,
    instanceName := id }

def routeOf (id : String) (ip : String) : ProxyRoute :=
  { containerId := id, serverId := "server", instanceName := id, routedIp := some ip.toList,
    status := "running".toList, sshStatus := "running".toList }

/-- A snapshot of containers of one user, given by id, name and address. -/
def snapshotOf (containers : List (String × String × String)) : RoutingSnapshot :=
  { epoch := 1, generation := 1, deadline := 1000, hostSuffix := "nya".toList,
    users := [⟨"alice", "alice".toList, "active", []⟩],
    servers := [⟨"server", "server".toList, "online".toList⟩],
    images := [⟨"image", true⟩],
    containers := containers.map fun c => containerOf c.1 c.2.1,
    routes := containers.map fun c => routeOf c.1 c.2.2 }

/-- Two containers called `work`, one of which shares its address with a third container. -/
def eclipsingSnapshot : RoutingSnapshot :=
  snapshotOf [("a", "work", "10.0.0.5"), ("b", "work", "10.0.0.6"), ("c", "other", "10.0.0.6")]

/-- The route of the first of them. -/
def workRoute : OwnedResolvedRoute :=
  { userId := "alice", username := "alice".toList, serverId := "server",
    serverSlug := "server".toList, containerId := "a", containerName := "work".toList,
    instanceName := "a", routedIp := "10.0.0.5".toList }

/-- `work` resolves to the first container although the second one matches as well. -/
theorem eclipsed_name_resolves_to_one_of_two :
    eclipsingSnapshot.resolveTarget "alice" "work".toList 22 = .ok workRoute ∧
      ¬ TargetIsolated eclipsingSnapshot "alice" "work".toList 22 := by
  refine ⟨by decide +kernel, ?_⟩
  intro h
  have hname : parseIpv4 "work".toList = none := by decide +kernel
  have hlabel : eclipsingSnapshot.containerNameForHost "work".toList = some "work".toList := by
    decide +kernel
  have heclipsed : Eclipsed eclipsingSnapshot "alice" "work".toList := by decide +kernel
  obtain ⟨resolved, hresolved, hnot⟩ := not_onlyMatch_of_eclipsed hname hlabel heclipsed
  exact hnot (h.sound resolved (resolveTarget_eq_ok.mpr ⟨rfl, hresolved⟩))

/-- Without the shared address both names are resolved as asked, however they are spelled. -/
theorem distinct_addresses_isolate :
    (snapshotOf [("a", "work", "10.0.0.5"), ("c", "other", "10.0.0.6")]).resolveTarget "alice"
        "Work.NYA.".toList 22 = .ok workRoute ∧
      TargetIsolated (snapshotOf [("a", "work", "10.0.0.5"), ("c", "other", "10.0.0.6")]) "alice"
        "Work.NYA.".toList 22 :=
  ⟨by decide +kernel, (targetIsolated_iff_not_eclipsed _ _ _ _).mpr (by decide +kernel)⟩

end Nyabase.SshProxy
