import Nyabase.SshProxy.Session
import Nyabase.SshProxy.TargetResolution

/-!
# What holds of one connection

A session authenticates once: before it has read the store in `auth_succeeded` what it is authenticated as
may change, afterwards it never does.  A bridge is checked once, against the version of the store its second
authorization read.  `ConnectionInv` relates these readings to the versions, `Evolves` says what a single
step of any task may do to a connection.  Being safe from the point of view of a revoker is then stable.
-/

namespace Nyabase.SshProxy

open Lib Connection

/-- An element of a list with one more is of the list, or that one. -/
theorem getElem?_concat_eq_some {α : Type} {xs : List α} {a b : α} {i : Nat} (h : (xs ++ [a])[i]? = some b) :
    xs[i]? = some b ∨ b = a := by
  rw [List.getElem?_append] at h
  split at h
  · exact .inl h
  · exact .inr (List.mem_singleton.mp (List.mem_of_getElem? h))

/-! ## Stages of a session -/

/-- Before and after `auth_succeeded` read the store; while it compares; after it has accepted; closed. -/
inductive Stage where
  | before
  | comparing
  | established
  | over
  deriving DecidableEq

def Purpose.stage : Purpose → Stage
  | .openChannel _ _ => .established
  | _ => .before

def SessionPoint.stage : SessionPoint → Stage
  | .readMode purpose | .readAdmitting purpose | .readHeld purpose => purpose.stage
  | .waiting | .loadLatest _ _ | .setLogin _ | .setPublicKey _ | .setUserId _ | .setPinnedRoute _
  | .setAuthenticatedAt _ | .loadHeld => .before
  | .matching _ _ => .comparing
  | .closing => .over
  | _ => .established

abbrev Connection.stage (connection : Connection) : Stage := connection.session.stage

theorem proceed_stage (purpose : Purpose) : purpose.proceed.stage = purpose.stage := by
  cases purpose with
  | openChannel host port =>
    simp only [Purpose.proceed]
    split <;> rfl
  | _ => rfl

theorem afterAdmit_stage (purpose : Purpose) (admitted : Bool) :
    (purpose.afterAdmit admitted).stage = purpose.stage := by
  cases admitted with
  | true =>
    rw [← proceed_stage]
    cases purpose <;> rfl
  | false => cases purpose <;> rfl

/-- The route a child is bound to. -/
def ChildStage.route : ChildStage → Option OwnedResolvedRoute
  | .bound route | .checked route _ | .running route _ => some route
  | .permit | .ended => none

/-- The route of a checked child, with the version that authorized it. -/
def ChildStage.check : ChildStage → Option (OwnedResolvedRoute × Nat)
  | .checked route version | .running route version => some (route, version)
  | .permit | .bound _ | .ended => none

/-! ## `authorization_matches`, lock by lock -/

/-- A lock leaves the rest of the answer unchanged, if the connection does not change. -/
theorem matchStep_spec (connection : Connection) (snapshot : Option RoutingSnapshot) (point : MatchPoint) :
    match connection.matchStep snapshot point with
    | .inl next => connection.matchFrom snapshot next = connection.matchFrom snapshot point
    | .inr answer => connection.matchFrom snapshot point = answer := by
  cases point with
  | login =>
    unfold matchStep matchFrom authorizationMatches
    cases connection.login <;> cases snapshot <;> simp
  | publicKey =>
    unfold matchStep matchFrom
    cases connection.publicKey <;> simp
  | userId publicKey =>
    unfold matchStep matchFrom userMatches
    cases connection.userId with
    | none => simp
    | some userId => by_cases h : keyHolder snapshot publicKey = some userId <;> simp [h]
  | pinnedRoute userId =>
    unfold matchStep matchFrom pinnedMatches
    cases connection.pinnedRoute <;> simp

/-- What a connection is authenticated as. -/
def SameIdentity (c c' : Connection) : Prop :=
  c'.login = c.login ∧ c'.publicKey = c.publicKey ∧ c'.userId = c.userId ∧ c'.pinnedRoute = c.pinnedRoute

theorem SameIdentity.matchFrom_eq {c c' : Connection} (h : SameIdentity c c') (snapshot : Option RoutingSnapshot)
    (point : MatchPoint) : c'.matchFrom snapshot point = c.matchFrom snapshot point := by
  obtain ⟨hlogin, hkey, huser, hpinned⟩ := h
  have hpinnedMatches : c'.pinnedMatches = c.pinnedMatches := by
    funext s u
    unfold pinnedMatches
    rw [hpinned]
  have huserMatches : c'.userMatches = c.userMatches := by
    funext s k
    unfold userMatches
    rw [huser, hpinnedMatches]
  cases point <;> simp [matchFrom, authorizationMatches, hlogin, hkey, huserMatches, hpinnedMatches]

theorem SameIdentity.authorizationMatches_eq {c c' : Connection} (h : SameIdentity c c')
    (snapshot : Option RoutingSnapshot) : c'.authorizationMatches snapshot = c.authorizationMatches snapshot :=
  h.matchFrom_eq snapshot .login

/-! ## The invariant of a connection -/

/-- Some version from `since` on is a snapshot with the property. -/
def HeldSince (versions : List (Option RoutingSnapshot)) (since : Nat) (p : RoutingSnapshot → Bool) : Prop :=
  ∃ version snapshot, since ≤ version ∧ versions[version]? = some (some snapshot) ∧ p snapshot = true

/-- What a point of the session says about its connection: that the login is set, that the session has
a key, whose routes it looks up, how far the child is that it opens. -/
def Connection.Opening (c : Connection) : SessionPoint → Prop
  | .setPublicKey _ | .setUserId _ | .setPinnedRoute _ | .setAuthenticatedAt _ => c.login ≠ none
  | .authorizeRoute _ _ | .checkChannels _ | .reserve _ => c.sessionKey ≠ none
  | .connecting child _ | .bind child _ =>
    ∃ it, c.children[child]? = some it ∧ it.stage = .permit
  | .recheckUser child route => ∃ it, c.children[child]? = some it ∧ it.stage = .bound route
  | .recheckRoute child route userId =>
    c.userId = some userId ∧ ∃ it, c.children[child]? = some it ∧ it.stage = .bound route
  | .accepting child =>
    ∃ it route version, c.children[child]? = some it ∧ it.stage = .checked route version
  | .dropHandle child => ∃ it, c.children[child]? = some it
  | .dropRoute child => ∃ it, c.children[child]? = some it ∧ it.stage = .ended
  | _ => True

structure ConnectionInv (versions : List (Option RoutingSnapshot)) (c : Connection) : Prop where
  comparing : ∀ current point, c.session = .matching current point → versions[c.admittedAt]? = some current ∧
      c.matchFrom current point = c.authorizationMatches current
  established : c.stage = .established →
    ∃ current, versions[c.admittedAt]? = some current ∧ c.authorizationMatches current = true
  childless : c.stage ≠ .established ∨ c.sessionKey = none → c.children = []
  anonymous : c.login = none → c.sessionKey = none
  opening : c.Opening c.session
  checked : ∀ (id : Nat) (child : Child), c.children[id]? = some child →
    ∀ route version, child.stage.check = some (route, version) →
      c.userId = some route.userId ∧ c.admittedAt ≤ version ∧
        ∃ snapshot, versions[version]? = some (some snapshot) ∧ route.stillAuthorized snapshot = true
  handled : ∀ (id : Nat) (child : Child), c.children[id]? = some child → child.stage ≠ .ended →
    child.aborted = false → c.revoked = false → child.handle = true

/-- The bridges of a connection are in `bridge_routes`, save those that were aborted or are being removed
right now. -/
def Routed (removing : Nat → Prop) (c : Connection) : Prop :=
  ∀ (id : Nat) (child : Child) (route : OwnedResolvedRoute), c.children[id]? = some child →
    child.stage.route = some route → child.aborted = false → c.revoked = false → ¬ removing id →
    child.bridgeRoute = some route

/-- What one step may do to a connection while the store has had `count` contents. -/
structure Evolves (count : Nat) (c c' : Connection) : Prop where
  unmarked : c'.revoked = false → c.revoked = false
  identity : c'.stage ≠ .before → c'.stage ≠ .over → (c.stage = .before ∧ count ≤ c'.admittedAt + 1) ∨
    (c.stage ≠ .before ∧ c.stage ≠ .over ∧ SameIdentity c c' ∧ c'.admittedAt = c.admittedAt)
  children : ∀ (id : Nat) (child' : Child), c'.children[id]? = some child' →
    ∀ route version, child'.stage.check = some (route, version) → count ≤ version + 1 ∨
        ∃ child, c.children[id]? = some child ∧ child.stage.check = some (route, version) ∧
          (child'.aborted = false → child.aborted = false)

/-- A step that keeps the invariant and does not do more than a step may. -/
structure Advance (versions : List (Option RoutingSnapshot)) (c c' : Connection) : Prop where
  registered : c'.registered = c.registered
  inv : ConnectionInv versions c'
  evolves : Evolves versions.length c c'

/-- Such a step that keeps the routes of the bridges, too. -/
structure Progress (versions : List (Option RoutingSnapshot)) (c c' : Connection) : Prop where
  advance : Advance versions c c'
  routed : ∀ removing, Routed removing c → Routed removing c'

/-! ## Steps that leave the children alone -/

section Steps

variable {versions : List (Option RoutingSnapshot)} {c c' : Connection}

/-- A step that keeps the children cannot disturb the bridges. -/
theorem routed_of_children_eq (hchildren : c'.children = c.children) (hrevoked : c'.revoked = false → c.revoked = false)
    (removing : Nat → Prop) (h : Routed removing c) : Routed removing c' := by
  intro id child route hchild hroute haborted hunmarked
  rw [hchildren] at hchild
  exact h id child route hchild hroute haborted (hrevoked hunmarked)

theorem evolves_children_of_eq (hchildren : c'.children = c.children) (id : Nat) (child' : Child)
    (hchild : c'.children[id]? = some child') (route : OwnedResolvedRoute) (version : Nat)
    (hcheck : child'.stage.check = some (route, version)) : versions.length ≤ version + 1 ∨
      ∃ child, c.children[id]? = some child ∧ child.stage.check = some (route, version) ∧
        (child'.aborted = false → child.aborted = false) := by
  rw [hchildren] at hchild
  exact .inr ⟨child', hchild, hcheck, fun h => h⟩

/-- What `Evolves.identity` asks, when stage and identity are what they were. -/
theorem evolves_identity_of_eq {count : Nat} (hstage : c'.stage = c.stage)
    (hidentity : SameIdentity c c') (hadmitted : c'.admittedAt = c.admittedAt) (hbefore : c'.stage ≠ .before)
    (hover : c'.stage ≠ .over) : (c.stage = .before ∧ count ≤ c'.admittedAt + 1) ∨
      (c.stage ≠ .before ∧ c.stage ≠ .over ∧ SameIdentity c c' ∧ c'.admittedAt = c.admittedAt) :=
  .inr ⟨hstage ▸ hbefore, hstage ▸ hover, hidentity, hadmitted⟩

section

variable (inv : ConnectionInv versions c)

include inv

/-- Before `auth_succeeded` has read the store everything but the children may change. -/
theorem Progress.before (hstage : c.stage = .before) (hstage' : c'.stage = .before)
    (hchildren : c'.children = c.children) (hrevoked : c'.revoked = c.revoked)
    (hregistered : c'.registered = c.registered) (hanonymous : c'.login = none → c'.sessionKey = none)
    (hopening : c'.Opening c'.session) : Progress versions c c' := by
  have hnone : c.children = [] := inv.childless (.inl (by rw [hstage]; exact Stage.noConfusion))
  have hnone' : c'.children = [] := hchildren.trans hnone
  refine ⟨⟨hregistered, ⟨?_, ?_, fun _ => hnone', hanonymous, hopening, ?_, ?_⟩, ?_⟩, ?_⟩
  · intro current point hpoint
    rw [stage, hpoint] at hstage'
    cases hstage'
  · intro hestablished
    rw [hestablished] at hstage'
    cases hstage'
  · intro id child hchild
    rw [hnone'] at hchild
    cases hchild
  · intro id child hchild
    rw [hnone'] at hchild
    cases hchild
  · exact ⟨fun h => hrevoked ▸ h, fun h => absurd hstage' h, evolves_children_of_eq hchildren⟩
  · exact routed_of_children_eq hchildren (fun h => hrevoked ▸ h)

/-- A session that has not been accepted is closed. -/
theorem Progress.close (hstage : c.stage ≠ .established) : Progress versions c (c.goTo .closing) := by
  have hnone : c.children = [] := inv.childless (.inl hstage)
  refine ⟨⟨rfl, ⟨?_, ?_, fun _ => hnone, inv.anonymous, True.intro, inv.checked, inv.handled⟩, ?_⟩, ?_⟩
  · nofun
  · nofun
  · exact ⟨id, fun _ h => absurd rfl h, evolves_children_of_eq rfl⟩
  · exact routed_of_children_eq rfl id

omit inv in
theorem getElem?_version (plane : Plane) (h : plane.versions ≠ []) :
    plane.versions[plane.version]? = some plane.held := by
  rw [Plane.version, Plane.held, ← List.getLast?_eq_getElem?, List.getLast?_eq_some_getLast h]
  rfl

omit inv in
/-- `auth_succeeded` reads the store. -/
theorem Progress.load {plane : Plane} (inv : ConnectionInv plane.versions c)
    (hplane : plane.versions ≠ []) (hstage : c.stage = .before) : Progress plane.versions c
      { c with admittedAt := plane.version, session := .matching plane.held .login } := by
  have hnone : c.children = [] := inv.childless (.inl (by rw [hstage]; exact Stage.noConfusion))
  refine ⟨⟨rfl, ⟨?_, ?_, fun _ => hnone, inv.anonymous, True.intro, ?_, inv.handled⟩, ?_⟩, ?_⟩
  · intro current point hpoint
    cases hpoint
    exact ⟨getElem?_version plane hplane, rfl⟩
  · nofun
  · intro id child hchild
    rw [hnone] at hchild
    cases hchild
  · refine ⟨id, fun _ _ => .inl ⟨hstage, ?_⟩, evolves_children_of_eq rfl⟩
    show plane.versions.length ≤ plane.versions.length - 1 + 1
    omega
  · exact routed_of_children_eq rfl id

/-- `auth_succeeded` takes one more lock, and may accept. -/
theorem Progress.compare {current : Option RoutingSnapshot} {point : MatchPoint}
    (hsession : c.session = .matching current point) : (∀ next, c.matchStep current point = .inl next →
      Progress versions c (c.goTo (.matching current next))) ∧
    (c.matchStep current point = .inr true → Progress versions c (c.goTo .ready)) := by
  obtain ⟨hversion, hrest⟩ := inv.comparing current point hsession
  have hstage : c.stage = .comparing := by rw [stage, hsession]; rfl
  have hnone : c.children = [] := inv.childless (.inl (by rw [hstage]; exact Stage.noConfusion))
  have hspec := matchStep_spec c current point
  have hevolves : ∀ p, Evolves versions.length c (c.goTo p) := fun p =>
    ⟨id, fun _ _ => .inr ⟨by simp [hstage], by simp [hstage], ⟨rfl, rfl, rfl, rfl⟩, rfl⟩, evolves_children_of_eq rfl⟩
  constructor
  · intro next hnext
    rw [hnext] at hspec
    refine ⟨⟨rfl, ⟨?_, ?_, fun _ => hnone, inv.anonymous, True.intro, inv.checked, inv.handled⟩,
      hevolves _⟩, routed_of_children_eq rfl id⟩
    · intro current' point' hpoint
      cases hpoint
      exact ⟨hversion, (SameIdentity.matchFrom_eq ⟨rfl, rfl, rfl, rfl⟩ _ _).trans (hspec.trans hrest)⟩
    · nofun
  · intro haccepted
    rw [haccepted] at hspec
    refine ⟨⟨rfl, ⟨?_, ?_, fun _ => hnone, inv.anonymous, True.intro, inv.checked, inv.handled⟩,
      hevolves _⟩, routed_of_children_eq rfl id⟩
    · nofun
    · intro _
      exact ⟨current, hversion, hrest.symm.trans hspec⟩

/-- Within a stage a session may go to any point that its child is ready for. -/
theorem Progress.goTo {point : SessionPoint} (hstage : c.stage = .established)
    (hstage' : point.stage = .established) (hopening : c.Opening point) : Progress versions c (c.goTo point) := by
  refine ⟨⟨rfl, ⟨?_, fun _ => inv.established hstage, ?_, inv.anonymous, ?_, inv.checked,
    inv.handled⟩, ?_⟩, routed_of_children_eq rfl id⟩
  · intro current point' hpoint
    have hpoint : point = .matching current point' := hpoint
    rw [hpoint] at hstage'
    cases hstage'
  · intro h
    apply inv.childless
    obtain h | h := h
    · exact absurd hstage' h
    · exact .inr h
  · cases point <;> exact hopening
  · exact ⟨id, evolves_identity_of_eq (hstage'.trans hstage.symm) ⟨rfl, rfl, rfl, rfl⟩ rfl, evolves_children_of_eq rfl⟩

end

/-! ## Steps that change children -/

/-- What may become of a child in one step. -/
structure ChildStep (versions : List (Option RoutingSnapshot)) (c : Connection)
    (child child' : Child) : Prop where
  checked : ∀ route version, child'.stage.check = some (route, version) → child.stage.check = some (route, version) ∨
      (versions.length ≤ version + 1 ∧ c.userId = some route.userId ∧ c.admittedAt ≤ version ∧
        ∃ snapshot, versions[version]? = some (some snapshot) ∧ route.stillAuthorized snapshot = true)
  unmarked : child'.aborted = false → child.aborted = false
  handled : child'.stage ≠ .ended → child.stage ≠ .ended ∧
    (child.handle = true → child'.aborted = false → c.revoked = false → child'.handle = true)

/-- A child that is bound to a route afterwards is listed with it, or was listed and still is. -/
def KeepsRoute (child child' : Child) : Prop :=
  ∀ route, child'.stage.route = some route → child'.bridgeRoute = some route ∨ (child.stage.route = some route ∧
      (child.bridgeRoute = some route → child'.bridgeRoute = some route))

theorem ChildStep.refl (child : Child) : ChildStep versions c child child :=
  ⟨fun _ _ h => .inl h, fun h => h, fun h => ⟨h, fun h _ _ => h⟩⟩

theorem KeepsRoute.refl (child : Child) : KeepsRoute child child := fun _ h => .inr ⟨h, fun h => h⟩

/-- A child may end at any time. -/
theorem ChildStep.of_ended {child child' : Child} (hended : child'.stage = .ended)
    (hunmarked : child'.aborted = false → child.aborted = false) :
    ChildStep versions c child child' ∧ KeepsRoute child child' := by
  refine ⟨⟨?_, hunmarked, fun h => absurd hended h⟩, ?_⟩
  · intro route version hcheck
    rw [hended] at hcheck
    cases hcheck
  · intro route hroute
    rw [hended] at hroute
    cases hroute

/-- A step on children, one by one, by a session that has been accepted or by another task. -/
theorem Advance.children {f : Nat → Child → Child} (inv : ConnectionInv versions c)
    (hchildren : ∀ id : Nat, c'.children[id]? = c.children[id]?.map (f id))
    (hregistered : c'.registered = c.registered) (hrevoked : c'.revoked = c.revoked)
    (hidentity : SameIdentity c c') (hadmitted : c'.admittedAt = c.admittedAt) (hkey : c'.sessionKey = c.sessionKey)
    (hsession : c'.session = c.session ∨ (c.stage = .established ∧ c'.stage = .established))
    (hopening : c'.Opening c'.session)
    (hstep : ∀ (id : Nat) (child : Child), c.children[id]? = some child → ChildStep versions c child (f id child)) :
    Advance versions c c' := by
  have hstage : c'.stage = c.stage := by
    obtain h | ⟨h, h'⟩ := hsession
    · rw [stage, h]
    · exact h'.trans h.symm
  -- every child of the new connection comes from one of the old
  have hfrom : ∀ (id : Nat) (child' : Child), c'.children[id]? = some child' →
      ∃ child, c.children[id]? = some child ∧ ChildStep versions c child child' := by
    intro id child' hchild
    rw [hchildren, Option.map_eq_some_iff] at hchild
    obtain ⟨child, hchild, rfl⟩ := hchild
    exact ⟨child, hchild, hstep id child hchild⟩
  have hnil : c.children = [] → c'.children = [] := by
    intro h
    apply List.eq_nil_iff_forall_not_mem.mpr
    intro child hmem
    obtain ⟨id, hid⟩ := List.mem_iff_getElem?.mp hmem
    rw [hchildren, h] at hid
    cases hid
  refine ⟨hregistered, ⟨?_, ?_, ?_, ?_, hopening, ?_, ?_⟩, ⟨fun h => hrevoked ▸ h, ?_, ?_⟩⟩
  · intro current point hpoint
    obtain h | ⟨-, h⟩ := hsession
    · rw [hadmitted, hidentity.matchFrom_eq, hidentity.authorizationMatches_eq]
      exact inv.comparing current point (h ▸ hpoint)
    · rw [stage, hpoint] at h
      cases h
  · intro h
    rw [hadmitted]
    obtain ⟨current, hcurrent, hmatches⟩ := inv.established (hstage ▸ h)
    exact ⟨current, hcurrent, (hidentity.authorizationMatches_eq current).trans hmatches⟩
  · intro h
    apply hnil
    apply inv.childless
    rw [hstage, hkey] at h
    exact h
  · intro h
    rw [hkey]
    exact inv.anonymous (hidentity.1 ▸ h)
  · intro id child' hchild route version hcheck
    obtain ⟨child, hold, hstep⟩ := hfrom id child' hchild
    rw [hadmitted, hidentity.2.2.1]
    obtain h | ⟨-, hchecked⟩ := hstep.checked route version hcheck
    · exact inv.checked id child hold route version h
    · exact hchecked
  · intro id child' hchild hlive haborted hunmarked
    obtain ⟨child, hold, hstep⟩ := hfrom id child' hchild
    obtain ⟨hlive, hhandle⟩ := hstep.handled hlive
    rw [hrevoked] at hunmarked
    exact hhandle (inv.handled id child hold hlive (hstep.unmarked haborted) hunmarked) haborted hunmarked
  · exact evolves_identity_of_eq hstage hidentity hadmitted
  · intro id child' hchild route version hcheck
    obtain ⟨child, hold, hstep⟩ := hfrom id child' hchild
    obtain h | ⟨hfresh, -⟩ := hstep.checked route version hcheck
    · exact .inr ⟨child, hold, h, hstep.unmarked⟩
    · exact .inl hfresh

theorem Routed.children {f : Nat → Child → Child} {removing : Nat → Prop} (h : Routed removing c)
    (hchildren : ∀ id : Nat, c'.children[id]? = c.children[id]?.map (f id))
    (hrevoked : c'.revoked = false → c.revoked = false)
    (hstep : ∀ (id : Nat) (child : Child), c.children[id]? = some child →
      ((f id child).aborted = false → child.aborted = false) ∧ KeepsRoute child (f id child)) : Routed removing c' := by
  intro id child' route hchild hroute haborted hunmarked hkept
  rw [hchildren, Option.map_eq_some_iff] at hchild
  obtain ⟨child, hold, rfl⟩ := hchild
  obtain ⟨hlive, hkeeps⟩ := hstep id child hold
  obtain h' | ⟨hroute, hlisted⟩ := hkeeps route hroute
  · exact h'
  · exact hlisted (h id child route hold hroute (hlive haborted) (hrevoked hunmarked) hkept)

theorem getElem?_modifyChild (c : Connection) (child : Nat) (f : Child → Child) (id : Nat) :
    (c.modifyChild child f).children[id]? = c.children[id]?.map fun it => if child = id then f it else it := by
  rw [modifyChild, List.getElem?_modify]
  rfl

/-- What holds of the changed child and of every unchanged one holds of all. -/
theorem forall_modified {P : Child → Child → Prop} {child : Nat} {f : Child → Child} (hsame : ∀ it, P it it)
    (hchild : ∀ it, c.children[child]? = some it → P it (f it)) (id : Nat) (it : Child)
    (hit : c.children[id]? = some it) : P it (if child = id then f it else it) := by
  split
  · rename_i h
    subst h
    exact hchild it hit
  · exact hsame it

/-- A step of a session on the child it opens. -/
theorem Progress.modifyChild {child : Nat} {it : Child} {f : Child → Child} {point : SessionPoint} {n : Nat}
    (inv : ConnectionInv versions c) (hit : c.children[child]? = some it) (hstage : c.stage = .established)
    (hstage' : point.stage = .established)
    (hopening : Connection.Opening { c.modifyChild child f with session := point, channels := n } point)
    (hstep : ChildStep versions c it (f it) ∧ KeepsRoute it (f it)) :
    Progress versions c { c.modifyChild child f with session := point, channels := n } := by
  have hall := @forall_modified c (fun it it' => ChildStep versions c it it' ∧ KeepsRoute it it') child f
    (fun it => ⟨.refl it, .refl it⟩) fun it' hit' => Option.some.inj (hit.symm.trans hit') ▸ hstep
  constructor
  · exact @Advance.children versions c _ (fun id it => if child = id then f it else it) inv
      (getElem?_modifyChild c child f) rfl rfl ⟨rfl, rfl, rfl, rfl⟩ rfl rfl
      (.inr ⟨hstage, hstage'⟩) hopening (fun id it hit => (hall id it hit).1)
  · intro removing hrouted
    exact hrouted.children (getElem?_modifyChild c child f) (fun h => h)
      (fun id it hit => ⟨(hall id it hit).1.unmarked, (hall id it hit).2⟩)

end Steps

end Nyabase.SshProxy
