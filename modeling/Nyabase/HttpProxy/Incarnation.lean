import Nyabase.HttpProxy.SnapshotStore

/-!
# A route incarnation never survives a gap

An exchange holds the incarnation its hostname had when it was admitted, and stays authorized while the
store still carries that incarnation.  The point of an incarnation is that it ends for good with the
first gap: a moment at which no unexpired snapshot carries the hostname with the same authority.

The argument goes backwards in time.  If a state carries an old incarnation and is still fresh at the
next lock, then so was the state before it at its own lock (`Carries.back`): an installation only
inherits from a snapshot it found fresh, and every other operation keeps or drops what it finds.  So
one look at the end of a run settles all of it.

`store` tests the freshness of the held snapshot against the instant it received the new one, not
against the instant it holds the lock.  A lease that lapses in between is bridged, so the result needs
`LeasesSettled`: no lease lapses between the reading an operation tests it against and its lock.
-/

namespace Nyabase.HttpProxy

open Lib ProxyCommon RoutingSnapshot SnapshotState

/-! ## Runs -/

/-- At `now` the store holds an unexpired snapshot with the authorization's hostname under the same
authority. -/
def Held (state : SnapshotState) (now : Nat) (authorization : RouteAuthorization) : Prop :=
  ∃ snapshot, state.current = some snapshot ∧ snapshot.isFresh now = true ∧
    ∃ current, snapshot.get authorization.route.hostname = some current ∧
      current.route.sameAuthority authorization.route = true

/-- `Held` at every instant from `now` to the last lock of a run, in every state the store is in at
that instant. -/
def HeldThroughout (authorization : RouteAuthorization) : SnapshotState → Nat → List Moment → Prop
  | state, now, [] => Held state now authorization
  | state, now, moment :: rest =>
    (∀ instant, now ≤ instant → instant ≤ moment.time → Held state instant authorization) ∧
      HeldThroughout authorization (moment.operation.perform state) moment.time rest

/-- The clock reading an operation tests the freshness of the held snapshot against. -/
def Operation.testedAt : Operation → Option Nat
  | .store _ receivedAt _ _ => some receivedAt
  | .load readAt => some readAt
  | .expire readAt _ => some readAt
  | .authorizeRoute readAt _ => some readAt
  | .authorizationDeadline readAt _ => some readAt
  | .beginControlEpoch => none
  | .holdAfterDisconnect _ _ => none
  | .clearEpoch => none

/-- The held lease does not lapse between the reading the operation tests it against and the operation's lock. -/
abbrev LeaseSettled (state : SnapshotState) (moment : Moment) : Prop :=
  ∀ tested ∈ moment.operation.testedAt, ∀ current ∈ state.current,
    current.isFresh tested = true → current.isFresh moment.time = true

def LeasesSettled : SnapshotState → List Moment → Prop
  | _, [] => True
  | state, moment :: rest => LeaseSettled state moment ∧ LeasesSettled (moment.operation.perform state) rest

instance decidableLeasesSettled :
    (state : SnapshotState) → (moments : List Moment) → Decidable (LeasesSettled state moments)
  | _, [] => inferInstanceAs (Decidable True)
  | state, moment :: rest =>
    have := decidableLeasesSettled (moment.operation.perform state) rest
    inferInstanceAs (Decidable (LeaseSettled state moment ∧ LeasesSettled (moment.operation.perform state) rest))

/-! ## Authority and lookup -/

theorem Route.sameAuthority_iff {route other : Route} : route.sameAuthority other = true ↔
      (route.bindingId, route.hostname, route.domainPoolId, route.ownerId, route.containerId,
          route.instanceName, route.routedIp, route.targetPort) =
        (other.bindingId, other.hostname, other.domainPoolId, other.ownerId, other.containerId,
          other.instanceName, other.routedIp, other.targetPort) := by
  simp [Route.sameAuthority, and_assoc]

theorem Route.sameAuthority_trans {first second third : Route} (h : first.sameAuthority second = true)
    (h' : second.sameAuthority third = true) : first.sameAuthority third = true :=
  Route.sameAuthority_iff.mpr ((Route.sameAuthority_iff.mp h).trans (Route.sameAuthority_iff.mp h'))

variable {hostname : String} {state : SnapshotState} {now : Nat} {authorization : RouteAuthorization}

theorem get_hostname {snapshot : RoutingSnapshot} {current : AuthorizedRoute}
    (h : snapshot.get hostname = some current) :
    current.route.hostname = hostname ∧ current ∈ snapshot.routes := by
  have hfound := List.find?_some h
  have hmem := List.mem_of_find?_eq_some h
  exact ⟨beq_iff_eq.mp hfound, List.mem_reverse.mp hmem⟩

theorem inherit_route (previous : RoutingSnapshot) (current : AuthorizedRoute) :
    (current.inherit previous).route = current.route := by
  unfold AuthorizedRoute.inherit
  split
  · split <;> rfl
  · rfl

/-- Inheriting keeps the lookup of a hostname and changes at most the incarnation found. -/
theorem get_inheritIncarnations (snapshot previous : RoutingSnapshot) (hostname : String) :
    (snapshot.inheritIncarnations previous).get hostname =
      (snapshot.get hostname).map (AuthorizedRoute.inherit previous) := by
  unfold RoutingSnapshot.get RoutingSnapshot.inheritIncarnations
  rw [← List.map_reverse, List.find?_map]
  congr 2
  funext current
  simp [inherit_route]

/-! ## Tokens -/

/-- Every incarnation in the store was handed out before. -/
def TokensUsed (state : SnapshotState) : Prop :=
  ∀ snapshot, state.current = some snapshot → ∀ current ∈ snapshot.routes, current.incarnation < state.nextToken

/-- The routes of a received snapshot carry new incarnations. -/
theorem incarnation_fromReceived {snapshot : ProxySnapshot} {receivedAt wallNow firstToken : Nat}
    {routing : RoutingSnapshot} (h : fromReceived snapshot receivedAt wallNow firstToken = .ok routing) :
    routing.receivedAt = receivedAt ∧ ∀ current ∈ routing.routes, firstToken ≤ current.incarnation ∧
        current.incarnation < firstToken + routing.routes.length := by
  obtain ⟨-, h⟩ := ensure_bind_eq_ok.mp h
  obtain ⟨remaining, -, h⟩ := bind_eq_ok.mp h
  obtain ⟨-, h⟩ := ensure_bind_eq_ok.mp h
  cases h
  refine ⟨rfl, fun current hcurrent => ?_⟩
  obtain ⟨⟨route, index⟩, hmem, rfl⟩ := List.mem_map.mp hcurrent
  have hindex : index < snapshot.routes.length := by
    have := List.snd_lt_of_mem_zipIdx hmem
    omega
  simp only [List.length_map, List.length_zipIdx]
  omega

/-! ## One operation -/

/-- Everything an operation can do to the held snapshot: keep at most it, with a lease no longer than it had, or
replace it by a received one, whose routes may inherit from it if it was fresh on receipt. -/
inductive Effect (state : SnapshotState) (operation : Operation) (next : SnapshotState) : Prop
  | kept (htoken : state.nextToken ≤ next.nextToken)
      (hnext : ∀ snapshot, next.current = some snapshot → ∃ current deadline, state.current = some current ∧
        deadline ≤ current.deadline ∧ snapshot = { current with deadline })
  | installed (htoken : state.nextToken ≤ next.nextToken) (routing : RoutingSnapshot)
      (hfresh : ∀ current ∈ routing.routes, state.nextToken ≤ current.incarnation ∧
        current.incarnation < next.nextToken)
      (hnext : next.current = some routing ∨ ∃ previous, state.current = some previous ∧
        operation.testedAt = some routing.receivedAt ∧
        previous.isFresh routing.receivedAt = true ∧
        next.current = some (routing.inheritIncarnations previous))

section

variable {operation : Operation} {next : SnapshotState}

theorem Effect.dropped (htoken : state.nextToken ≤ next.nextToken) (hnone : next.current = none) :
    Effect state operation next :=
  .kept htoken fun _ hsnapshot => absurd (hnone.symm.trans hsnapshot) (by simp)

theorem Effect.same (htoken : state.nextToken ≤ next.nextToken) (hsame : next.current = state.current) :
    Effect state operation next :=
  .kept htoken fun snapshot hsnapshot => ⟨snapshot, snapshot.deadline, hsame.symm.trans hsnapshot, le_rfl, rfl⟩

end

theorem effect_dropExpired (operation : Operation) (now : Nat) : Effect state operation (state.dropExpired now) := by
  unfold dropExpired
  split
  · exact .dropped le_rfl rfl
  · exact .same le_rfl rfl

theorem effect_store (snapshot : ProxySnapshot) (receivedAt checkedAt wallNow : Nat) :
    Effect state (.store snapshot receivedAt checkedAt wallNow)
      (state.store snapshot receivedAt checkedAt wallNow).2 := by
  unfold store
  split
  · exact .same le_rfl rfl
  rename_i routing hrouting
  split
  · exact .same le_rfl rfl
  obtain ⟨hreceived, htokens⟩ := incarnation_fromReceived hrouting
  unfold install
  by_cases hexpired : state.isExpired routing.receivedAt = true
  · simp only [hexpired, if_true]
    split
    · exact .dropped le_rfl rfl
    · exact .installed (Nat.le_add_right _ _) routing htokens (.inl rfl)
  · simp only [hexpired, if_false, Bool.false_eq_true]
    split
    · exact .same le_rfl rfl
    -- an unexpired snapshot is inherited from; without one the received routes stand alone
    cases hcurrent : state.current with
    | none => exact .installed (Nat.le_add_right _ _) routing htokens (.inl rfl)
    | some previous =>
      have hprevious : previous.isFresh routing.receivedAt = true := by
        simpa [isExpired, hcurrent] using hexpired
      refine .installed (Nat.le_add_right _ _) routing ?_ (.inr ⟨previous, hcurrent, ?_, hprevious, rfl⟩)
      · intro current hmem
        have hbound := htokens current hmem
        simp only [RoutingSnapshot.inheritIncarnations, List.length_map]
        exact hbound
      · rw [hreceived]
        rfl

theorem effect_perform (state : SnapshotState) (operation : Operation) :
    Effect state operation (operation.perform state) := by
  cases operation with
  | store snapshot receivedAt checkedAt wallNow =>
    exact effect_store snapshot receivedAt checkedAt wallNow
  | load readAt | authorizeRoute readAt hostname | authorizationDeadline readAt expected =>
    exact effect_dropExpired _ readAt
  | expire readAt lease =>
    show Effect state _ (state.expire readAt lease).2
    unfold expire
    dsimp only
    split
    · exact .dropped le_rfl rfl
    · exact .same le_rfl rfl
  | beginControlEpoch => exact .same (Nat.le_succ _) rfl
  | holdAfterDisconnect readAt hold =>
    show Effect state _ (state.holdAfterDisconnect readAt hold)
    unfold holdAfterDisconnect
    split
    · exact .dropped (Nat.le_succ _) rfl
    split
    · rename_i current hcurrent
      split
      · rename_i hshorter
        refine .kept le_rfl ?_
        rintro _ ⟨⟩
        exact ⟨current, readAt + hold, hcurrent, hshorter.le, rfl⟩
      · exact .same le_rfl rfl
    · exact .same le_rfl rfl
  | clearEpoch => exact .dropped (Nat.le_succ _) rfl

/-! ## Tokens along a run -/

theorem tokensUsed_initial : TokensUsed initial := by
  intro snapshot hsnapshot
  exact absurd hsnapshot (by simp [initial])

theorem inherit_incarnation {previous : RoutingSnapshot} {current : AuthorizedRoute} :
    (current.inherit previous).incarnation = current.incarnation ∨
      ∃ old, previous.get current.route.hostname = some old ∧ old.route.sameAuthority current.route = true ∧
        (current.inherit previous).incarnation = old.incarnation := by
  fun_cases AuthorizedRoute.inherit previous current with
  | case1 old hold hsame => exact .inr ⟨old, hold, hsame, rfl⟩
  | case2 | case3 => exact .inl rfl

theorem TokensUsed.perform (h : TokensUsed state) (operation : Operation) : TokensUsed (operation.perform state) := by
  intro snapshot hsnapshot current hcurrent
  cases effect_perform state operation with
  | kept htoken hnext =>
    obtain ⟨previous, deadline, hprevious, -, rfl⟩ := hnext snapshot hsnapshot
    exact (h previous hprevious current hcurrent).trans_le htoken
  | installed htoken routing hfresh hnext =>
    rcases hnext with hnext | ⟨previous, hprevious, -, -, hnext⟩
    · obtain rfl := Option.some.inj (hnext.symm.trans hsnapshot)
      exact (hfresh current hcurrent).2
    obtain rfl := Option.some.inj (hnext.symm.trans hsnapshot)
    obtain ⟨received, hreceived, rfl⟩ := List.mem_map.mp hcurrent
    rcases @inherit_incarnation previous received with hsame | ⟨old, hold, -, hsame⟩
    · rw [hsame]
      exact (hfresh received hreceived).2
    · have := h previous hprevious old (get_hostname hold).2
      omega

theorem TokensUsed.run (h : TokensUsed state) (moments : List Moment) : TokensUsed (runFrom state moments) := by
  induction moments generalizing state with
  | nil => exact h
  | cons moment moments ih => exact ih (h.perform moment.operation)

/-! ## Backwards in time -/

/-- The store carries the authorization's incarnation, in a snapshot fresh at `now`. -/
def Carries (state : SnapshotState) (now : Nat) (authorization : RouteAuthorization) : Prop :=
  ∃ snapshot, state.current = some snapshot ∧ snapshot.isFresh now = true ∧
    ∃ current, snapshot.get authorization.route.hostname = some current ∧
      current.incarnation = authorization.incarnation ∧
      current.route.sameAuthority authorization.route = true

theorem Carries.earlier {instant : Nat} (h : Carries state now authorization) (hinstant : instant ≤ now) :
    Carries state instant authorization := by
  obtain ⟨snapshot, hsnapshot, hfresh, hcurrent⟩ := h
  refine ⟨snapshot, hsnapshot, ?_, hcurrent⟩
  simp only [isFresh, decide_eq_true_eq] at hfresh ⊢
  omega

theorem Carries.held (h : Carries state now authorization) : Held state now authorization := by
  obtain ⟨snapshot, hsnapshot, hfresh, current, hcurrent, -, hsame⟩ := h
  exact ⟨snapshot, hsnapshot, hfresh, current, hcurrent, hsame⟩

/-- A lookup that finds an old incarnation found a route that inherited it. -/
theorem inherited_of_old {routing previous : RoutingSnapshot} {current : AuthorizedRoute} {token : Nat}
    (hfresh : ∀ received ∈ routing.routes, token ≤ received.incarnation)
    (hget : (routing.inheritIncarnations previous).get hostname = some current) (hold : current.incarnation < token) :
    ∃ old, previous.get hostname = some old ∧ old.incarnation = current.incarnation ∧
      old.route.sameAuthority current.route = true := by
  rw [get_inheritIncarnations] at hget
  obtain ⟨received, hreceived, rfl⟩ := Option.map_eq_some_iff.mp hget
  obtain ⟨hhostname, hmem⟩ := get_hostname hreceived
  rcases @inherit_incarnation previous received with hsame | ⟨old, hfound, hauthority, hsame⟩
  · have := hfresh received hmem
    omega
  · rw [hhostname] at hfound
    refine ⟨old, hfound, hsame.symm, ?_⟩
    rw [inherit_route]
    exact hauthority

/-- If a state carries an old incarnation and is fresh at a later instant, the state before the last
operation carried it and was fresh when that operation took the lock. -/
theorem Carries.back {moment : Moment} (h : Carries (moment.operation.perform state) now authorization)
    (hnow : moment.time ≤ now) (hold : authorization.incarnation < state.nextToken)
    (hsettled : LeaseSettled state moment) : Carries state moment.time authorization := by
  obtain ⟨snapshot, hsnapshot, hfresh, current, hget, hincarnation, hsame⟩ := h
  cases effect_perform state moment.operation with
  | kept _ hnext =>
    obtain ⟨previous, deadline, hprevious, hshorter, rfl⟩ := hnext snapshot hsnapshot
    refine ⟨previous, hprevious, ?_, current, hget, hincarnation, hsame⟩
    simp only [isFresh, decide_eq_true_eq] at hfresh ⊢
    omega
  | installed _ routing htokens hnext =>
    rcases hnext with hnext | ⟨previous, hprevious, htested, hreceipt, hnext⟩
    · -- without a previous snapshot every incarnation is new
      obtain rfl := Option.some.inj (hnext.symm.trans hsnapshot)
      have := (htokens current (get_hostname hget).2).1
      omega
    · obtain rfl := Option.some.inj (hnext.symm.trans hsnapshot)
      obtain ⟨old, hfound, hsameToken, hauthority⟩ :=
        inherited_of_old (fun received hmem => (htokens received hmem).1) hget (by rw [hincarnation]; exact hold)
      exact ⟨previous, hprevious, hsettled _ htested previous hprevious hreceipt, old, hfound,
        hsameToken.trans hincarnation, Route.sameAuthority_trans hauthority hsame⟩

/-- Backwards through a whole run: by induction on the moments before the last one, whose time is
passed down as the instant at which the final state is still fresh. -/
theorem heldThroughout_of_carries {last : Moment} (moments : List Moment) (htimely : Timely now (moments ++ [last]))
    (hsettled : LeasesSettled state (moments ++ [last])) (hold : authorization.incarnation < state.nextToken)
    (hend : Carries (runFrom state moments) last.time authorization)
    (hlast : last.operation.perform (runFrom state moments) = runFrom state moments) :
    Carries state now authorization ∧ HeldThroughout authorization state now (moments ++ [last]) := by
  induction moments generalizing state now with
  | nil =>
    have hlast : last.operation.perform state = state := hlast
    refine ⟨hend.earlier htimely.1, fun instant _ hle => (hend.earlier hle).held, ?_⟩
    rw [hlast]
    exact hend.held
  | cons moment moments ih =>
    obtain ⟨hmoment, -, hrest⟩ := htimely
    obtain ⟨hmomentSettled, hrestSettled⟩ := hsettled
    have hold' : authorization.incarnation < (moment.operation.perform state).nextToken := by
      cases effect_perform state moment.operation <;> omega
    obtain ⟨hcarries, hheld⟩ := ih hrest hrestSettled hold' hend hlast
    have hback := hcarries.back (le_refl _) hold hmomentSettled
    exact ⟨hback.earlier hmoment, fun instant _ hle => (hback.earlier hle).held, hheld⟩

/-- A hostname held under one authority is held under the same authority spelled by another route. -/
theorem HeldThroughout.congr {authorization' : RouteAuthorization}
    (h : authorization.route.sameAuthority authorization'.route = true) (moments : List Moment)
    (hheld : HeldThroughout authorization state now moments) : HeldThroughout authorization' state now moments := by
  have hhostname : authorization.route.hostname = authorization'.route.hostname := by
    have := Route.sameAuthority_iff.mp h
    simp only [Prod.mk.injEq] at this
    exact this.2.1
  have hone : ∀ {state : SnapshotState} {now : Nat}, Held state now authorization → Held state now authorization' := by
    rintro state now ⟨snapshot, hsnapshot, hfresh, current, hcurrent, hsame⟩
    exact ⟨snapshot, hsnapshot, hfresh, current, hhostname ▸ hcurrent, Route.sameAuthority_trans hsame h⟩
  induction moments generalizing state now with
  | nil => exact hone hheld
  | cons moment moments ih =>
    exact ⟨fun instant hfrom hto => hone (hheld.1 instant hfrom hto), ih hheld.2⟩

/-! ## The two ends of an exchange -/

/-- An authorization is issued from a held snapshot, with the route and incarnation found there. -/
theorem authorizeRoute_eq_some {readAt : Nat} (h : (state.authorizeRoute readAt hostname).1 = some authorization) :
    state.dropExpired readAt = state ∧ ∃ snapshot, state.current = some snapshot ∧
      snapshot.get hostname = some ⟨authorization.route, authorization.incarnation⟩ := by
  obtain ⟨snapshot, hsnapshot, h⟩ := Option.bind_eq_some_iff.mp h
  obtain ⟨current, hcurrent, rfl⟩ := Option.map_eq_some_iff.mp h
  have hkept : state.dropExpired readAt = state := by
    unfold dropExpired at hsnapshot ⊢
    split
    · rename_i hexpired
      simp [hexpired] at hsnapshot
    · rfl
  rw [hkept] at hsnapshot
  exact ⟨hkept, snapshot, hsnapshot, hcurrent⟩

/-- An authorization that is current is carried by a snapshot that is fresh at the reading. -/
theorem authorizationIsCurrent_eq_true {readAt : Nat} {expected : RouteAuthorization}
    (h : state.authorizationIsCurrent readAt expected = true) :
    state.dropExpired readAt = state ∧ ∃ snapshot, state.current = some snapshot ∧
      snapshot.isFresh readAt = true ∧ ∃ current, snapshot.get expected.route.hostname = some current ∧
        current.incarnation = expected.incarnation := by
  obtain ⟨deadline, h⟩ := Option.isSome_iff_exists.mp h
  obtain ⟨snapshot, hsnapshot, h⟩ := Option.bind_eq_some_iff.mp h
  obtain ⟨current, hcurrent, -⟩ := Option.map_eq_some_iff.mp h
  obtain ⟨hget, htoken⟩ := Option.filter_eq_some_iff.mp hcurrent
  have hexpired : state.isExpired readAt = false := by
    by_contra hexpired
    have hexpired : state.isExpired readAt = true := by simpa using hexpired
    simp [dropExpired, hexpired] at hsnapshot
  have hkept : state.dropExpired readAt = state := by
    simp [dropExpired, hexpired]
  rw [hkept] at hsnapshot
  refine ⟨hkept, snapshot, hsnapshot, ?_, current, hget, beq_iff_eq.mp htoken⟩
  simpa [isExpired, hsnapshot] using hexpired

theorem LeasesSettled.append {first second : List Moment} (h : LeasesSettled state (first ++ second)) :
    LeasesSettled (runFrom state first) second := by
  induction first generalizing state with
  | nil => exact h
  | cons moment first ih => exact ih h.2

theorem Timely.append {first second : List Moment} {moment : Moment} (h : Timely now (first ++ moment :: second)) :
    Timely moment.time second := by
  induction first generalizing now with
  | nil => exact h.2.2
  | cons other first ih => exact ih h.2.2

/-- **A route incarnation never survives a gap.**  In every run in which no lease lapses between the
reading an operation tests it against and the operation's lock: if an authorization issued at
`issuedAt` is current at `checkedAt`, the store held its hostname under the same authority, in an
unexpired snapshot, at every instant in between. -/
theorem route_held_while_authorization_current (before middle : List Moment)
    (issuedAt issueRead checkedAt checkRead : Nat) (hostname : String) (authorization : RouteAuthorization)
    (htimely : Timely 0 (before ++ ⟨issuedAt, .authorizeRoute issueRead hostname⟩ ::
      (middle ++ [⟨checkedAt, .authorizationDeadline checkRead authorization⟩])))
    (hsettled : LeasesSettled .initial (before ++ ⟨issuedAt, .authorizeRoute issueRead hostname⟩ ::
      (middle ++ [⟨checkedAt, .authorizationDeadline checkRead authorization⟩])))
    (hissued : ((runFrom .initial before).authorizeRoute issueRead hostname).1 = some authorization)
    (hcurrent : (runFrom .initial (before ++ ⟨issuedAt, .authorizeRoute issueRead hostname⟩ ::
      middle)).authorizationIsCurrent checkRead authorization = true) : HeldThroughout authorization
      (runFrom .initial (before ++ [⟨issuedAt, .authorizeRoute issueRead hostname⟩])) issuedAt
      (middle ++ [⟨checkedAt, .authorizationDeadline checkRead authorization⟩]) := by
  obtain ⟨hkept, issueSnapshot, hissueSnapshot, hissueGet⟩ := authorizeRoute_eq_some hissued
  -- issuing changes nothing, so the run after it starts from the state it was issued in
  have hissueState : runFrom .initial (before ++ [⟨issuedAt, .authorizeRoute issueRead hostname⟩]) =
      runFrom .initial before := by
    rw [runFrom_append]
    exact hkept
  have hmiddle : runFrom .initial (before ++ ⟨issuedAt, .authorizeRoute issueRead hostname⟩ ::
      middle) = runFrom (runFrom .initial before) middle := by
    rw [← hissueState, ← runFrom_append, List.append_assoc]
    rfl
  rw [hmiddle] at hcurrent
  rw [hissueState]
  obtain ⟨hcheckKept, snapshot, hsnapshot, hfresh, current, hget, htoken⟩ := authorizationIsCurrent_eq_true hcurrent
  have hsettledMiddle : LeasesSettled (runFrom .initial before)
      (middle ++ [⟨checkedAt, .authorizationDeadline checkRead authorization⟩]) := by
    have := hsettled.append.2
    rwa [show (Operation.authorizeRoute issueRead hostname).perform (runFrom .initial before) =
      runFrom .initial before from hkept] at this
  have hfreshLock : snapshot.isFresh checkedAt = true := hsettledMiddle.append.1 checkRead rfl snapshot hsnapshot hfresh
  have hissueHostname := (get_hostname hissueGet).1
  have hhostname := (get_hostname hget).1
  -- what the check found, as an authorization of its own
  have hend : Carries (runFrom (runFrom .initial before) middle) checkedAt
      ⟨current.route, authorization.incarnation⟩ :=
    ⟨snapshot, hsnapshot, hfreshLock, current, by rw [hhostname]; exact hget, htoken, Route.sameAuthority_iff.mpr rfl⟩
  have hold : (⟨current.route, authorization.incarnation⟩ : RouteAuthorization).incarnation <
      (runFrom .initial before).nextToken :=
    (tokensUsed_initial.run before) issueSnapshot hissueSnapshot _ (get_hostname hissueGet).2
  obtain ⟨hstart, hheld⟩ := heldThroughout_of_carries middle htimely.append hsettledMiddle hold hend hcheckKept
  -- at the start the same incarnation stood for the route that was issued
  obtain ⟨startSnapshot, hstartSnapshot, -, found, hfound, -, hauthority⟩ := hstart
  obtain rfl := Option.some.inj (hissueSnapshot.symm.trans hstartSnapshot)
  have hsameHost : current.route.hostname = hostname := by
    rw [hhostname]
    exact hissueHostname
  have hfoundRoute : found.route = authorization.route := by
    rw [hsameHost, hissueGet] at hfound
    rw [← Option.some.inj hfound]
  rw [hfoundRoute] at hauthority
  exact hheld.congr (Route.sameAuthority_iff.mpr (Route.sameAuthority_iff.mp hauthority).symm) _

/-- The route and the snapshots of a run in which one hostname is renewed. -/
def renewedRoute : Route :=
  ⟨"binding", "app.example", "pool", "10.0.0.2", 80, "owner", "container", "name", "instance", ""⟩

def firstSnapshot : ProxySnapshot := ⟨1, 20, 1010, [renewedRoute], none⟩

def secondSnapshot : ProxySnapshot := ⟨2, 200, 1109, [renewedRoute], none⟩

/-- The first snapshot is installed at 0 and its lease lapses at 10. -/
def installFirst : Moment := ⟨0, .store firstSnapshot 0 0 1000⟩

/-- The second snapshot is received at 9 and installed when the lock is taken. -/
def installSecond (time : Nat) : Moment := ⟨time, .store secondSnapshot 9 9 1009⟩

theorem renewed_in_time_is_held : HeldThroughout ⟨renewedRoute, 1⟩
      (runFrom .initial ([installFirst] ++ [⟨5, .authorizeRoute 5 "app.example"⟩])) 5
      ([installSecond 9] ++ [⟨13, .authorizationDeadline 13 ⟨renewedRoute, 1⟩⟩]) :=
  route_held_while_authorization_current [installFirst] [installSecond 9] 5 5 13 13 "app.example"
    ⟨renewedRoute, 1⟩ (by decide) (by decide) (by decide) (by decide)

/-- The lock is taken at 12, two instants after the first lease lapsed: the incarnation is inherited
all the same, and the authorization of instant 5 is current at 13. -/
theorem late_install_bridges_a_lapsed_lease : Timely 0 ([installFirst] ++ ⟨5, .authorizeRoute 5 "app.example"⟩ ::
      ([installSecond 12] ++ [⟨13, .authorizationDeadline 13 ⟨renewedRoute, 1⟩⟩])) ∧
    ((runFrom .initial [installFirst]).authorizeRoute 5 "app.example").1 = some ⟨renewedRoute, 1⟩ ∧
    (runFrom .initial ([installFirst] ++ ⟨5, .authorizeRoute 5 "app.example"⟩ ::
      [installSecond 12])).authorizationIsCurrent 13 ⟨renewedRoute, 1⟩ = true ∧ ¬ HeldThroughout ⟨renewedRoute, 1⟩
      (runFrom .initial ([installFirst] ++ [⟨5, .authorizeRoute 5 "app.example"⟩])) 5
      ([installSecond 12] ++ [⟨13, .authorizationDeadline 13 ⟨renewedRoute, 1⟩⟩]) := by
  refine ⟨by decide, by decide, by decide, fun hheld => ?_⟩
  obtain ⟨snapshot, hsnapshot, hfresh, -⟩ := hheld.1 11 (by decide) (by decide)
  have hlapsed : ∀ current ∈ (runFrom .initial ([installFirst] ++ [⟨5, .authorizeRoute 5 "app.example"⟩])).current,
      current.isFresh 11 = false := by
    decide
  rw [hlapsed snapshot hsnapshot] at hfresh
  exact Bool.noConfusion hfresh

end Nyabase.HttpProxy
