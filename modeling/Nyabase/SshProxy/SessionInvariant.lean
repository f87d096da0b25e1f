import Nyabase.SshProxy.ConnectionInvariant
import Nyabase.SshProxy.TargetIsolation

/-!
# Every step of a session is progress

The handler is walked through once, point by point.  The interesting points are where a session reads the
store: `auth_succeeded`, which fixes the version the connection was admitted at, and the second
authorization of a channel, which fixes the version its bridge was checked against.
-/

namespace Nyabase.SshProxy

open Lib Connection Progress

/-! ## The second authorization of a channel -/

variable {route : OwnedResolvedRoute}

/-- A resolved target belongs to the user, and its address resolves to it. -/
theorem resolveIp_of_resolveTarget {snapshot : RoutingSnapshot} {userId : String} {target : List Char}
    (h : snapshot.resolveOwnedRouteForUserTarget userId target = .ok route) :
    route.userId = userId ∧ (snapshot.resolveOwnedRouteForUserIp userId route.routedIp).toOption = some route := by
  have hfound : ∃ address container, snapshot.holders userId address = [container] ∧
      snapshot.candidate userId address container = some route := by
    cases hip : parseIpv4 target with
    | some ip =>
      have hsome : (parseIpv4 target).isSome = true := by rw [hip]; rfl
      obtain ⟨container, hholders, hcandidate⟩ := (resolveByIp_eq_ok hsome).mp h
      exact ⟨target, container, hholders, hcandidate⟩
    | none =>
      obtain ⟨name, -, hname⟩ := (resolveByName_eq_ok hip).mp h
      obtain ⟨container, -, address, -, hholders, hcandidate, -⟩ := found_of_resolvedByName hname
      exact ⟨address, container, hholders, hcandidate⟩
  obtain ⟨address, container, hholders, hcandidate⟩ := hfound
  obtain ⟨-, haddress, _, _, -, hof⟩ := candidate_eq_some hcandidate
  rw [haddress]
  exact ⟨hof.userId, resolveOwnedRouteForUserIp_eq_some.mpr ⟨container, hholders, hcandidate⟩⟩

/-- A route that passes the second authorization is of the user it was looked up for, and still authorized by
the version that was read. -/
theorem stillAuthorized_of_recheck {plane : Plane} {userId : String} (hplane : plane.versions ≠ [])
    (h : ((plane.routeFor userId route.routedIp).any fun current => current.sameAuthority route) = true) :
    route.userId = userId ∧
      ∃ snapshot, plane.versions[plane.version]? = some (some snapshot) ∧ route.stillAuthorized snapshot = true := by
  obtain ⟨current, hcurrent, hsame⟩ := Option.any_eq_true _ _ |>.mp h
  unfold Plane.routeFor at hcurrent
  simp only [Option.bind_eq_bind, Option.bind_eq_some_iff] at hcurrent
  obtain ⟨snapshot, hfresh, hresolved⟩ := hcurrent
  have hok : snapshot.resolveOwnedRouteForUserTarget userId route.routedIp = .ok current := by
    cases hresult : snapshot.resolveOwnedRouteForUserTarget userId route.routedIp with
    | error e => rw [hresult] at hresolved; cases hresolved
    | ok r =>
      rw [hresult] at hresolved
      exact congrArg _ (Option.some.inj hresolved)
  obtain ⟨huser, hip⟩ := resolveIp_of_resolveTarget hok
  have hheld : plane.held = some snapshot := (Option.filter_eq_some_iff.mp hfresh).1
  simp only [OwnedResolvedRoute.sameAuthority, Bool.and_eq_true, beq_iff_eq] at hsame
  refine ⟨hsame.1.1.1.1.1.1.symm.trans huser, snapshot, ?_, ?_⟩
  · rw [getElem?_version plane hplane, hheld]
  · unfold OwnedResolvedRoute.stillAuthorized
    rw [← hsame.1.1.1.1.1.1, ← hsame.2, huser, hip]
    simp [OwnedResolvedRoute.sameAuthority, hsame]

theorem userId_of_authorizedUserId {plane : Plane} {c : Connection} {userId : String}
    (h : plane.authorizedUserId c = some userId) : c.userId = some userId := by
  simp only [Plane.authorizedUserId, Option.bind_eq_bind, Option.bind_eq_some_iff, Option.ite_none_right_eq_some,
    beq_iff_eq] at h
  obtain ⟨_, _, expected, hexpected, _, _, user, _, hsame, huser⟩ := h
  rw [hexpected, ← hsame, Option.some.inj huser]

/-! ## Reserving a child -/

section

variable {versions : List (Option RoutingSnapshot)} {c c' : Connection}

theorem Progress.reserve {child : Nat} {route : OwnedResolvedRoute} (inv : ConnectionInv versions c)
    (hstage : c.stage = .established) (hkey : c.sessionKey ≠ none) (h : c.registerChildAbort = some (c', child)) :
    Progress versions c (c'.goTo (.connecting child route)) := by
  unfold registerChildAbort at h
  split at h
  · cases h
  cases h
  -- the new child is a permit with its handle registered, the others are what they were
  have hfrom : ∀ (id : Nat) (it : Child), (c.children ++ [⟨.permit, true, false, none⟩])[id]? = some it →
      c.children[id]? = some it ∨ it = ⟨.permit, true, false, none⟩ := fun _ _ => getElem?_concat_eq_some
  refine ⟨⟨rfl, ⟨?_, fun _ => inv.established hstage, ?_, inv.anonymous, ?_, ?_, ?_⟩,
    ⟨id, evolves_identity_of_eq hstage.symm ⟨rfl, rfl, rfl, rfl⟩ rfl, ?_⟩⟩, ?_⟩
  · nofun
  · exact fun h => h.elim (absurd rfl) fun h => absurd h hkey
  · exact ⟨⟨.permit, true, false, none⟩, by simp [Connection.goTo], rfl⟩
  · intro id it hit route' version hcheck
    obtain hold | rfl := hfrom id it hit
    · exact inv.checked id it hold route' version hcheck
    · cases hcheck
  · intro id it hit hlive
    obtain hold | rfl := hfrom id it hit
    · exact inv.handled id it hold hlive
    · exact fun _ _ => rfl
  · intro id it hit route' version hcheck
    obtain hold | rfl := hfrom id it hit
    · exact .inr ⟨it, hold, hcheck, fun h => h⟩
    · cases hcheck
  · intro removing hrouted id it route' hit hroute
    obtain hold | rfl := hfrom id it hit
    · exact hrouted id it route' hold hroute
    · cases hroute

/-- Within a stage a session moves freely, as far as its child is ready for the point. -/
theorem Progress.move {point : SessionPoint} (inv : ConnectionInv versions c)
    (hcase : c.stage = .before ∨ c.stage = .established) (hstage : point.stage = c.stage)
    (hopening : c.Opening point) : Progress versions c (c.goTo point) := by
  obtain h | h := hcase
  · refine .before inv h (hstage.trans h) rfl rfl rfl inv.anonymous ?_
    cases point <;> exact hopening
  · exact .goTo inv h (hstage.trans h) hopening

end

/-! ## The walk -/

theorem opening_proceed (c : Connection) (purpose : Purpose) : c.Opening purpose.proceed := by
  cases purpose with
  | openChannel host port =>
    simp only [Purpose.proceed]
    split <;> exact .intro
  | _ => exact .intro

theorem opening_afterAdmit (c : Connection) (purpose : Purpose) (admitted : Bool) :
    c.Opening (purpose.afterAdmit admitted) := by
  cases admitted with
  | true =>
    have h := opening_proceed c purpose
    cases purpose <;> exact h
  | false => cases purpose <;> exact .intro

section Walk

variable {plane : Plane} {c c' : Connection} {input : SessionInput}

variable {point : SessionPoint}

/-- The admission checks. -/
theorem Progress.admission (purpose : Purpose) (inv : ConnectionInv plane.versions c) (hsession : c.session = point)
    (hpoint : point = .readMode purpose ∨ point = .readAdmitting purpose ∨ point = .readHeld purpose)
    (h : c.sessionStep plane point .go = some c') : Progress plane.versions c c' := by
  have hstage : c.stage = purpose.stage := by
    rw [stage, hsession]
    obtain rfl | rfl | rfl := hpoint <;> rfl
  have hcase : c.stage = .before ∨ c.stage = .established := by
    rw [hstage]
    cases purpose <;> simp [Purpose.stage]
  obtain rfl | rfl | rfl := hpoint
  · cases h
    split
    · exact move inv hcase hstage.symm True.intro
    · exact move inv hcase ((afterAdmit_stage _ _).trans hstage.symm) (opening_afterAdmit c purpose false)
  · cases h
    exact move inv hcase ((afterAdmit_stage _ _).trans hstage.symm) (opening_afterAdmit c purpose _)
  · cases h
    split
    · cases purpose with
      | succeed =>
        apply close inv
        rw [hstage]
        exact Stage.noConfusion
      | _ => exact move inv hcase hstage.symm True.intro
    · exact move inv hcase ((proceed_stage purpose).trans hstage.symm) (opening_proceed c purpose)

section

variable (inv : ConnectionInv plane.versions c)

include inv

/-- The steps of `auth_verified_key` and `auth_succeeded` by themselves. -/
theorem Progress.authentication (hplane : plane.versions ≠ [])
    (hsession : c.session = point) (hstage : point.stage ≠ .established)
    (h : c.sessionStep plane point .go = some c') : Progress plane.versions c c' := by
  have hstageOf : c.stage = point.stage := by rw [stage, hsession]
  have hopening : c.Opening point := hsession ▸ inv.opening
  cases point with
  | readMode purpose | readAdmitting purpose | readHeld purpose =>
    exact admission purpose inv hsession (by simp) h
  | loadLatest login publicKey =>
    simp only [sessionStep] at h
    split at h
    · cases h
      exact before inv hstageOf rfl rfl rfl rfl inv.anonymous True.intro
    · cases h
      exact before inv hstageOf rfl rfl rfl rfl inv.anonymous True.intro
  | setLogin identity =>
    cases h
    exact before inv hstageOf rfl rfl rfl rfl (by rintro ⟨⟩) (Option.some_ne_none _)
  | setPublicKey identity | setUserId identity | setPinnedRoute identity =>
    cases h
    exact before inv hstageOf rfl rfl rfl rfl inv.anonymous hopening
  | setAuthenticatedAt identity =>
    cases h
    exact before inv hstageOf rfl rfl rfl rfl (fun h => absurd h hopening) True.intro
  | loadHeld =>
    cases h
    exact load inv hplane hstageOf
  | matching current point =>
    obtain ⟨hnext, haccept⟩ := compare inv hsession
    simp only [sessionStep] at h
    split at h
    · rename_i next hmatch
      cases h
      exact hnext next hmatch
    · rename_i hmatch
      cases h
      exact haccept hmatch
    · cases h
      apply close inv
      rw [hstageOf]
      exact hstage
  | waiting | closing => cases h
  | _ => exact absurd rfl hstage

omit inv in
theorem getElem?_modifyChild_self {it : Child} {child : Nat} {f : Child → Child}
    (h : c.children[child]? = some it) : (c.modifyChild child f).children[child]? = some (f it) := by
  rw [getElem?_modifyChild, h, Option.map_some, if_pos rfl]

/-- The steps of `channel_open_direct_tcpip` by themselves. -/
theorem Progress.opening (hplane : plane.versions ≠ [])
    (hsession : c.session = point) (hstage : point.stage = .established)
    (h : c.sessionStep plane point .go = some c') : Progress plane.versions c c' := by
  have hstageOf : c.stage = .established := by rw [stage, hsession, hstage]
  have hopening : c.Opening point := hsession ▸ inv.opening
  cases point with
  | readMode purpose | readAdmitting purpose | readHeld purpose =>
    exact .admission purpose inv hsession (by simp) h
  | authorizeUser host =>
    simp only [sessionStep] at h
    split at h
    · rename_i userId huser
      cases h
      refine .goTo inv hstageOf rfl ?_
      -- without a key of its own the session is not authorized for anything
      intro hkey
      rw [Plane.authorizedUserId, hkey] at huser
      cases huser
    · cases h
      exact .goTo inv hstageOf rfl .intro
  | authorizeRoute host userId =>
    simp only [sessionStep] at h
    split at h
    · cases h
      exact .goTo inv hstageOf rfl hopening
    · cases h
      exact .goTo inv hstageOf rfl .intro
  | checkChannels route =>
    cases h
    split
    · exact .goTo inv hstageOf rfl .intro
    · exact .goTo inv hstageOf rfl hopening
  | reserve route =>
    simp only [sessionStep] at h
    split at h
    · rename_i reserved child hreserve
      cases h
      exact .reserve inv hstageOf hopening hreserve
    · cases h
      exact .goTo inv hstageOf rfl .intro
  | bind child route =>
    cases h
    obtain ⟨it, hit, hpermit⟩ := hopening
    refine .modifyChild inv hit hstageOf rfl ⟨_, getElem?_modifyChild_self hit, rfl⟩ ?_
    refine ⟨⟨by rintro _ _ ⟨⟩, fun h => h, fun _ => ⟨?_, fun h _ _ => h⟩⟩, ?_⟩
    · rw [hpermit]
      exact ChildStage.noConfusion
    · intro route' hroute
      exact .inl hroute
  | recheckUser child route =>
    obtain ⟨it, hit, hbound⟩ := hopening
    simp only [sessionStep] at h
    split at h
    · rename_i userId huser
      cases h
      exact .goTo inv hstageOf rfl ⟨userId_of_authorizedUserId huser, it, hit, hbound⟩
    · cases h
      exact .goTo inv hstageOf rfl ⟨it, hit⟩
  | recheckRoute child route userId =>
    obtain ⟨huser, it, hit, hbound⟩ := hopening
    simp only [sessionStep] at h
    split at h
    · rename_i hrecheck
      cases h
      refine .modifyChild inv hit hstageOf rfl ⟨_, route, plane.version, getElem?_modifyChild_self hit, rfl⟩ ?_
      refine ⟨⟨?_, fun h => h, fun _ => ⟨?_, fun h _ _ => h⟩⟩, ?_⟩
      · -- the check is that of the version just read, which is the last one
        intro route' version hcheck
        cases hcheck
        obtain ⟨current, hcurrent, -⟩ := inv.established hstageOf
        have hlt := (List.getElem?_eq_some_iff.mp hcurrent).1
        obtain ⟨hroute, hsnapshot⟩ := stillAuthorized_of_recheck hplane hrecheck
        refine .inr ⟨?_, hroute.symm ▸ huser, ?_, hsnapshot⟩
        · show plane.versions.length ≤ plane.versions.length - 1 + 1
          omega
        · show c.admittedAt ≤ plane.versions.length - 1
          omega
      · rw [hbound]
        exact ChildStage.noConfusion
      · intro route' hroute
        cases hroute
        exact .inr ⟨by rw [hbound]; rfl, fun h => h⟩
    · cases h
      exact .goTo inv hstageOf rfl ⟨it, hit⟩
  | dropHandle child =>
    cases h
    obtain ⟨it, hit⟩ := hopening
    exact .modifyChild inv hit hstageOf rfl ⟨_, getElem?_modifyChild_self hit, rfl⟩
      (ChildStep.of_ended rfl fun h => h)
  | dropRoute child =>
    cases h
    obtain ⟨it, hit, hended⟩ := hopening
    exact modifyChild inv hit hstageOf rfl True.intro (ChildStep.of_ended hended fun h => h)
  | ready | connecting child route | accepting child => cases h
  | _ => cases hstage

/-- A dial or the reply to an open ends. -/
theorem Progress.outcome {success : Bool} (hsession : c.session = point)
    (h : c.sessionStep plane point (.outcome success) = some c') : Progress plane.versions c c' := by
  have hopening : c.Opening point := hsession ▸ inv.opening
  cases point with
  | connecting child route =>
    have hstageOf : c.stage = .established := by rw [stage, hsession]; rfl
    cases h
    obtain ⟨it, hit, hpermit⟩ := hopening
    split
    · exact .goTo inv hstageOf rfl ⟨it, hit, hpermit⟩
    · exact .goTo inv hstageOf rfl ⟨it, hit⟩
  | accepting child =>
    have hstageOf : c.stage = .established := by rw [stage, hsession]; rfl
    obtain ⟨it, route, version, hit, hchecked⟩ := hopening
    cases success with
    | true =>
      cases h
      refine .modifyChild inv hit hstageOf rfl .intro ?_
      simp only [hchecked]
      refine ⟨⟨?_, fun h => h, fun _ => ⟨?_, fun h _ _ => h⟩⟩, ?_⟩
      · intro route' version' hcheck
        exact .inl (by rw [hchecked]; exact hcheck)
      · rw [hchecked]
        exact ChildStage.noConfusion
      · intro route' hroute
        exact .inr ⟨by rw [hchecked]; exact hroute, fun h => h⟩
    | false =>
      cases h
      exact .goTo inv hstageOf rfl ⟨it, hit⟩
  | _ => cases h

/-- Every step of a session is progress. -/
theorem Progress.session (hplane : plane.versions ≠ [])
    (h : c.sessionStep plane c.session input = some c') : Progress plane.versions c c' := by
  generalize hsession : c.session = point at h
  have hstageOf : c.stage = point.stage := by rw [stage, hsession]
  cases input with
  | go =>
    by_cases hstage : point.stage = .established
    · exact .opening inv hplane hsession hstage h
    · exact .authentication inv hplane hsession hstage h
  | outcome success => exact .outcome inv hsession h
  | verifiedKey login publicKey =>
    cases point with
    | waiting =>
      cases h
      split
      · exact .before inv hstageOf rfl rfl rfl rfl inv.anonymous .intro
      · exact .before inv hstageOf hstageOf rfl rfl rfl inv.anonymous inv.opening
    | _ => cases h
  | directTcpip host port =>
    cases point with
    | ready =>
      cases h
      exact .goTo inv hstageOf rfl .intro
    | _ => cases h

end

end Walk

end Nyabase.SshProxy
