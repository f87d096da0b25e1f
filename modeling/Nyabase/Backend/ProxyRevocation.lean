import Nyabase.Backend.ProxyGateway

/-!
# Revocations are not overtaken

A gateway sends a snapshot in the same turn in which it finds that the revision taken before the build is still
the current one.  So no snapshot whose build started before an invalidation is sent after it.
-/

namespace Nyabase.Backend
namespace Gateway

open Lib List

/-- An invalidation came after the start of the build. -/
def Stale (build : Nat) (log : List GatewayEvent) : Prop :=
  [GatewayEvent.invalidated, .started build].Sublist log

variable {build index : Nat}

theorem stale_cons_of_ne {event : GatewayEvent} (hne : event ≠ .invalidated) {log : List GatewayEvent} :
    Stale build (event :: log) ↔ Stale build log := by
  unfold Stale
  rw [sublist_cons_iff]
  constructor
  · rintro (h | ⟨rest, heq, -⟩)
    · exact h
    · exact absurd (List.cons.inj heq).1.symm hne
  · exact .inl

/-- What is known of a revision and a build that was started under it: as long as the revision is the current
one, no invalidation has come since. -/
def Current (gateway : Gateway) (revision build : Nat) : Prop :=
  revision = gateway.snapshotRevision → gateway.destroyed = false → ¬ Stale build gateway.log

/-- Its listener has been registered, or it is gone. -/
def Live (gateway : Gateway) : Prop := gateway.registered = false → gateway.destroyed = false → False

structure Inv (gateway : Gateway) : Prop where
  known : ∀ build, .started build ∈ gateway.log → build < gateway.nextBuild
  revision : ∀ entry ∈ gateway.pending, entry.revision ≤ gateway.snapshotRevision
  current : ∀ entry ∈ gateway.pending, ∀ build, entry.stage.build = some build → gateway.Current entry.revision build
  /-- before its listener is registered, a gateway has nothing to send and nobody to send it to -/
  quiet : gateway.registered = false → gateway.destroyed = false →
    gateway.pending = [] ∧ gateway.clients = [] ∧ gateway.attached = false
  sent : ∀ build client, ¬ [.sent build client, .invalidated, .started build].Sublist gateway.log

theorem inv_initial : Inv initial where
  known := nofun
  revision := nofun
  current := nofun
  quiet := fun _ _ => ⟨rfl, rfl, rfl⟩
  sent := fun _ _ h => absurd (sublist_nil.mp h) (cons_ne_nil _ _)

variable {gateway next : Gateway}

section

variable (hinv : Inv gateway)

include hinv

/-! ## Operations -/

theorem inv_setDirty (dirty : Bool) : Inv { gateway with snapshotDirty := dirty } := { hinv with }

theorem inv_removeAdmittedClient (client : Nat) : Inv (gateway.removeAdmittedClient client) := { hinv with
  quiet hregistered hdestroyed := by
    obtain ⟨hnone, hclients, hattached⟩ := hinv.quiet hregistered hdestroyed
    refine ⟨hnone, ?_, hattached⟩
    show gateway.clients.erase client = []
    rw [hclients, erase_nil] }

/-- An event is recorded: a send of a build that is not stale, or one that leaves every pending build current. -/
theorem Inv.record {event : GatewayEvent} (hlog : next.log = event :: gateway.log)
    (hbuild : gateway.nextBuild ≤ next.nextBuild) (hknown : ∀ build, event = .started build → build < next.nextBuild)
    (hrevision : ∀ entry ∈ next.pending, entry.revision ≤ next.snapshotRevision)
    (hcurrent : ∀ entry ∈ next.pending, ∀ build, entry.stage.build = some build → next.Current entry.revision build)
    (hquiet : next.registered = false → next.destroyed = false →
      next.pending = [] ∧ next.clients = [] ∧ next.attached = false)
    (hsafe : ∀ build client, event = .sent build client → ¬ Stale build gateway.log) : Inv next where
  known := by
    intro build hmem
    rw [hlog] at hmem
    rcases mem_cons.mp hmem with heq | hmem
    · exact hknown build heq.symm
    · exact Nat.lt_of_lt_of_le (hinv.known build hmem) hbuild
  revision := hrevision
  current := hcurrent
  quiet := hquiet
  sent := by
    intro build client
    rw [hlog, sublist_cons_iff]
    rintro (h | ⟨rest, heq, hrest⟩)
    · exact hinv.sent build client h
    · obtain ⟨rfl, rfl⟩ := List.cons.inj heq
      exact hsafe build client rfl hrest

/-- An invalidation: every revision taken before is an old one now. -/
theorem inv_invalidated : Inv gateway.invalidated := by
  refine hinv.record rfl (Nat.le_refl _) nofun ?_ ?_ hinv.quiet nofun
  · intro entry hentry
    refine Nat.le_trans (hinv.revision entry hentry) ?_
    show gateway.snapshotRevision ≤ if gateway.destroyed then _ else _
    split <;> omega
  · intro entry hentry build hstage hcurrent hlive
    have hle := hinv.revision entry hentry
    have hlive : gateway.destroyed = false := hlive
    have hcurrent : entry.revision = if gateway.destroyed then _ else gateway.snapshotRevision + 1 := hcurrent
    simp only [hlive, Bool.false_eq_true, if_false] at hcurrent
    omega

/-- A new pending build has the current revision. -/
theorem Inv.revision_append {owner : BuildOwner} {stage : BuildStage} :
    ∀ entry ∈ gateway.pending ++ [⟨owner, gateway.snapshotRevision, stage, false⟩],
      entry.revision ≤ gateway.snapshotRevision := by
  exact forall_mem_append.mpr ⟨hinv.revision, forall_mem_singleton.mpr (Nat.le_refl _)⟩

/-- The start of a build: no invalidation has come since, and no earlier event is about it. -/
theorem inv_startBuild (hlive : gateway.Live) (owner : BuildOwner) : Inv (gateway.startBuild owner) := by
  refine hinv.record rfl (Nat.le_succ _) ?_ hinv.revision_append ?_
    (fun hregistered hdestroyed => (hlive hregistered hdestroyed).elim) nofun
  · rintro build ⟨⟩
    exact Nat.lt_succ_self _
  intro entry hentry build hstage hcurrent hdestroyed
  show ¬ Stale build (.started gateway.nextBuild :: gateway.log)
  rw [stale_cons_of_ne (by simp)]
  rcases mem_append.mp hentry with hentry | hentry
  · exact hinv.current entry hentry build hstage hcurrent hdestroyed
  · cases mem_singleton.mp hentry
    obtain rfl : gateway.nextBuild = build := Option.some.inj hstage
    exact fun hstale => Nat.lt_irrefl _ (hinv.known _ (hstale.subset (by simp)))

theorem Inv.not_quiet (hclients : gateway.clients ≠ []) : gateway.Live :=
  fun hregistered hdestroyed => hclients (hinv.quiet hregistered hdestroyed).2.1

theorem inv_flushSnapshotBroadcasts (promise : Nat) : Inv (gateway.flushSnapshotBroadcasts promise) := by
  fun_cases flushSnapshotBroadcasts gateway promise with
  | case1 | case3 => exact { hinv with }
  | case2 _ hclients =>
    apply inv_startBuild (inv_setDirty hinv false)
    apply hinv.not_quiet
    rwa [List.isEmpty_iff] at hclients

theorem inv_requestFlush : Inv gateway.requestFlush := by
  simp only [requestFlush]
  split
  · exact { hinv with }
  · have hdirty : Inv { gateway with snapshotDirty := true, nextPromise := gateway.nextPromise + 1 } :=
      { hinv with }
    exact { inv_flushSnapshotBroadcasts hdirty gateway.nextPromise with }

theorem inv_flushBroadcast : Inv gateway.flushBroadcast := by
  apply inv_requestFlush
  exact { hinv with }

theorem inv_requestSnapshotBroadcast (invalidate : Bool) : Inv (gateway.requestSnapshotBroadcast invalidate) := by
  fun_cases requestSnapshotBroadcast gateway invalidate with
  | case1 => exact inv_invalidated hinv
  | case2 => exact inv_requestFlush (inv_invalidated hinv)
  | case3 | case4 => exact hinv
  | case5 => exact inv_requestFlush hinv

theorem inv_broadcastSnapshot (channel : Channel) : Inv (gateway.broadcastSnapshot channel) := by
  fun_cases broadcastSnapshot gateway channel with
  | case1 | case2 => exact inv_invalidated hinv
  | case3 => exact inv_flushBroadcast (inv_invalidated hinv)
  | case4 => exact inv_requestSnapshotBroadcast hinv true

theorem inv_scheduleBroadcast : Inv gateway.scheduleBroadcast := by
  fun_cases scheduleBroadcast gateway with
  | case1 | case2 => exact inv_invalidated hinv
  | case3 => exact { inv_invalidated hinv with }

theorem inv_renewSnapshotLease (channel : Channel) : Inv (gateway.renewSnapshotLease channel) := by
  fun_cases renewSnapshotLease gateway channel with
  | case1 | case4 | case5 => exact hinv
  | case2 => exact { hinv with }
  | case3 => exact inv_flushBroadcast { hinv with }
  | case6 => exact inv_requestSnapshotBroadcast hinv false

/-! ## Sends -/

theorem inv_record_sent (hfresh : ¬ Stale build gateway.log) (client : Nat) :
    Inv (gateway.record (.sent build client)) := by
  refine hinv.record rfl (Nat.le_refl _) nofun hinv.revision ?_ hinv.quiet ?_
  · intro entry hentry other hstage hcurrent hdestroyed
    show ¬ Stale other (.sent build client :: gateway.log)
    rw [stale_cons_of_ne (by simp)]
    exact hinv.current entry hentry other hstage hcurrent hdestroyed
  · rintro other proxy ⟨⟩
    exact hfresh

/-- A send keeps the invariant and makes no build stale. -/
theorem inv_sendSnapshot (hfresh : ¬ Stale build gateway.log) (channel : Channel) (full : List Nat)
    (client : Nat) : Inv (gateway.sendSnapshot channel full build client) ∧
      ¬ Stale build (gateway.sendSnapshot channel full build client).log := by
  fun_cases sendSnapshot gateway channel full build client with
  | case1 => exact ⟨{ inv_removeAdmittedClient hinv client with }, hfresh⟩
  | case2 => exact ⟨{ hinv with }, hfresh⟩
  | case3 =>
    refine ⟨inv_record_sent hinv hfresh client, ?_⟩
    show ¬ Stale build (.sent build client :: gateway.log)
    rwa [stale_cons_of_ne (by simp)]
  | case4 => exact ⟨hinv, hfresh⟩

end

theorem inv_foldl_sendSnapshot (channel : Channel) (full : List Nat) (clients : List Nat) :
    ∀ {gateway : Gateway}, Inv gateway → ¬ Stale build gateway.log →
      Inv (clients.foldl (fun current client => current.sendSnapshot channel full build client) gateway) := by
  induction clients with
  | nil => exact fun hinv _ => hinv
  | cons client clients ih =>
    intro gateway hinv hfresh
    obtain ⟨hinv, hfresh⟩ := inv_sendSnapshot hinv hfresh channel full client
    exact ih hinv hfresh

section

variable (hinv : Inv gateway)

include hinv

theorem inv_resumeFlush (channel : Channel) (full : List Nat) (promise revision : Nat)
    (result : Option Nat) (hcurrent : ∀ build, result = some build → gateway.Current revision build) :
    Inv (gateway.resumeFlush channel full promise revision result) := by
  fun_cases resumeFlush gateway channel full promise revision result with
  | case1 | case2 => exact { hinv with }
  | case3 => exact inv_flushSnapshotBroadcasts (inv_setDirty hinv true) promise
  | case4 build hdestroyed hrevision =>
    have hfresh := hcurrent build rfl (not_not.mp hrevision) (eq_false_of_ne_true hdestroyed)
    exact inv_flushSnapshotBroadcasts (inv_foldl_sendSnapshot channel full gateway.clients hinv hfresh) promise

/-! ## Connections -/

section

variable (hlive : gateway.Live)

include hlive

theorem inv_buildInitialSnapshotBefore (client : Nat) (late : Bool) :
    Inv (gateway.buildInitialSnapshotBefore client late) := by
  cases late with
  | true => exact { hinv with
      revision := hinv.revision_append
      current := by
        intro entry hentry build hstage
        rcases mem_append.mp hentry with hentry | hentry
        · exact hinv.current entry hentry build hstage
        · cases mem_singleton.mp hentry
          cases hstage
      quiet := fun hregistered hdestroyed => (hlive hregistered hdestroyed).elim }
  | false => exact inv_startBuild hinv hlive (.connection client)

omit hlive in
theorem inv_handleConnection (hattached : gateway.attached = true) (authorized : Bool) :
    Inv (gateway.handleConnection authorized) := by
  fun_cases handleConnection gateway authorized with
  | case1 | case2 => exact { hinv with }
  | case3 =>
    apply inv_buildInitialSnapshotBefore
    · exact { hinv with }
    intro hregistered hdestroyed
    have hdetached := (hinv.quiet hregistered hdestroyed).2.2
    rw [hattached] at hdetached
    cases hdetached

theorem inv_admitClient (hfresh : ¬ Stale build gateway.log) (channel : Channel) (full : List Nat) (client : Nat) :
    Inv (gateway.admitClient channel full build client) := by
  have hadmitted : Inv { gateway.leaveInitializing client with clients := gateway.clients ++ [client] } := { hinv with
    quiet := fun hregistered hdestroyed => (hlive hregistered hdestroyed).elim }
  obtain ⟨hsent, -⟩ := inv_sendSnapshot hadmitted hfresh channel full client
  fun_cases admitClient gateway channel full build client with
  | case1 => exact inv_broadcastSnapshot hsent .http
  | case2 | case3 => exact hsent

theorem inv_resumeConnection (channel : Channel) (full : List Nat)
    (late : Bool) (client revision : Nat) (result : Option Nat)
    (hcurrent : ∀ build, result = some build → gateway.Current revision build) :
    Inv (gateway.resumeConnection channel full late client revision result) := by
  fun_cases resumeConnection gateway channel full late client revision result with
  | case1 | case2 => exact { hinv with }
  | case3 => exact inv_buildInitialSnapshotBefore hinv hlive client late
  | case4 build hgone hrevision =>
    rw [Bool.or_eq_true, not_or, Bool.not_eq_true] at hgone
    exact inv_admitClient hinv hlive (hcurrent build rfl (not_not.mp hrevision) hgone.1) channel full client

end

/-! ## Turns -/

/-- A pending build is there only once the listener has been registered. -/
theorem Inv.not_quiet_of_mem {entry : PendingBuild} (hentry : entry ∈ gateway.pending) : gateway.Live := by
  intro hregistered hdestroyed
  have hnone := (hinv.quiet hregistered hdestroyed).1
  rw [hnone] at hentry
  exact not_mem_nil hentry

/-- A pending build gets on: it may lose its build, and takes no other. -/
theorem inv_setPending {entry : PendingBuild} (hentry : gateway.pending[index]? = some entry) {changed : PendingBuild}
    (hrevision : changed.revision = entry.revision)
    (hbuild : ∀ build, changed.stage.build = some build → entry.stage.build = some build) :
    Inv { gateway with pending := gateway.pending.set index changed } := { hinv with
  revision := by
    intro other hother
    rcases mem_or_eq_of_mem_set hother with hother | rfl
    · exact hinv.revision other hother
    · rw [hrevision]
      exact hinv.revision entry (mem_of_getElem? hentry)
  current := by
    intro other hother build hstage
    rcases mem_or_eq_of_mem_set hother with hother | rfl
    · exact hinv.current other hother build hstage
    · rw [hrevision]
      exact hinv.current entry (mem_of_getElem? hentry) build (hbuild build hstage)
  quiet := fun hregistered hdestroyed =>
    (hinv.not_quiet_of_mem (mem_of_getElem? hentry) hregistered hdestroyed).elim }

theorem inv_settle {succeeds : Bool} (hstep : gateway.settle index succeeds = some next) : Inv next := by
  obtain ⟨entry, hentry, hstep⟩ := Option.bind_eq_some_iff.mp hstep
  split at hstep
  · next build hstage =>
    cases hstep
    refine inv_setPending hinv hentry rfl ?_
    intro other hother
    rw [hstage]
    cases succeeds with
    | true => exact hother
    | false => cases hother
  · cases hstep

theorem inv_taken (index : Nat) : Inv { gateway with pending := gateway.pending.eraseIdx index } := { hinv with
  revision entry hentry := hinv.revision entry (mem_of_mem_eraseIdx hentry)
  current entry hentry := hinv.current entry (mem_of_mem_eraseIdx hentry)
  quiet hregistered hdestroyed := by
    obtain ⟨hnone, hclients, hattached⟩ := hinv.quiet hregistered hdestroyed
    refine ⟨?_, hclients, hattached⟩
    rw [hnone, eraseIdx_nil] }

theorem inv_resume {channel : Channel} {late : Bool} {full : List Nat}
    (hstep : gateway.resume channel index late full = some next) : Inv next := by
  obtain ⟨entry, hentry, hstep⟩ := Option.bind_eq_some_iff.mp hstep
  have hmem := mem_of_getElem? hentry
  have hcurrent := hinv.current entry hmem
  split at hstep
  · next promise result howner hstage =>
    cases hstep
    rw [hstage] at hcurrent
    exact inv_resumeFlush (inv_taken hinv index) channel full promise entry.revision result hcurrent
  · next client result howner hstage =>
    cases hstep
    refine inv_setPending hinv hentry rfl ?_
    intro build hbuild
    rw [hstage]
    split at hbuild
    · cases hbuild
    · exact hbuild
  · next client result howner hstage =>
    cases hstep
    rw [hstage] at hcurrent
    exact inv_resumeConnection (inv_taken hinv index) (hinv.not_quiet_of_mem hmem) channel full late client
      entry.revision result hcurrent
  · cases hstep

theorem inv_expire (hstep : gateway.expire index = some next) : Inv next := by
  obtain ⟨entry, hentry, hstep⟩ := Option.bind_eq_some_iff.mp hstep
  split at hstep
  · cases hstep
  · cases hstep
  cases hstep
  have hexpired : Inv { gateway with pending := gateway.pending.set index { entry with expired := true } } :=
    inv_setPending hinv hentry rfl fun _ hbuild => hbuild
  exact { hexpired with }

theorem inv_onModuleDestroy : Inv gateway.onModuleDestroy := { hinv with
  current := fun _ _ _ _ _ => nofun
  quiet := fun _ => nofun }

theorem inv_closeAll : Inv gateway.closeAll := { hinv with
  quiet hregistered hdestroyed := by
    obtain ⟨hnone, -, hattached⟩ := hinv.quiet hregistered hdestroyed
    exact ⟨hnone, rfl, hattached⟩ }

theorem inv_step {channel : Channel} {label : GatewayLabel}
    (hstep : gateway.step channel label = some next) : Inv next := by
  cases label with
  | scheduleBroadcast =>
    obtain ⟨-, rfl⟩ := of_guard hstep
    exact inv_scheduleBroadcast hinv
  | debounce | maxWait =>
    obtain ⟨-, rfl⟩ := of_guard hstep
    exact inv_flushBroadcast hinv
  | renewal =>
    cases hstep
    exact inv_renewSnapshotLease hinv channel
  | connect authorized =>
    obtain ⟨hattached, rfl⟩ := of_guard hstep
    exact inv_handleConnection hinv hattached authorized
  | settle index succeeds => exact inv_settle hinv hstep
  | resume index late full => exact inv_resume hinv hstep
  | release promise =>
    obtain ⟨-, rfl⟩ := of_guard hstep
    exact { hinv with }
  | expire index => exact inv_expire hinv hstep
  | terminate client =>
    cases hstep
    exact { hinv with }
  | close client =>
    cases hstep
    exact { inv_removeAdmittedClient hinv client with }
  | onModuleDestroy =>
    cases channel with
    | http =>
      cases hstep
      exact inv_closeAll (inv_onModuleDestroy hinv)
    | ssh =>
      cases hstep
      exact inv_onModuleDestroy hinv
  | destroyed =>
    obtain ⟨-, rfl⟩ := of_guard hstep
    exact inv_closeAll hinv

theorem inv_notified (channel : Channel) : Inv (gateway.notified channel) := by
  unfold notified
  split
  · exact inv_broadcastSnapshot hinv channel
  · next hregistered =>
    refine hinv.record rfl (Nat.le_refl _) nofun hinv.revision ?_ hinv.quiet nofun
    intro entry hentry build hstage hcurrent hlive
    have hentry : entry ∈ gateway.pending := hentry
    rw [(hinv.quiet (eq_false_of_ne_true hregistered) hlive).1] at hentry
    cases hentry

end

end Gateway

namespace Gateways

open Lib

variable {gateways next : Gateways}

/-- What holds of both gateways. -/
def Inv (gateways : Gateways) : Prop := gateways.http.Inv ∧ gateways.ssh.Inv

theorem inv_gateway (hinv : Inv gateways) (channel : Channel) : (gateways.gateway channel).Inv := by
  cases channel with
  | http => exact hinv.1
  | ssh => exact hinv.2

variable {gateway : Gateway}

theorem inv_attached (hinv : gateway.Inv) (hregistered : gateway.registered = true) :
    Gateway.Inv { gateway with attached := true } := { hinv with
  quiet hnot := by
    rw [hregistered] at hnot
    cases hnot }

theorem inv_step (hinv : Inv gateways) {label : GatewaysLabel} (hstep : gateways.step label = some next) :
    Inv next := by
  cases label with
  | onModuleInit =>
    obtain ⟨-, rfl⟩ := of_refusal hstep
    exact ⟨{ hinv.1 with quiet := nofun }, { hinv.2 with quiet := nofun }⟩
  | attachToHttpServer =>
    obtain ⟨hregistered, rfl⟩ := of_guard hstep
    rw [Bool.and_eq_true] at hregistered
    exact ⟨inv_attached hinv.1 hregistered.1, inv_attached hinv.2 hregistered.2⟩
  | invalidate =>
    cases hstep
    exact ⟨Gateway.inv_notified hinv.1 .http, Gateway.inv_notified hinv.2 .ssh⟩
  | turn channel label =>
    obtain ⟨gateway, hgateway, rfl⟩ := Option.map_eq_some_iff.mp hstep
    have hnext := Gateway.inv_step (inv_gateway hinv channel) hgateway
    cases channel with
    | http => exact ⟨hnext, hinv.2⟩
    | ssh => exact ⟨hinv.1, hnext⟩

/-- In every run of the two gateways and the notifier, no gateway sends a snapshot whose build started before an
invalidation after that invalidation. -/
theorem revocation_not_overtaken {labels : List GatewaysLabel}
    (hrun : run step initial labels = some gateways) (channel : Channel) (build client : Nat) :
    ¬ [.sent build client, .invalidated, .started build].Sublist (gateways.gateway channel).log := by
  have hinv : Inv gateways :=
    @run_invariant Gateways GatewaysLabel step Inv (fun _ _ _ hinv hstep => inv_step hinv hstep) _ _ _
      ⟨Gateway.inv_initial, Gateway.inv_initial⟩ hrun
  exact (inv_gateway hinv channel).sent build client

/-- A proxy connects to the HTTP gateway and gets its first snapshot.  While the broadcast that follows is being
built, an invalidation comes; the build is given up and another one sent. -/
def invalidatedBuild : List GatewaysLabel :=
  [.onModuleInit, .attachToHttpServer, .turn .http (.connect true), .turn .http (.settle 0 true),
   .turn .http (.resume 0 false []), .turn .http (.resume 0 false []), .invalidate, .turn .http (.settle 0 true),
   .turn .http (.resume 0 false []), .turn .http (.settle 0 true), .turn .http (.resume 0 false [])]

theorem invalidatedBuild_not_overtaken : ∃ gateways, run step initial invalidatedBuild = some gateways ∧
    (gateways.gateway .http).log =
      [.sent 2 0, .started 2, .invalidated, .started 1, .invalidated, .sent 0 0, .started 0] ∧
    ∀ build client, ¬ [.sent build client, .invalidated, .started build].Sublist (gateways.gateway .http).log := by
  have hlog : ((run step initial invalidatedBuild).map fun gateways => (gateways.gateway .http).log) =
      some [.sent 2 0, .started 2, .invalidated, .started 1, .invalidated, .sent 0 0, .started 0] := by
    decide +kernel
  obtain ⟨gateways, hrun, hlog⟩ := Option.map_eq_some_iff.mp hlog
  exact ⟨gateways, hrun, hlog, revocation_not_overtaken hrun .http⟩

end Gateways

end Nyabase.Backend
