import Nyabase.Lib.Transition

/-!
# The proxy gateways

`packages/backend/src/http-proxy/http-proxy-gateway.ts` and `packages/backend/src/ssh/ssh-proxy-gateway.ts`: which
snapshots are built and sent to which proxies, and `invalidate` of
`packages/backend/src/proxy-snapshots/proxy-snapshot-notifier.service.ts`.

One step is one turn of the event loop, from one `await` to the next.  A snapshot is the number of the build it
came from, a revision object the number of replacements before it.  Sockets, clocks, the database and the size of
the buffers are the environment's: it chooses when a build settles and how, when a deadline has passed, and which
sockets have no room left.
-/

namespace Nyabase.Backend

open Lib

inductive Channel where
  | http | ssh
  deriving DecidableEq

/-- Who awaits a build: `flushSnapshotBroadcasts`, by its promise, or `handleConnection`, by its socket. -/
inductive BuildOwner where
  | flush (promise : Nat)
  | connection (client : Nat)

/-- How far an awaited build has come.  `handleConnection` awaits it through `buildInitialSnapshotBefore`, which
is one promise more. -/
inductive BuildStage where
  | building (build : Nat)
  | settled (result : Option Nat)
  | returned (result : Option Nat)

def BuildStage.build : BuildStage → Option Nat
  | .building build => some build
  | .settled result => result
  | .returned result => result

/-- An `await`, with the `buildRevision` taken before it. -/
structure PendingBuild where
  owner : BuildOwner
  revision : Nat
  stage : BuildStage
  /-- the timer of `buildInitialSnapshotBefore` has fired -/
  expired : Bool

/-- What happened at a gateway, for the statements about it only. -/
inductive GatewayEvent where
  | started (build : Nat)
  | invalidated
  | sent (build client : Nat)
  deriving DecidableEq

structure Gateway where
  registered : Bool
  attached : Bool
  destroyed : Bool
  /-- the sockets whose `readyState` is `OPEN` -/
  openSockets : List Nat
  clients : List Nat
  initializingClients : List Nat
  snapshotRevision : Nat
  snapshotDirty : Bool
  snapshotBroadcastPromise : Option Nat
  debounceTimer : Bool
  maxWaitTimer : Bool
  pending : List PendingBuild
  /-- the promises of `flushSnapshotBroadcasts` that have settled and whose `finally` has yet to run -/
  finished : List Nat
  nextBuild : Nat
  nextPromise : Nat
  nextClient : Nat
  /-- newest first -/
  log : List GatewayEvent

/-- `MAX_HTTP_PROXY_CLIENTS`, `MAX_SSH_PROXY_CLIENTS` -/
def maxProxyClients : Nat := 4

namespace Gateway

variable (gateway : Gateway)

def initial : Gateway :=
  { registered := false, attached := false, destroyed := false, openSockets := [], clients := [],
    initializingClients := [], snapshotRevision := 0, snapshotDirty := false, snapshotBroadcastPromise := none,
    debounceTimer := false, maxWaitTimer := false, pending := [], finished := [], nextBuild := 0,
    nextPromise := 0, nextClient := 0, log := [] }

def record (event : GatewayEvent) : Gateway := { gateway with log := event :: gateway.log }

/-- `this.snapshotRevision = {}`, which a destroyed gateway does not get to. -/
def invalidated : Gateway :=
  { gateway.record .invalidated with
    snapshotRevision := if gateway.destroyed then gateway.snapshotRevision else gateway.snapshotRevision + 1 }

/-- `buildSnapshot()` up to its first `await`, the revision taken before. -/
def startBuild (owner : BuildOwner) : Gateway :=
  { gateway.record (.started gateway.nextBuild) with
    nextBuild := gateway.nextBuild + 1
    pending := gateway.pending ++
      [{ owner, revision := gateway.snapshotRevision, stage := .building gateway.nextBuild, expired := false }] }

def terminate (client : Nat) : Gateway := { gateway with openSockets := gateway.openSockets.erase client }

def removeAdmittedClient (client : Nat) : Gateway := { gateway with clients := gateway.clients.erase client }

def leaveInitializing (client : Nat) : Gateway :=
  { gateway with initializingClients := gateway.initializingClients.erase client }

/-! ## Broadcasts -/

def finish (promise : Nat) : Gateway := { gateway with finished := promise :: gateway.finished }

/-- The head of the loop of `flushSnapshotBroadcasts`.  With nobody to send to, the loop ends: nothing has made
the snapshot dirty again. -/
def flushSnapshotBroadcasts (promise : Nat) : Gateway :=
  if gateway.snapshotDirty then
    if gateway.clients.isEmpty then { gateway with snapshotDirty := false }.finish promise
    else { gateway with snapshotDirty := false }.startBuild (.flush promise)
  else gateway.finish promise

/-- The end of `flushBroadcast` and of `requestSnapshotBroadcast`. -/
def requestFlush : Gateway :=
  let dirty := { gateway with snapshotDirty := true }
  if gateway.snapshotBroadcastPromise.isSome then dirty
  else
    let flushed := { dirty with nextPromise := gateway.nextPromise + 1 }.flushSnapshotBroadcasts gateway.nextPromise
    { flushed with snapshotBroadcastPromise := some gateway.nextPromise }

/-- `flushBroadcast` of the HTTP gateway. -/
def flushBroadcast : Gateway :=
  requestFlush { gateway with debounceTimer := false, maxWaitTimer := false }

/-- `requestSnapshotBroadcast` of the SSH gateway; its timer for the next renewal may fire at any time. -/
def requestSnapshotBroadcast (invalidate : Bool) : Gateway :=
  if invalidate then
    if gateway.destroyed then gateway.invalidated else gateway.invalidated.requestFlush
  else if gateway.destroyed then gateway
  else if gateway.snapshotBroadcastPromise.isSome then gateway
  else gateway.requestFlush

def broadcastSnapshot : Channel → Gateway
  | .http =>
    if gateway.destroyed then gateway.invalidated
    else if gateway.clients.isEmpty then gateway.invalidated
    else gateway.invalidated.flushBroadcast
  | .ssh => gateway.requestSnapshotBroadcast true

/-- `scheduleBroadcast` of the HTTP gateway. -/
def scheduleBroadcast : Gateway :=
  if gateway.destroyed then gateway.invalidated
  else if gateway.clients.isEmpty then gateway.invalidated
  else { gateway.invalidated with debounceTimer := true, maxWaitTimer := true }

/-- What the renewal timer runs. -/
def renewSnapshotLease : Channel → Gateway
  | .http =>
    if gateway.destroyed || gateway.clients.isEmpty then gateway
    else if gateway.snapshotBroadcastPromise.isSome then { gateway with snapshotDirty := true }
    else { gateway with snapshotDirty := true }.flushBroadcast
  | .ssh =>
    if gateway.destroyed || gateway.clients.isEmpty then gateway
    else if gateway.snapshotBroadcastPromise.isSome then gateway
    else gateway.requestSnapshotBroadcast false

/-! ## Sending -/

/-- `sendSnapshot` of the HTTP gateway and `sendOrTerminate` of the SSH gateway; `full` are the sockets whose
buffer has no room for the snapshot. -/
def sendSnapshot (channel : Channel) (full : List Nat) (build client : Nat) : Gateway :=
  if client ∈ gateway.openSockets then
    if client ∈ full then
      match channel with
      | .http => (gateway.removeAdmittedClient client).terminate client
      | .ssh => gateway.terminate client
    else gateway.record (.sent build client)
  else gateway

/-- Whether `sendSnapshot` sends. -/
def sends (full : List Nat) (client : Nat) : Bool :=
  decide (client ∈ gateway.openSockets) && !decide (client ∈ full)

/-- `broadcast` and `broadcastUpdate`. -/
def broadcast (channel : Channel) (full : List Nat) (build : Nat) : Gateway :=
  gateway.clients.foldl (fun current client => current.sendSnapshot channel full build client) gateway

/-- `flushSnapshotBroadcasts` after its `await`. -/
def resumeFlush (channel : Channel) (full : List Nat) (promise revision : Nat) (result : Option Nat) : Gateway :=
  match result with
  | none => { gateway with snapshotDirty := true }.finish promise
  | some build =>
    if gateway.destroyed then gateway.finish promise
    else if revision ≠ gateway.snapshotRevision then
      { gateway with snapshotDirty := true }.flushSnapshotBroadcasts promise
    else (gateway.broadcast channel full build).flushSnapshotBroadcasts promise

/-! ## Connections -/

/-- `buildInitialSnapshotBefore` up to its `await`; `late` says that the deadline has passed. -/
def buildInitialSnapshotBefore (client : Nat) (late : Bool) : Gateway :=
  if late then
    { gateway with
      pending := gateway.pending ++
        [{ owner := .connection client, revision := gateway.snapshotRevision, stage := .returned none
           expired := false }] }
  else gateway.startBuild (.connection client)

/-- `handleConnection` up to its first `await`. -/
def handleConnection (authorized : Bool) : Gateway :=
  let client := gateway.nextClient
  let connected := { gateway with nextClient := client + 1 }
  if gateway.destroyed || maxProxyClients ≤ gateway.clients.length + gateway.initializingClients.length then connected
  else if !authorized then connected
  else
    { connected with
      openSockets := client :: gateway.openSockets
      initializingClients := client :: gateway.initializingClients }.buildInitialSnapshotBefore client false

/-- The admission of a socket and its first snapshot, which are one turn. -/
def admitClient (channel : Channel) (full : List Nat) (build client : Nat) : Gateway :=
  let admitted := { gateway.leaveInitializing client with clients := gateway.clients ++ [client] }
  let sent := admitted.sendSnapshot channel full build client
  match channel with
  | .http => if admitted.sends full client then sent.broadcastSnapshot .http else sent
  | .ssh => sent

/-- `handleConnection` after its `await`. -/
def resumeConnection (channel : Channel) (full : List Nat) (late : Bool) (client revision : Nat)
    (result : Option Nat) : Gateway :=
  match result with
  | none => (gateway.leaveInitializing client).terminate client
  | some build =>
    if gateway.destroyed || !decide (client ∈ gateway.openSockets) then
      (gateway.leaveInitializing client).terminate client
    else if revision ≠ gateway.snapshotRevision then gateway.buildInitialSnapshotBefore client late
    else gateway.admitClient channel full build client

end Gateway

/-! ## Turns -/

inductive GatewayLabel where
  | scheduleBroadcast
  | debounce
  | maxWait
  | renewal
  | connect (authorized : Bool)
  /-- the build of a pending `await` ends -/
  | settle (index : Nat) (succeeds : Bool)
  /-- what follows an `await` -/
  | resume (index : Nat) (late : Bool) (full : List Nat)
  /-- the `finally` of the one who started a broadcast -/
  | release (promise : Nat)
  /-- the timer of `buildInitialSnapshotBefore` -/
  | expire (index : Nat)
  /-- a socket is closed, by either side -/
  | terminate (client : Nat)
  | close (client : Nat)
  | onModuleDestroy
  /-- the end of `onModuleDestroy`, after the SSH gateway has told its proxies to pause -/
  | destroyed

namespace Gateway

variable (gateway : Gateway)

def setStage (index : Nat) (entry : PendingBuild) (stage : BuildStage) : Gateway :=
  { gateway with pending := gateway.pending.set index { entry with stage } }

/-- The end of a build. -/
def settle (index : Nat) (succeeds : Bool) : Option Gateway := do
  let entry ← gateway.pending[index]?
  match entry.stage with
  | .building build => some (gateway.setStage index entry (.settled (if succeeds then some build else none)))
  | _ => none

/-- What follows an `await`. -/
def resume (channel : Channel) (index : Nat) (late : Bool) (full : List Nat) : Option Gateway := do
  let entry ← gateway.pending[index]?
  let taken := { gateway with pending := gateway.pending.eraseIdx index }
  match entry.owner, entry.stage with
  | .flush promise, .settled result => some (taken.resumeFlush channel full promise entry.revision result)
  | .connection _, .settled result =>
    some (gateway.setStage index entry (.returned (if entry.expired || late then none else result)))
  | .connection client, .returned result =>
    some (taken.resumeConnection channel full late client entry.revision result)
  | _, _ => none

/-- The timer of `buildInitialSnapshotBefore`, which is cleared once the build has settled and been looked at. -/
def expire (index : Nat) : Option Gateway := do
  let entry ← gateway.pending[index]?
  match entry.owner, entry.stage with
  | .flush _, _ => none
  | _, .returned _ => none
  | .connection client, _ =>
    some ({ gateway with pending := gateway.pending.set index { entry with expired := true } }.terminate client)

/-- `onModuleDestroy` up to its first `await`, and its end. -/
def onModuleDestroy : Gateway :=
  { gateway with destroyed := true, registered := false }

def closeAll : Gateway :=
  { gateway with
    openSockets := [], clients := [], initializingClients := [], snapshotDirty := false, debounceTimer := false
    maxWaitTimer := false }

def step (channel : Channel) : GatewayLabel → Option Gateway
  | .scheduleBroadcast => if channel = .http then some gateway.scheduleBroadcast else none
  | .debounce => if gateway.debounceTimer then some gateway.flushBroadcast else none
  | .maxWait => if gateway.maxWaitTimer then some gateway.flushBroadcast else none
  | .renewal => some (gateway.renewSnapshotLease channel)
  | .connect authorized => if gateway.attached then some (gateway.handleConnection authorized) else none
  | .settle index succeeds => gateway.settle index succeeds
  | .resume index late full => gateway.resume channel index late full
  | .release promise =>
    if promise ∈ gateway.finished then
      some { gateway with
        finished := gateway.finished.erase promise
        snapshotBroadcastPromise :=
          if gateway.snapshotBroadcastPromise = some promise then none else gateway.snapshotBroadcastPromise }
    else none
  | .expire index => gateway.expire index
  | .terminate client => some (gateway.terminate client)
  | .close client => some ((gateway.terminate client).removeAdmittedClient client)
  | .onModuleDestroy =>
    match channel with
    | .http => some gateway.onModuleDestroy.closeAll
    | .ssh => some gateway.onModuleDestroy
  | .destroyed => if gateway.destroyed then some gateway.closeAll else none

/-- What the notifier's `invalidate` does to a gateway: nothing, unless its listener is registered. -/
def notified (channel : Channel) : Gateway :=
  if gateway.registered then gateway.broadcastSnapshot channel else gateway.record .invalidated

end Gateway

/-- Both gateways. -/
structure Gateways where
  http : Gateway
  ssh : Gateway

inductive GatewaysLabel where
  | onModuleInit
  | attachToHttpServer
  | invalidate
  | turn (channel : Channel) (label : GatewayLabel)

namespace Gateways

variable (gateways : Gateways)

def initial : Gateways := ⟨Gateway.initial, Gateway.initial⟩

def gateway : Channel → Gateway
  | .http => gateways.http
  | .ssh => gateways.ssh

def setGateway (gateway : Gateway) : Channel → Gateways
  | .http => { gateways with http := gateway }
  | .ssh => { gateways with ssh := gateway }

/-- `ProxySnapshotNotifierService::invalidate`: every listener up to its first `await`, in one turn. -/
def invalidate : Gateways := ⟨gateways.http.notified .http, gateways.ssh.notified .ssh⟩

/-- One turn.  `main.ts` attaches the gateways to the server after the modules have been initialised. -/
def step : GatewaysLabel → Option Gateways
  | .onModuleInit =>
    if gateways.http.destroyed || gateways.ssh.destroyed then none
    else some ⟨{ gateways.http with registered := true }, { gateways.ssh with registered := true }⟩
  | .attachToHttpServer =>
    if gateways.http.registered && gateways.ssh.registered then
      some ⟨{ gateways.http with attached := true }, { gateways.ssh with attached := true }⟩
    else none
  | .invalidate => some gateways.invalidate
  | .turn channel label => ((gateways.gateway channel).step channel label).map (gateways.setGateway · channel)

end Gateways

end Nyabase.Backend
