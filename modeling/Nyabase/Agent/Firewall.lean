import Nyabase.Agent.FirewallRender
import Nyabase.Lib.AsciiCase
import Nyabase.Lib.Transition

/-!
# The guest firewall: `packages/agent/src/firewall.ts` and `firewall-store.ts`

`GuestFirewall` runs one operation at a time, in arrival order.  An operation is cut at its awaits: a step
is what runs between two of them, so calls to the class and changes of the ruleset come between any two
steps.  What nft and the file system answer is up to the environment: nft may list any text, refuse,
fail, or take effect and fail; a write of the store may fail before or after its rename.

The log is history that no step reads.
-/

namespace Nyabase.Agent

open Lib Common

/-! ## The owner of a table -/

/-- `UNKNOWN_FIREWALL_OWNER`. -/
def unknownFirewallOwner : String := "unknown"

/-- A server id as the table comment carries it.  Only ASCII letters lower to hex digits. -/
def firewallOwnerOf (serverId : Option String) : String :=
  match serverId with
  | none => unknownFirewallOwner
  | some serverId =>
    let hex := String.ofList (lower (serverId.toList.filter fun c => c != '-'))
    if taggedHex "" 32 hex then hex else unknownFirewallOwner

/-- What a listed table claims to be. -/
structure FirewallClaim where
  owner : String
  key : String
  deriving DecidableEq

def stripText (text : String) (chars : List Char) : Option (List Char) :=
  if text.toList.isPrefixOf chars then some (chars.drop text.toList.length) else none

/-- `[0-9a-f]{digits}|word`, with what follows. -/
def hexOrWord (digits : Nat) (word : String) (chars : List Char) : Option (String × List Char) :=
  if (chars.take digits).length == digits && (chars.take digits).all isLowerHex then
    some (String.ofList (chars.take digits), chars.drop digits)
  else (stripText word chars).map fun rest => (word, rest)

/-- `COMMENT_PATTERN` at the start of the text. -/
def claimAt (chars : List Char) : Option FirewallClaim := do
  let chars ← stripText "comment \"nyabase egress server=" chars
  let (owner, chars) ← hexOrWord 32 unknownFirewallOwner chars
  let chars ← stripText " digest=" chars
  let (key, chars) ← hexOrWord 64 failClosedKey chars
  let _ ← stripText "\"" chars
  return { owner, key }

/-- What `nft list table` prints. -/
abbrev NftListing := List Char

/-- The owner and content a listed table claims; none when it carries no nyabase comment. -/
def parseFirewallComment (listing : NftListing) : Option FirewallClaim :=
  listing.tails.findSome? claimAt

/-! ## The class -/

/-- The listing right after the last successful apply, and what that apply rendered. -/
structure FirewallSnapshot where
  owner : String
  key : String
  listing : NftListing

inductive VerifyMode where
  | active | passive

/-- An operation in the queue.  `apply` holds the epoch it was called in, `check` a number. -/
inductive FirewallTask where
  | restore
  | apply (document : FirewallDocument) (epoch : Nat)
  | setServerId (owner : String)
  | check (id : Nat)

/-- The operation that awaits `verify`. -/
inductive VerifyCaller where
  | restore | apply | setServerId
  | check (id : Nat)

/-- What awaits `install`: `verify`, or `restore` after a document that did not apply. -/
inductive InstallCaller where
  | verify (caller : VerifyCaller)
  | fallback (failure : Option String)

/-- The await at which the running operation stands. -/
inductive FirewallPoint where
  | reading
  | checking (document : FirewallDocument) (epoch : Nat)
  | writing (document : FirewallDocument) (epoch : Nat)
  /-- Within `store.write`, after its rename. -/
  | syncing (document : FirewallDocument) (epoch : Nat)
  | listing (mode : VerifyMode) (caller : VerifyCaller)
  | applying (key : String) (caller : InstallCaller)
  | relisting (key : String) (caller : InstallCaller)
  /-- `install` has returned. -/
  | installed (caller : InstallCaller)
  /-- `install` has thrown. -/
  | installFailed (error : String) (caller : InstallCaller)
  /-- `verify` has returned. -/
  | verified (caller : VerifyCaller)

/-- `FirewallRestoreResult`. -/
inductive FirewallRestoreResult where
  | document | failClosed | none

/-- How an operation ends. -/
inductive FirewallOutcome where
  | restored (result : FirewallRestoreResult)
  | applied
  | serverIdSet
  | checked (id : Nat) (verified : Bool)
  /-- `FirewallDocumentRefusedError`. -/
  | refused (error : String)
  | failed (error : String)

structure GuestFirewall where
  owner : String
  document : Option FirewallDocument
  /-- The server id `document` was sent to. -/
  documentOwner : Option String
  snapshot : Option FirewallSnapshot
  /-- The table holds the current rendering as of the last check. -/
  verified : Bool
  confirmed : Bool
  epoch : Nat
  lastError : Option String
  queue : List FirewallTask
  running : Option FirewallPoint
  pendingCheck : Option Nat
  nextCheck : Nat

namespace GuestFirewall

def snapshotKey (firewall : GuestFirewall) : Option String :=
  match firewall.snapshot with
  | some snapshot => if snapshot.owner == firewall.owner then some snapshot.key else none
  | none => none

/-- The known document is in place and the Backend confirmed it on this connection. -/
def present (firewall : GuestFirewall) : Bool :=
  match firewall.document with
  | none => false
  | some document =>
    firewall.verified && firewall.confirmed && firewall.snapshotKey == some document.digest

/-- Why NICs are refused right now; none when `present`. -/
def refusal (firewall : GuestFirewall) : Option String :=
  if firewall.present then none
  else firewall.lastError.or <|
    if firewall.document.isNone then
      some "the agent has no firewall document yet, guest egress stays closed until the Backend sends one"
    else if !firewall.confirmed then
      some "the Backend has not sent the firewall document on this connection yet"
    else some "the firewall table is not verified yet"

/-- `new GuestFirewall`. -/
def fresh (serverId : Option String) : GuestFirewall where
  owner := firewallOwnerOf serverId
  document := none
  documentOwner := none
  snapshot := none
  verified := false
  confirmed := false
  epoch := 0
  lastError := none
  queue := []
  running := none
  pendingCheck := none
  nextCheck := 0

end GuestFirewall

/-! ## The world around it -/

/-- The content of `firewall.json`; a file that is absent or does not parse is none. -/
structure StoredFirewall where
  serverId : String
  document : FirewallDocument

inductive FirewallEvent where
  /-- `apply` was called, in this epoch. -/
  | issued (document : FirewallDocument) (epoch : Nat)
  /-- An `apply` set `confirmed`. -/
  | confirmed (document : FirewallDocument) (epoch : Nat)
  /-- `useDocument`. -/
  | adopted (document : Option FirewallDocument)
  /-- `listTable` returned to the class. -/
  | listed (listing : Option NftListing)
  /-- A verification ended, and found the table in place or not. -/
  | settled (verified : Bool)
  | started (task : FirewallTask)
  | ended (outcome : FirewallOutcome)

structure FirewallWorld extends GuestFirewall where
  file : Option StoredFirewall
  /-- The file was put there by a write that has not succeeded. -/
  fileUnconfirmed : Bool
  /-- `bridge nyabase_firewall` as nft lists it. -/
  table : Option NftListing
  /-- Newest first. -/
  log : List FirewallEvent

inductive FirewallLabel where
  -- calls
  | restore
  | apply (document : FirewallDocument)
  | setServerId (serverId : String)
  | check
  | resetConfirmation
  -- somebody else writes the table
  | rulesetChanged (table : Option NftListing)
  -- the next operation of the queue starts
  | start
  -- what the running operation awaits
  | read (readable : Bool)
  | checkPassed
  | checkRefused (error : String)
  | checkFailed (error : String)
  | renamed
  | written
  | writeFailed (error : String)
  | listed (listing : Option NftListing)
  | listFailed (error : String)
  | nftApplied (table : NftListing)
  | nftFailed (error : String)
  | resume

namespace FirewallWorld

variable (world : FirewallWorld)

def record (event : FirewallEvent) : FirewallWorld := { world with log := event :: world.log }

def enqueue (task : FirewallTask) : FirewallWorld := { world with queue := world.queue ++ [task] }

/-- The running operation awaits at `point`. -/
def await (point : FirewallPoint) : FirewallWorld := { world with running := some point }

/-- The running operation is over. -/
def finish (outcome : FirewallOutcome) : FirewallWorld :=
  { world with running := none, log := .ended outcome :: world.log }

def useDocument (document : Option FirewallDocument) (owner : Option String) : FirewallWorld :=
  { world with
    document
    documentOwner := owner
    -- whatever was verified belonged to the previous document
    snapshot := none
    verified := false
    log := .adopted document :: world.log }

def settle (verified : Bool) (error : Option String) : FirewallWorld :=
  { world with
    verified
    lastError := error.map fun text => String.ofList (text.toList.take 512)
    log := .settled verified :: world.log }

def currentKey : String := contentKey world.document

/-- The start of `verify`. -/
def verify (mode : VerifyMode) (caller : VerifyCaller) : FirewallWorld :=
  world.await (.listing mode caller)

/-- The start of `install`. -/
def install (document : Option FirewallDocument) (caller : InstallCaller) : FirewallWorld :=
  { world with snapshot := none, running := some (.applying (contentKey document) caller) }

/-- Is the table, as listed, the work of another server? -/
def claimedByOther (listing : Option NftListing) : Option String :=
  (listing.bind parseFirewallComment).bind fun claimed =>
    if claimed.owner != unknownFirewallOwner && claimed.owner != world.owner then some claimed.owner else none

/-- The listing is the one taken after the current document was applied. -/
def matchesSnapshot (listing : Option NftListing) : Bool :=
  match listing, world.snapshot with
  | some listing, some snapshot =>
    snapshot.owner == world.owner && snapshot.key == world.currentKey && snapshot.listing == listing
  | _, _ => false

/-- `verify`, once it has the listing. -/
def verifyListed (mode : VerifyMode) (caller : VerifyCaller) (listing : Option NftListing) : FirewallWorld :=
  if world.matchesSnapshot listing then (world.settle true none).await (.verified caller)
  else
    match mode, world.claimedByOther listing with
    | .passive, some owner =>
      (world.settle false (some s!"{agentFirewallTable} is owned by server {owner}")).await (.verified caller)
    | _, _ => world.install world.document (.verify caller)

/-- `install`, once it has the listing. -/
def installListed (key : String) (caller : InstallCaller) (listing : Option NftListing) : FirewallWorld :=
  match listing with
  | some text =>
    if parseFirewallComment text = some ⟨world.owner, key⟩ &&
        (text.tails.any fun rest => "hook prerouting".toList.isPrefixOf rest) then
      { world with
        snapshot := some ⟨world.owner, key, text⟩, running := some (.installed caller) }
    else world.await (.installFailed s!"{agentFirewallTable} did not verify after apply" caller)
  | none => world.await (.installFailed s!"{agentFirewallTable} did not verify after apply" caller)

/-- What follows `install`. -/
def afterInstall : InstallCaller → FirewallWorld
  | .verify caller => (world.settle true none).await (.verified caller)
  | .fallback failure =>
    (world.settle false (some ("the stored firewall document did not apply, guest egress is closed: " ++
      failure.getD "unknown error"))).finish (.restored .failClosed)

/-- What follows an `install` that threw. -/
def afterInstallFailed (error : String) : InstallCaller → FirewallWorld
  | .verify caller => (world.settle false (some error)).await (.verified caller)
  | .fallback _ => (world.settle false (some error)).finish (.restored .none)

/-- What follows `verify`. -/
def afterVerify : VerifyCaller → FirewallWorld
  | .restore =>
    if world.verified then
      world.finish (.restored (if world.document.isSome then .document else .failClosed))
    else if world.document.isNone then world.finish (.restored .none)
    else world.install none (.fallback world.lastError)
  | .apply =>
    if !world.verified then
      world.finish (.failed ("the firewall document did not apply: " ++ world.lastError.getD "unknown error"))
    else if !world.confirmed then
      world.finish (.failed "the control connection this firewall document came on has ended")
    else world.finish .applied
  | .setServerId => world.finish .serverIdSet
  | .check id => world.finish (.checked id world.verified)

/-- `restore`, once it has the stored document. -/
def restoreRead (stored : Option StoredFirewall) : FirewallWorld :=
  match stored with
  | none => (world.useDocument none none).verify .active .restore
  | some stored =>
    if stored.serverId != world.owner then (world.useDocument none none).verify .active .restore
    else (world.useDocument (some stored.document) (some stored.serverId)).verify .active .restore

/-- The end of `apply`: a request that outlived its connection confirms nothing on the next one. -/
def confirm (document : FirewallDocument) (epoch : Nat) : FirewallWorld :=
  if epoch = world.epoch then
    { world with confirmed := true, log := .confirmed document epoch :: world.log }.verify .active .apply
  else world.verify .active .apply

/-- Is `document` the one in use, sent to this server? -/
def inUse (document : FirewallDocument) : Bool :=
  world.document.map (fun current => current.digest) == some document.digest && world.documentOwner == some world.owner

/-- The first stretch of an operation. -/
def startTask : FirewallTask → FirewallWorld
  | .restore => world.await .reading
  | .apply document epoch =>
    if world.owner == unknownFirewallOwner then
      world.finish (.failed "the agent does not know its server id yet")
    else if world.inUse document then world.confirm document epoch
    else world.await (.checking document epoch)
  | .setServerId owner =>
    if owner == world.owner then world.finish .serverIdSet
    else
      let renamed := { world with owner }
      -- a document sent to another server is not this server's
      if world.documentOwner != some owner then (renamed.useDocument none none).verify .active .setServerId
      else renamed.verify .active .setServerId
  | .check id =>
    let pendingCheck := if world.pendingCheck = some id then none else world.pendingCheck
    { world with pendingCheck }.verify .passive (.check id)

/-- `FirewallStore.write` refuses what it could not read back. -/
def storable (document : FirewallDocument) : Bool :=
  taggedHex "" 32 world.owner && zFirewallDocument document

/-- A call of the private `check`: one that has not started yet answers this call too. -/
def check : FirewallWorld :=
  if world.pendingCheck.isSome then world
  else
    let queued := world.enqueue (.check world.nextCheck)
    { queued with pendingCheck := some world.nextCheck, nextCheck := world.nextCheck + 1 }

/-- The check whose end the call waits for. -/
def checkId : Nat := world.pendingCheck.getD world.nextCheck

def step (world : FirewallWorld) : FirewallLabel → Option FirewallWorld
  | .restore => some (world.enqueue .restore)
  | .apply document =>
    some ((world.enqueue (.apply document world.epoch)).record (.issued document world.epoch))
  | .setServerId serverId => some (world.enqueue (.setServerId (firewallOwnerOf (some serverId))))
  | .check => some world.check
  | .resetConfirmation => some { world with epoch := world.epoch + 1, confirmed := false }
  | .rulesetChanged table => some { world with table }
  | .start =>
    match world.running, world.queue with
    | none, task :: queue => some (({ world with queue }.record (.started task)).startTask task)
    | _, _ => none
  | .read readable =>
    match world.running with
    | some .reading => some (world.restoreRead (if readable then world.file else none))
    | _ => none
  | .checkPassed =>
    match world.running with
    | some (.checking document epoch) => some (world.await (.writing document epoch))
    | _ => none
  | .checkRefused error =>
    match world.running with
    | some (.checking _ _) =>
      some (world.finish (.refused ("nft refused the firewall document: " ++ error)))
    | _ => none
  | .checkFailed error =>
    match world.running with
    | some (.checking _ _) => some (world.finish (.failed error))
    | _ => none
  | .renamed =>
    match world.running with
    | some (.writing document epoch) =>
      if world.storable document then
        some { world with
          file := some ⟨world.owner, document⟩, fileUnconfirmed := true,
          running := some (.syncing document epoch) }
      else none
    | _ => none
  | .written =>
    match world.running with
    | some (.syncing document epoch) =>
      let stored := { world with fileUnconfirmed := false }
      some ((stored.useDocument (some document) (some world.owner)).confirm document epoch)
    | _ => none
  | .writeFailed error =>
    match world.running with
    | some (.writing _ _) => some (world.finish (.failed error))
    | some (.syncing _ _) => some (world.finish (.failed error))
    | _ => none
  | .listed listing =>
    match world.running with
    | some (.listing mode caller) =>
      some ((world.record (.listed listing)).verifyListed mode caller listing)
    | some (.relisting key caller) =>
      some ((world.record (.listed listing)).installListed key caller listing)
    | _ => none
  | .listFailed error =>
    match world.running with
    | some (.listing _ caller) => some ((world.settle false (some error)).await (.verified caller))
    | some (.relisting _ caller) => some (world.await (.installFailed error caller))
    | _ => none
  | .nftApplied table =>
    match world.running with
    | some (.applying key caller) =>
      some { world with table := some table, running := some (.relisting key caller) }
    | _ => none
  | .nftFailed error =>
    match world.running with
    | some (.applying _ caller) => some (world.await (.installFailed error caller))
    | _ => none
  | .resume =>
    match world.running with
    | some (.installed caller) => some (world.afterInstall caller)
    | some (.installFailed error caller) => some (world.afterInstallFailed error caller)
    | some (.verified caller) => some (world.afterVerify caller)
    | _ => none

/-- The agent starts: whatever the file and the table hold. -/
def initial (serverId : Option String) (file : Option StoredFirewall) (table : Option NftListing) : FirewallWorld :=
  { GuestFirewall.fresh serverId with file, fileUnconfirmed := false, table, log := [] }

end FirewallWorld

end Nyabase.Agent
