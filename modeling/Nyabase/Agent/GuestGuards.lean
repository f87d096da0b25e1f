import Nyabase.Agent.Incus
import Nyabase.Agent.Ipv6Guard

/-!
# Requests to the local Incus: `incusHttp` and `requireGuestGuards` of `packages/agent/src/agent.ts`

Any number of requests are under way at a time, beside the two guards, the local Incus and whatever else
changes the host.  A request is cut at its awaits: the policy reads the current document, the IPv6 guard
answers, the firewall answers, the request is forwarded.

Each request remembers how long the logs of the guards were when it arrived, and which instances the
policy saw; `forwarded` keeps what is to be said about every request that was forwarded.  No step reads
any of these.
-/

namespace Nyabase.Agent

open Lib

variable {β : Type}

structure AgentRequestError where
  code : String
  message : String

/-- Where a request stands. -/
inductive RequestPhase (β : Type) where
  | arrived
  /-- Awaits `guard.ensure`. -/
  | guard (body : Option β) (seen : Instances) (ticket : GuardTicket)
  /-- Awaits `firewall.ensure`. -/
  | firewall (body : Option β) (seen : Instances) (check : Nat)
  /-- About to be forwarded. -/
  | ready (body : Option β) (seen : Instances)
  | refused (error : AgentRequestError)
  | answered

structure IncusRequest (β : Type) where
  submitted : PolicyRequest β
  guardMark : Nat
  firewallMark : Nat
  phase : RequestPhase β

/-- A request at the moment it is forwarded: the host and the logs of the guards. -/
structure ForwardedRequest (β : Type) where
  id : Nat
  submitted : PolicyRequest β
  instances : Instances
  guardMark : Nat
  guardLog : List GuardEvent
  firewallMark : Nat
  firewallLog : List FirewallEvent

structure AgentWorld (β : Type) where
  instances : Instances
  guard : Ipv6Guard
  firewall : FirewallWorld
  requests : List (Nat × IncusRequest β)
  forwarded : List (ForwardedRequest β)

inductive AgentLabel (β : Type) where
  /-- The Backend sends a request. -/
  | arrive (id : Nat) (submitted : PolicyRequest β)
  /-- The policy has what it needs of the current document. -/
  | decide (id : Nat) (knows : String → Bool)
  /-- Reading the current document fails. -/
  | readFailed (id : Nat) (error : AgentRequestError)
  | guardAnswers (id : Nat)
  | firewallAnswers (id : Nat)
  | forward (id : Nat) (outcome : Outcome)
  -- everything else
  | guard (label : GuardLabel)
  | firewall (label : FirewallLabel)
  | hostChanges (instances : Instances)

/-- `ipv6_guard_missing`. -/
def guardMissing (guard : Ipv6Guard) : AgentRequestError where
  code := "ipv6_guard_missing"
  message := "the IPv6 guard (nft table bridge nyabase_guard) is not in place: " ++ guard.lastError.getD "unknown error"

/-- `firewall_missing`. -/
def firewallMissing (firewall : GuestFirewall) : AgentRequestError where
  code := "firewall_missing"
  message := "the egress firewall (nft table bridge nyabase_firewall) is not in place: " ++
    firewall.refusal.getD "unknown error"

namespace AgentWorld

def setPhase (world : AgentWorld β) (id : Nat) (request : IncusRequest β) (phase : RequestPhase β) : AgentWorld β :=
  { world with requests := AssocList.override [(id, { request with phase })] world.requests }

section

variable {platform : Platform β} (decoder : Decoder platform)

/-- What follows the verdict of the policy. -/
def decided (world : AgentWorld β) (id : Nat) (request : IncusRequest β) : PolicyVerdict β → AgentWorld β
  | .denied _ true => world.setPhase id request .answered
  | .denied reason false => world.setPhase id request (.refused ⟨"policy_denied", reason⟩)
  | .allowed body true =>
    { world with guard := world.guard.ensure }.setPhase id request (.guard body world.instances world.guard.ticket)
  | .allowed body false => world.setPhase id request (.ready body world.instances)

/-- What follows the answer of the IPv6 guard. -/
def guarded (world : AgentWorld β) (id : Nat) (request : IncusRequest β) (body : Option β)
    (seen : Instances) (present : Bool) : AgentWorld β :=
  if present then
    { world with firewall := world.firewall.check }.setPhase id request (.firewall body seen world.firewall.checkId)
  else world.setPhase id request (.refused (guardMissing world.guard))

/-- What follows the check of the firewall. -/
def checked (world : AgentWorld β) (id : Nat) (request : IncusRequest β) (body : Option β)
    (seen : Instances) : AgentWorld β :=
  if world.firewall.present then world.setPhase id request (.ready body seen)
  else world.setPhase id request (.refused (firewallMissing world.firewall.toGuestFirewall))

/-- The check has ended, so its promise is resolved. -/
def checkEnded (firewall : FirewallWorld) (check : Nat) : Bool :=
  firewall.log.any fun event => match event with
    | .ended (.checked id _) => id == check
    | _ => false

/-- Everything there is to say about a request that is forwarded now. -/
def forwardRecord (world : AgentWorld β) (id : Nat) (request : IncusRequest β) : ForwardedRequest β where
  id
  submitted := request.submitted
  instances := world.instances
  guardMark := request.guardMark
  guardLog := world.guard.log
  firewallMark := request.firewallMark
  firewallLog := world.firewall.log

def step (world : AgentWorld β) : AgentLabel β → Option (AgentWorld β)
  | .arrive id submitted =>
    if (world.requests.lookup id).isSome then none
    else
      let request : IncusRequest β :=
        { submitted, guardMark := world.guard.log.length, firewallMark := world.firewall.log.length,
          phase := .arrived }
      some { world with requests := (id, request) :: world.requests }
  | .decide id knows =>
    match world.requests.lookup id with
    | some request =>
      match request.phase with
      | .arrived =>
        some (world.decided id request (checkIncusHttp platform request.submitted
          { readCurrent := world.instances.read, knows }))
      | _ => none
    | none => none
  | .readFailed id error =>
    match world.requests.lookup id with
    | some request =>
      match request.phase with
      | .arrived => some (world.setPhase id request (.refused error))
      | _ => none
    | none => none
  | .guardAnswers id =>
    match world.requests.lookup id with
    | some request =>
      match request.phase with
      | .guard body seen ticket =>
        (world.guard.result ticket).map fun present => world.guarded id request body seen present
      | _ => none
    | none => none
  | .firewallAnswers id =>
    match world.requests.lookup id with
    | some request =>
      match request.phase with
      | .firewall body seen check =>
        if checkEnded world.firewall check then some (world.checked id request body seen) else none
      | _ => none
    | none => none
  | .forward id outcome =>
    match world.requests.lookup id with
    | some request =>
      match request.phase with
      | .ready body _ =>
        some { world.setPhase id request .answered with
          instances := world.instances.handle decoder outcome request.submitted.method request.submitted.path body
          forwarded := world.forwardRecord id request :: world.forwarded }
      | _ => none
    | none => none
  | .guard label => (world.guard.step label).map fun guard => { world with guard }
  | .firewall label => (world.firewall.step label).map fun firewall => { world with firewall }
  | .hostChanges instances => some { world with instances }

end

/-- The agent starts. -/
def initial (instances : Instances) (guardTable : Option NftListing) (serverId : Option String)
    (file : Option StoredFirewall) (firewallTable : Option NftListing) : AgentWorld β where
  instances
  guard := .fresh guardTable
  firewall := .initial serverId file firewallTable
  requests := []
  forwarded := []

end AgentWorld

end Nyabase.Agent
