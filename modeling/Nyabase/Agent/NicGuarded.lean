import Nyabase.Agent.FirewallChecks
import Nyabase.Agent.GuestGuards
import Nyabase.Agent.InstanceConfinement

/-!
# No guest NIC comes up unguarded

A forwarded request that can bring a guest NIC up was preceded, since it arrived, by a check of the IPv6
guard and by a check of the firewall, both started and found in place since then.

For an update of an instance this rests on what the policy read: between the read and the write, the
instance may have started, or its devices may have changed. -/

namespace Nyabase.Agent

open Lib List Option FirewallWorld

variable {β : Type}

/-! ## Requests that can bring a NIC up -/

def updatedInstance (submitted : PolicyRequest β) : Option String :=
  match parseIncusPath submitted.path with
  | some { segments := ["1.0", "instances", name], .. } => some name
  | _ => none

/-- Create with start, start, restart, unfreeze, or a NIC added to or changed on an instance that is not
stopped; by the path below `1.0/instances`. -/
def nicComesUp (method : Method) (fields : List (String × Json)) (instances : Instances) : List String → Bool
  | [] => decide (method = .post) && (fields.lookup "start").bind Json.bool? == some true
  | [name] =>
    (decide (method = .put) || decide (method = .patch)) &&
      match instances.lookup name with
      | some inst => bringsNicUp fields inst.document
      | none => false
  | [_, leaf] =>
    leaf == "state" && decide (method = .put) &&
      ["start", "restart", "unfreeze"].contains ((stringField fields "action").getD "undefined")
  | _ => false

def canBringNicUp (platform : Platform β) (submitted : PolicyRequest β) (instances : Instances) : Bool :=
  match parseIncusPath submitted.path with
  | some { segments := "1.0" :: "instances" :: rest, .. } =>
    match jsonBody platform submitted.body with
    | some fields => nicComesUp submitted.method fields instances rest
    | none => false
  | _ => false

/-- The instance a request updates is as the policy saw it, in its status and its devices. -/
def seenStill (submitted : PolicyRequest β) (seen instances : Instances) : Bool :=
  match updatedInstance submitted with
  | none => true
  | some name =>
    (seen.lookup name).map (fun inst => (inst.status, inst.devices)) ==
      (instances.lookup name).map fun inst => (inst.status, inst.devices)

section

variable {platform : Platform β} {submitted : PolicyRequest β} {instances seen : Instances}

theorem bringsNicUp_congr {fields : List (String × Json)} {inst other : Instance}
    (hstatus : inst.status = other.status) (hdevices : inst.devices = other.devices) :
    bringsNicUp fields inst.document = bringsNicUp fields other.document := by
  have hstopped : isStopped inst.document = isStopped other.document := by
    show (lower inst.status.toList == "stopped".toList) = (lower other.status.toList == "stopped".toList)
    rw [hstatus]
  have hlookup : inst.document.lookup "devices" = other.document.lookup "devices" := by
    show some (Json.obj _) = some (Json.obj _)
    rw [hdevices]
  unfold bringsNicUp
  rw [hstopped, hlookup]

/-- A request that can is a request on instances with a JSON body. -/
theorem canBringNicUp_iff : canBringNicUp platform submitted instances = true ↔
    ∃ rest query fields, parseIncusPath submitted.path = some ⟨"1.0" :: "instances" :: rest, query⟩ ∧
      jsonBody platform submitted.body = some fields ∧ nicComesUp submitted.method fields instances rest = true := by
  constructor
  · fun_cases canBringNicUp platform submitted instances with
    | case1 rest query hpath fields hfields => exact fun h => ⟨rest, query, fields, hpath, hfields, h⟩
    | _ => nofun
  · rintro ⟨rest, query, fields, hpath, hfields, h⟩
    rw [canBringNicUp, hpath, hfields]
    exact h

section

variable (h : canBringNicUp platform submitted instances = true)

include h

/-- The policy knows a request that can bring a NIC up. -/
theorem up_of_canBringNicUp {knows : String → Bool} {body : Option β} {up : Bool}
    (hallowed : checkIncusHttp platform submitted { readCurrent := instances.read, knows } =
      .allowed body up) : up = true := by
  obtain ⟨rest, query, fields, hpath, hfields, hup⟩ := canBringNicUp_iff.mp h
  have hwrite : submitted.method ≠ .get := by
    intro hget
    unfold nicComesUp at hup
    split at hup <;> simp [hget] at hup
  have hallowed := checkIncusHttp_allowed hallowed
  rw [hpath] at hallowed
  obtain ⟨hread, -⟩ | ⟨rest', query', ⟨hsame, hcheck⟩ | ⟨hother, -⟩ | ⟨hother, -⟩⟩ := hallowed
  · exact absurd hread hwrite
  · obtain ⟨rfl, -⟩ : rest = rest' ∧ query = query' := by simpa using hsame
    cases checkInstances_allowed hwrite hcheck with
    | create method parsed =>
      obtain rfl := some.inj (hfields.symm.trans parsed)
      simp only [nicComesUp, Bool.and_eq_true] at hup
      exact hup.2
    | delete method | rename method => simp [nicComesUp, method] at hup
    | @update name fields' current method managed parsed shape found =>
      obtain rfl := some.inj (hfields.symm.trans parsed)
      have hread : (instances.lookup name).map Instance.document = some current := by
        rw [← read_managed managed]
        exact found
      obtain ⟨inst, hinst, rfl⟩ := map_eq_some_iff.mp hread
      simp only [nicComesUp, hinst, Bool.and_eq_true] at hup
      exact hup.2
    | power method managed parsed known asked =>
      obtain rfl := some.inj (hfields.symm.trans parsed)
      simp only [nicComesUp, Bool.and_eq_true] at hup
      rw [← asked]
      exact hup.2
    | exec | deleteFile | writeFile => simp [nicComesUp] at hup
  · simp at hother
  · simp at hother

/-- What the policy saw decides while the instance stays as it was. -/
theorem canBringNicUp_of_seenStill
    (hseen : seenStill submitted seen instances = true) : canBringNicUp platform submitted seen = true := by
  obtain ⟨rest, query, fields, hpath, hfields, hup⟩ := canBringNicUp_iff.mp h
  refine canBringNicUp_iff.mpr ⟨rest, query, fields, hpath, hfields, ?_⟩
  match rest with
  | [] => exact hup
  | [name] =>
    simp only [seenStill, updatedInstance, hpath, beq_iff_eq] at hseen
    simp only [nicComesUp, Bool.and_eq_true] at hup ⊢
    refine ⟨hup.1, ?_⟩
    cases hnow : instances.lookup name with
    | none => simp [hnow] at hup
    | some inst =>
      rw [hnow, map_some, map_eq_some_iff] at hseen
      obtain ⟨before, hbefore, hsame⟩ := hseen
      obtain ⟨hstatus, hdevices⟩ := Prod.mk.inj hsame
      rw [hnow] at hup
      rw [hbefore]
      exact (bringsNicUp_congr hstatus hdevices).trans hup.2
  | [_, _] => exact hup
  | _ :: _ :: _ :: _ => exact hup

end

end

/-! ## Verified since the request arrived -/

/-- A check of the IPv6 guard started and found it in place. -/
def GuardVerified (log : List GuardEvent) (mark : Nat) : Prop :=
  ∃ check, Since log mark (.ended check true) ∧ Since log mark (.started check)

/-- A check of the firewall started, and a verification after its start found the table in place. -/
def FirewallVerified (log : List FirewallEvent) (mark : Nat) : Prop :=
  ∃ check, After log (.settled true) (.started (.check check)) ∧ Since log mark (.started (.check check))

/-- Both guards were verified since the request arrived. -/
def ForwardedRequest.Verified (request : ForwardedRequest β) : Prop :=
  GuardVerified request.guardLog request.guardMark ∧ FirewallVerified request.firewallLog request.firewallMark

theorem GuardVerified.suffix {log grown : List GuardEvent} {mark : Nat} (h : GuardVerified log mark)
    (hsuffix : log <:+ grown) : GuardVerified grown mark := by
  obtain ⟨check, hended, hstarted⟩ := h
  exact ⟨check, hended.suffix hsuffix, hstarted.suffix hsuffix⟩

theorem FirewallVerified.suffix {log grown : List FirewallEvent} {mark : Nat}
    (h : FirewallVerified log mark) (hsuffix : log <:+ grown) : FirewallVerified grown mark := by
  obtain ⟨check, hsettled, hstarted⟩ := h
  exact ⟨check, hsettled.suffix hsuffix, hstarted.suffix hsuffix⟩

namespace AgentWorld

/-! ## The invariant -/

/-- What holds of a request where it stands. -/
def PhaseInv (platform : Platform β) (world : AgentWorld β) (request : IncusRequest β) : RequestPhase β → Prop
  | .arrived => True
  | .guard _ _ ticket => world.guard.Fresh request.guardMark ticket
  | .firewall _ _ check =>
    GuardVerified world.guard.log request.guardMark ∧
      OnlySince world.firewall.log request.firewallMark (.started (.check check))
  | .ready _ seen =>
    canBringNicUp platform request.submitted seen = true → GuardVerified world.guard.log request.guardMark ∧
        FirewallVerified world.firewall.log request.firewallMark
  | .refused _ => True
  | .answered => True

structure RequestInv (platform : Platform β) (world : AgentWorld β) (request : IncusRequest β) : Prop where
  guardMark : request.guardMark ≤ world.guard.log.length
  firewallMark : request.firewallMark ≤ world.firewall.log.length
  phase : PhaseInv platform world request request.phase

structure Inv (platform : Platform β) (world : AgentWorld β) : Prop where
  guard : world.guard.Wf
  firewall : world.firewall.CheckHistory
  requests : ∀ id request, world.requests.lookup id = some request → RequestInv platform world request
  forwarded : ∀ request ∈ world.forwarded,
    canBringNicUp platform request.submitted request.instances = true → request.Verified
  answered : ∀ request ∈ world.forwarded, ∃ current,
    world.requests.lookup request.id = some current ∧ current.phase = .answered

section

variable {platform : Platform β} {world next : AgentWorld β} {request : IncusRequest β}

/-- The guards go on: their logs grow, and tickets stay fresh. -/
structure Progress (world next : AgentWorld β) : Prop where
  guardLog : world.guard.log <:+ next.guard.log
  firewallLog : world.firewall.log <:+ next.firewall.log
  fresh : ∀ mark ticket, mark ≤ world.guard.log.length → world.guard.Fresh mark ticket →
    next.guard.Fresh mark ticket

theorem RequestInv.progress (h : RequestInv platform world request) (hprogress : Progress world next) :
    RequestInv platform next request where
  guardMark := h.guardMark.trans hprogress.guardLog.length_le
  firewallMark := h.firewallMark.trans hprogress.firewallLog.length_le
  phase := by
    have hphase := h.phase
    generalize request.phase = phase at hphase ⊢
    cases phase with
    | arrived | refused error | answered => trivial
    | guard body seen ticket => exact hprogress.fresh _ ticket h.guardMark hphase
    | firewall body seen check =>
      exact ⟨hphase.1.suffix hprogress.guardLog, hphase.2.suffix h.firewallMark hprogress.firewallLog⟩
    | ready body seen =>
      intro hup
      exact ⟨(hphase hup).1.suffix hprogress.guardLog, (hphase hup).2.suffix hprogress.firewallLog⟩

/-- The guards and the host change, the requests stay where they are. -/
theorem Inv.progress (h : Inv platform world) (hprogress : Progress world next) (hguard : next.guard.Wf)
    (hfirewall : next.firewall.CheckHistory) (hrequests : next.requests = world.requests)
    (hforwarded : next.forwarded = world.forwarded) : Inv platform next where
  guard := hguard
  firewall := hfirewall
  requests id request hlookup := (h.requests id request (hrequests ▸ hlookup)).progress hprogress
  forwarded := hforwarded ▸ h.forwarded
  answered request hmem := by
    rw [hrequests]
    exact h.answered request (hforwarded ▸ hmem)

theorem lookup_setPhase {id other : Nat} {phase : RequestPhase β} :
    (world.setPhase id request phase).requests.lookup other =
      if other = id then some { request with phase } else world.requests.lookup other := by
  show (AssocList.override [(id, { request with phase })] world.requests).lookup other = _
  rw [AssocList.lookup_override, lookup_cons]
  by_cases hid : other = id
  · simp [hid]
  · rw [beq_eq_false_iff_ne.mpr hid, if_neg hid]
    rfl

variable {id : Nat}

/-- A request that was not answered goes on. -/
theorem Inv.setPhase (h : Inv platform world) {stood phase : RequestPhase β}
    (hlookup : world.requests.lookup id = some request) (hstood : request.phase = stood) (hopen : stood ≠ .answered)
    (hphase : PhaseInv platform world request phase) : Inv platform (world.setPhase id request phase) := { h with
  requests other current hcurrent := by
    rw [lookup_setPhase] at hcurrent
    split at hcurrent
    · cases hcurrent
      have hrequest := h.requests id request hlookup
      refine ⟨hrequest.guardMark, hrequest.firewallMark, ?_⟩
      cases phase <;> exact hphase
    · have hold := h.requests other current hcurrent
      exact { hold with }
  answered sent hmem := by
    obtain ⟨current, hcurrent, hanswered⟩ := h.answered sent hmem
    have hne : sent.id ≠ id := by
      intro hid
      rw [hid, hlookup] at hcurrent
      cases hcurrent
      exact hopen (hstood.symm.trans hanswered)
    rw [lookup_setPhase, if_neg hne]
    exact ⟨current, hcurrent, hanswered⟩ }

/-! ## The steps of a request -/

theorem inv_arrive (h : Inv platform world) {id : Nat} {submitted : PolicyRequest β}
    (hnew : world.requests.lookup id = none) :
    Inv platform { world with requests := (id, (⟨submitted, world.guard.log.length,
      world.firewall.log.length, .arrived⟩ : IncusRequest β)) :: world.requests } := { h with
  requests other current hcurrent := by
    rw [lookup_cons] at hcurrent
    split at hcurrent
    · cases hcurrent
      exact ⟨le_refl _, le_refl _, trivial⟩
    · have hold := h.requests other current hcurrent
      exact { hold with }
  answered sent hmem := by
    obtain ⟨current, hcurrent, hanswered⟩ := h.answered sent hmem
    have hne : sent.id ≠ id := by
      intro hid
      rw [hid, hnew] at hcurrent
      cases hcurrent
    refine ⟨current, ?_, hanswered⟩
    rw [lookup_cons, beq_eq_false_iff_ne.mpr hne]
    exact hcurrent }

theorem inv_decided (h : Inv platform world) {id : Nat} {knows : String → Bool}
    (hlookup : world.requests.lookup id = some request) (hphase : request.phase = .arrived) :
    Inv platform (world.decided id request (checkIncusHttp platform request.submitted
      { readCurrent := world.instances.read, knows })) := by
  cases hverdict : checkIncusHttp platform request.submitted
      { readCurrent := world.instances.read, knows } with
  | denied reason notFound =>
    cases notFound with
    | true | false => exact h.setPhase hlookup hphase nofun trivial
  | allowed body up =>
    cases up with
    | true =>
      have hprogress : Progress world { world with guard := world.guard.ensure } :=
        ⟨Ipv6Guard.log_suffix_ensure, suffix_refl _, fun _ _ hmark hfresh => hfresh.ensure hmark⟩
      have hcalled := h.progress hprogress h.guard.ensure h.firewall rfl rfl
      exact hcalled.setPhase hlookup hphase nofun
        (Ipv6Guard.fresh_ticket h.guard (h.requests id request hlookup).guardMark)
    | false =>
      refine h.setPhase hlookup hphase nofun ?_
      intro hup
      exact absurd (up_of_canBringNicUp hup hverdict) (by simp)

variable {body : Option β}

theorem inv_guarded (h : Inv platform world) {seen : Instances} {ticket : GuardTicket}
    {present : Bool} (hlookup : world.requests.lookup id = some request)
    (hphase : request.phase = .guard body seen ticket) (hresult : world.guard.result ticket = some present) :
    Inv platform (world.guarded id request body seen present) := by
  have hrequest := h.requests id request hlookup
  have hfresh := hrequest.phase
  rw [hphase] at hfresh
  unfold guarded
  split
  · rename_i hpresent
    subst hpresent
    have hprogress : Progress world { world with firewall := world.firewall.check } :=
      ⟨suffix_refl _, log_suffix_check, fun _ _ _ hfresh => hfresh⟩
    have hcalled := h.progress hprogress h.guard h.firewall.check rfl rfl
    have hnew : OnlySince world.firewall.log request.firewallMark (.started (.check world.firewall.checkId)) :=
      onlySince_of_not_mem h.firewall.checkId_not_started
    exact hcalled.setPhase hlookup hphase nofun ⟨hfresh.answer h.guard hresult,
      hnew.suffix hrequest.firewallMark log_suffix_check⟩
  · exact h.setPhase hlookup hphase nofun trivial

theorem inv_checked (h : Inv platform world) {seen : Instances} {check : Nat}
    (hlookup : world.requests.lookup id = some request) (hphase : request.phase = .firewall body seen check)
    (hended : checkEnded world.firewall check = true) : Inv platform (world.checked id request body seen) := by
  have hwaiting := (h.requests id request hlookup).phase
  rw [hphase] at hwaiting
  unfold checked
  split
  · rename_i hpresent
    refine h.setPhase hlookup hphase nofun fun _ => ⟨hwaiting.1, check, ?_⟩
    obtain ⟨event, hmem, hevent⟩ := any_eq_true.mp hended
    split at hevent
    · rename_i ended answer
      obtain rfl : ended = check := by simpa using hevent
      have hafter := h.firewall.verified_since hmem (verified_of_present hpresent)
      exact ⟨hafter, (hafter.since hwaiting.2).2⟩
    · cases hevent
  · exact h.setPhase hlookup hphase nofun trivial

theorem inv_forward (h : Inv platform world) {id : Nat} {seen instances : Instances}
    (hlookup : world.requests.lookup id = some request) (hphase : request.phase = .ready body seen)
    (hseen : seenStill request.submitted seen world.instances = true) :
    Inv platform { world.setPhase id request .answered with
      instances, forwarded := world.forwardRecord id request :: world.forwarded } := by
  have hready := (h.requests id request hlookup).phase
  rw [hphase] at hready
  have hanswered : Inv platform (world.setPhase id request .answered) := h.setPhase hlookup hphase nofun trivial
  refine ⟨h.guard, h.firewall, ?_, ?_, ?_⟩
  · intro other current hcurrent
    have hold := hanswered.requests other current hcurrent
    exact { hold with }
  · intro sent hmem hup
    rcases mem_cons.mp hmem with rfl | hmem
    · exact hready (canBringNicUp_of_seenStill hup hseen)
    · exact h.forwarded sent hmem hup
  · intro sent hmem
    rcases mem_cons.mp hmem with rfl | hmem
    · exact ⟨{ request with phase := .answered }, by simp [lookup_setPhase, forwardRecord], rfl⟩
    · exact hanswered.answered sent hmem

end

/-! ## Runs -/

section

variable {platform : Platform β} (decoder : Decoder platform)

/-- The instance a request updates changed between the policy's read and the write. -/
def overtaken (world : AgentWorld β) (label : AgentLabel β) : Bool :=
  match label with
  | .forward id _ =>
    match world.requests.lookup id with
    | some request =>
      match request.phase with
      | .ready _ seen => !seenStill request.submitted seen world.instances
      | _ => false
    | none => false
  | _ => false

/-- The steps in which no update is overtaken. -/
def steadyStep (world : AgentWorld β) (label : AgentLabel β) : Option (AgentWorld β) :=
  if world.overtaken label then none else world.step decoder label

variable {decoder} {world next : AgentWorld β} {label : AgentLabel β}

theorem inv_step (h : Inv platform world) (hsteady : world.overtaken label = false)
    (hstep : world.step decoder label = some next) : Inv platform next := by
  revert hstep
  fun_cases step decoder world label with
  | case2 id submitted hnew =>
    rintro ⟨⟩
    exact inv_arrive h (not_isSome_iff_eq_none.mp hnew)
  | case3 id knows request hlookup hphase =>
    rintro ⟨⟩
    exact inv_decided h hlookup hphase
  | case6 id error request hlookup hphase =>
    rintro ⟨⟩
    exact h.setPhase hlookup hphase nofun trivial
  | case9 id request hlookup body seen ticket hphase =>
    intro hstep
    obtain ⟨present, hresult, rfl⟩ := map_eq_some_iff.mp hstep
    exact inv_guarded h hlookup hphase hresult
  | case12 id request hlookup body seen check hphase hended =>
    rintro ⟨⟩
    exact inv_checked h hlookup hphase hended
  | case16 id outcome request hlookup body seen hphase =>
    rintro ⟨⟩
    simp only [overtaken, hlookup, hphase] at hsteady
    exact inv_forward h hlookup hphase (by simpa using hsteady)
  | case19 label =>
    intro hstep
    obtain ⟨guard, hguard, rfl⟩ := map_eq_some_iff.mp hstep
    have hprogress : Progress world { world with guard } :=
      ⟨Ipv6Guard.log_suffix_step hguard, suffix_refl _, fun _ _ hmark hfresh =>
        hfresh.step h.guard hmark hguard⟩
    exact h.progress hprogress (h.guard.step hguard) h.firewall rfl rfl
  | case20 label =>
    intro hstep
    obtain ⟨firewall, hfirewall, rfl⟩ := map_eq_some_iff.mp hstep
    have hprogress : Progress world { world with firewall } :=
      ⟨suffix_refl _, log_suffix_step hfirewall, fun _ _ _ hfresh => hfresh⟩
    exact h.progress hprogress h.guard (checkHistory_step h.firewall hfirewall) rfl rfl
  | case21 instances =>
    rintro ⟨⟩
    have hprogress : Progress world { world with instances } :=
      ⟨suffix_refl _, suffix_refl _, fun _ _ _ hfresh => hfresh⟩
    exact h.progress hprogress h.guard h.firewall rfl rfl
  | _ => nofun

/-- A verification that fails refuses the request it was made for. -/
def FailureRefuses (decoder : Decoder platform) (world : AgentWorld β) : Prop :=
  (∀ id request body seen ticket next, world.requests.lookup id = some request →
      request.phase = .guard body seen ticket → world.guard.result ticket = some false →
      world.step decoder (.guardAnswers id) = some next →
      next.requests.lookup id = some { request with phase := .refused (guardMissing world.guard) }) ∧
    ∀ id request body seen check next, world.requests.lookup id = some request →
      request.phase = .firewall body seen check → world.firewall.present = false →
      world.step decoder (.firewallAnswers id) = some next →
      next.requests.lookup id =
        some { request with phase := .refused (firewallMissing world.firewall.toGuestFirewall) }

theorem failureRefuses : FailureRefuses decoder world := by
  constructor
  · intro id request body seen ticket next hlookup hphase hfailed hstep
    simp only [step, hlookup, hphase, hfailed, map_some, Option.some.injEq] at hstep
    rw [← hstep, guarded, if_neg (by simp), lookup_setPhase, if_pos rfl]
  · intro id request body seen check next hlookup hphase hfailed hstep
    simp only [step, hlookup, hphase] at hstep
    split at hstep <;> cases hstep
    rw [checked, hfailed, if_neg (by simp), lookup_setPhase, if_pos rfl]

/-- In every run in which no update is overtaken: a forwarded request that can bring a guest NIC up was
preceded by a verification of both guards since it arrived; a verification that fails refuses its
request, and a refused request is not among the forwarded ones. -/
theorem no_nic_comes_up_unguarded (decoder : Decoder platform) (instances : Instances)
    (guardTable : Option NftListing) (serverId : Option String) (file : Option StoredFirewall)
    (firewallTable : Option NftListing) (labels : List (AgentLabel β)) (world : AgentWorld β)
    (hrun : run (steadyStep decoder) (initial instances guardTable serverId file firewallTable) labels = some world) :
    (∀ request ∈ world.forwarded,
        canBringNicUp platform request.submitted request.instances = true → request.Verified) ∧
      FailureRefuses decoder world ∧
      ∀ id request error, world.requests.lookup id = some request → request.phase = .refused error →
        ∀ sent ∈ world.forwarded, sent.id ≠ id := by
  have hpreserved : ∀ (world : AgentWorld β) label next, Inv platform world →
      steadyStep decoder world label = some next → Inv platform next := by
    intro world label next hworld hstep
    obtain ⟨hsteady, hstep⟩ := ite_none_left_eq_some.mp hstep
    exact inv_step hworld (by simpa using hsteady) hstep
  have hinv : Inv platform world := run_invariant hpreserved
    (by exact ⟨Ipv6Guard.wf_fresh _, ⟨nofun, nofun, .nil, nofun, nofun, nofun, nofun, nofun⟩, nofun, nofun, nofun⟩) hrun
  refine ⟨hinv.forwarded, failureRefuses, ?_⟩
  rintro id request error hlookup hrefused sent hsent rfl
  obtain ⟨current, hcurrent, hanswered⟩ := hinv.answered sent hsent
  obtain rfl := some.inj (hlookup.symm.trans hcurrent)
  rw [hrefused] at hanswered
  cases hanswered

end

/-! ## A start, and an update it overtakes -/

def stoppedInstance : Instances :=
  [(sampleName,
    { profiles := []
      config := [("security.idmap.isolated", "true")]
      devices := [("eth0", sampleNic)]
      status := "Stopped"
      maintained := [] })]

def sampleStart : PolicyRequest Json where
  method := .put
  path := "/1.0/instances/" ++ sampleName ++ "/state"
  body := some (.obj [("action", .str "start")])

/-- Plugs the NIC in again, with another address. -/
def sampleNicUpdate : PolicyRequest Json where
  method := .patch
  path := "/1.0/instances/" ++ sampleName
  body := some (.obj [("devices", .obj [("eth0", Json.ofStrings
    (AssocList.override [("ipv4.address", "10.0.0.3")] sampleNic))])])

/-- What the guard looks for in the listing of its table. -/
def completeListing : NftListing :=
  "hook forward\nhook input\nhook output\n".toList ++
    (List.replicate 4 "iifname \"nyh*\" ether type ip6 drop\n".toList).flatten

/-- The guards are called for request 1 and find their tables in place. -/
def startVerified : List (AgentLabel Json) :=
  ((firstApply (emptyDocument 'a')).map AgentLabel.firewall) ++
    [.arrive 1 sampleStart, .decide 1 (fun _ => false), .guard (.listed (some completeListing)),
      .guard (.listed (some completeListing)), .guard .cleared, .guardAnswers 1, .firewall .start,
      .firewall (.listed (some (sampleListing (emptyDocument 'a')))),
      .firewall .resume, .firewallAnswers 1]

def running : Outcome where
  accepted := true
  mergesDeviceKeys := true
  status := "Running"
  unknown := []

def sampleAgent : AgentWorld Json :=
  initial stoppedInstance none (some sampleServerId) none none

theorem start_guarded : ∃ world request, run (steadyStep valueDecoder) sampleAgent
        (startVerified ++ [.forward 1 running]) = some world ∧ world.forwarded = [request] ∧
      canBringNicUp valuePlatform request.submitted request.instances = true ∧ request.Verified := by
  have hrun : (run (steadyStep valueDecoder) sampleAgent (startVerified ++ [.forward 1 running])).map
      (fun world => world.forwarded.map fun request =>
        canBringNicUp valuePlatform request.submitted request.instances) = some [true] := by
    decide +kernel
  obtain ⟨world, hworld, hforwarded⟩ := map_eq_some_iff.mp hrun
  obtain ⟨request, hrequest⟩ : ∃ request, world.forwarded = [request] := by
    have hlength : world.forwarded.length = 1 := by
      simpa using congrArg List.length hforwarded
    exact length_eq_one_iff.mp hlength
  have hup : canBringNicUp valuePlatform request.submitted request.instances = true := by
    simpa [hrequest] using hforwarded
  have hverified := (no_nic_comes_up_unguarded valueDecoder _ _ _ _ _ _ world hworld).1 request
    (by simp [hrequest]) hup
  exact ⟨world, request, hworld, hrequest, hup, hverified⟩

/-- An update that arrives after the guards were verified for a start, is decided while the instance is
still stopped, and is forwarded once it runs. -/
def overtakenUpdate : List (AgentLabel Json) :=
  startVerified ++ [.arrive 2 sampleNicUpdate, .decide 2 (fun _ => false), .forward 1 running, .forward 2 running]

theorem update_of_started_instance_unguarded :
    ∃ world request, run (step valueDecoder) sampleAgent overtakenUpdate = some world ∧
      world.forwarded.head? = some request ∧ request.id = 2 ∧
      canBringNicUp valuePlatform request.submitted request.instances = true ∧ ¬ request.Verified := by
  have hrun : (run (step valueDecoder) sampleAgent overtakenUpdate).map (fun world =>
      world.forwarded.head?.map fun request => (request.id,
        canBringNicUp valuePlatform request.submitted request.instances,
        decide (request.guardLog.length ≤ request.guardMark))) = some (some (2, true, true)) := by
    decide +kernel
  obtain ⟨world, hworld, hhead⟩ := map_eq_some_iff.mp hrun
  obtain ⟨request, hrequest, hfacts⟩ := map_eq_some_iff.mp hhead
  obtain ⟨hid, hup, hlog⟩ : request.id = 2 ∧ canBringNicUp valuePlatform request.submitted request.instances = true ∧
      request.guardLog.length ≤ request.guardMark := by
    simpa using hfacts
  refine ⟨world, request, hworld, hrequest, hid, hup, ?_⟩
  -- the log of the guard has no entry since the update arrived
  rintro ⟨⟨check, ⟨newer, older, hsplit, hmark⟩, -⟩, -⟩
  rw [hsplit, length_append, length_cons] at hlog
  omega

end AgentWorld

end Nyabase.Agent
