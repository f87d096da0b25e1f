import Nyabase.SshProxy.RevocationSteps

/-!
# Revocation is complete

In every state the system can reach, each install and each revoke that has returned has left behind only what
the version it wrote, or a newer one, authorizes.

The property is about connections that `auth_succeeded` has accepted.  Between `set_authenticated` and its
check a connection is bound to what an older snapshot said, and nobody marks it when a newer one has been
installed meanwhile: the check itself closes it.
-/

namespace Nyabase.SshProxy

open Lib Option Connection World

/-! ## The invariant -/

/-- The bridge that a task has taken off the list and not aborted yet. -/
def ControlPoint.removes : ControlPoint → Nat → Nat → Prop
  | .removingHandle _ connection child _ _, id, j => connection = id ∧ child = j
  | _, _, _ => False

/-- The points of a task that only revokes: it has no snapshot to compare bridges with. -/
def ControlPoint.Revokes : ControlPoint → Prop
  | .idle | .expiring _ _ | .clearing | .revokeMode _ | .revokeAdmitting _ => True
  | .entering scan | .collecting scan _ _ _ | .aborting (some scan) _ _ =>
    scan.snapshot = none ∧ scan.resume = false
  | _ => False

structure World.Inv (world : World) : Prop where
  base : world.Base
  lock : world.backend.collects = true ∨ world.timers.collects = true → world.holder = some .collector
  exclusive : ¬ (world.backend.collects = true ∧ world.timers.collects = true)
  routed : world.AllRouted world.backend.removes
  backend : world.Owes world.backend
  timers : world.Owes world.timers
  revokes : world.timers.Revokes
  returned : ∀ version ∈ world.returned, version < world.plane.versions.length ∧
    AllSafe world.plane.versions version world.connections

theorem World.initial_inv : initial.Inv := by
  have hnone : ∀ (id : Nat) (c : Connection), initial.connections[id]? ≠ some c := fun _ _ hc => by cases hc
  refine ⟨⟨List.cons_ne_nil _ _, ?_, ?_, nofun⟩, ?_, nofun, ?_, True.intro, True.intro, True.intro, nofun⟩
  · exact fun id c hc => absurd hc (hnone id c)
  · exact fun id c hc => absurd hc (hnone id c)
  · rintro (h | h) <;> cases h
  · exact fun id c hc => absurd hc (hnone id c)

/-! ## Routes of bridges -/

section Routes

variable {world world' : World} {point point' : ControlPoint}

theorem World.AllRouted.modify {removing removing' : Nat → Nat → Prop} {id : Nat}
    {f : Connection → Connection} (h : world.AllRouted removing)
    (hconnections : world'.connections = world.connections.modify id f)
    (hother : ∀ j, j ≠ id → removing j = removing' j)
    (hstep : ∀ c, world.connections[id]? = some c → Routed (removing id) c →
      Routed (removing' id) (f c)) : world'.AllRouted removing' := by
  intro j c' hc'
  rw [hconnections, List.getElem?_modify] at hc'
  obtain ⟨c, hc, rfl⟩ := map_eq_some_iff.mp hc'
  by_cases hj : id = j
  · subst hj
    simp only [if_true]
    exact hstep c hc (h id c hc)
  · simp only [if_neg hj]
    rw [← hother j (Ne.symm hj)]
    exact h j c hc

theorem Routed.mono {removing removing' : Nat → Prop} {c : Connection} (h : Routed removing c)
    (hmono : ∀ j, removing j → removing' j) : Routed removing' c := by
  intro j it route hit hroute haborted hrevoked hnot
  exact h j it route hit hroute haborted hrevoked fun hremoving => hnot (hmono j hremoving)

/-- A bridge taken off the list is the one being removed. -/
theorem routed_removeRoute {c : Connection} {child : Nat} (h : Routed (fun _ => False) c) :
    Routed (fun j => child = j) (c.removeRoute child) := by
  intro j it' route hit' hroute haborted hrevoked hj
  unfold removeRoute at hit'
  rw [getElem?_modifyChild, map_eq_some_iff] at hit'
  obtain ⟨it, hit, rfl⟩ := hit'
  rw [if_neg hj] at hroute haborted ⊢
  exact h j it route hit hroute haborted hrevoked not_false

/-- Once it is aborted, nothing is being removed. -/
theorem routed_abortHandle {versions : List (Option RoutingSnapshot)} {c : Connection} {child : Nat}
    (inv : ConnectionInv versions c) (h : Routed (fun j => child = j) c) :
    Routed (fun _ => False) (c.abortHandle child) := by
  intro j it' route hit' hroute haborted hrevoked _
  unfold abortHandle at hit'
  rw [getElem?_modifyChild, map_eq_some_iff] at hit'
  obtain ⟨it, hit, rfl⟩ := hit'
  by_cases hj : child = j
  · rw [if_pos hj] at hroute haborted
    by_cases hhandle : it.handle = true
    · simp [hhandle] at haborted
    rw [if_neg hhandle] at hroute haborted
    have hlive : it.stage ≠ .ended := by
      intro hended
      rw [hended] at hroute
      cases hroute
    exact absurd (inv.handled j it hit hlive haborted hrevoked) hhandle
  · rw [if_neg hj] at hroute haborted ⊢
    exact h j it route hit hroute haborted hrevoked hj

/-- The connection that a task aborts keeps the routes of its bridges. -/
theorem routed_abort {removing : Nat → Nat → Prop} {scan : Option Scan} {at' : AbortPoint} {first : Nat}
    {todo : List Nat} (h : world.Base) (hrouted : world.AllRouted removing)
    (howes : world.Owes (.aborting scan at' (first :: todo)))
    (hconnections : world'.connections = world.connections.modify first fun c => (c.abortStep at').1) :
    world'.AllRouted removing := by
  refine hrouted.modify hconnections (fun _ _ => rfl) ?_
  intro c hc hroutedAt
  refine (Progress.abort (h.connections first c hc) ?_).routed _ hroutedAt
  intro hat
  obtain ⟨c', hc', hrevoked⟩ := howes.1 (takeHandles_marked hat) first rfl
  obtain rfl : c' = c := some.inj (hc'.symm.trans hc)
  exact hrevoked

/-- What a step of a control task does outside the control plane. -/
inductive ControlEffect (world : World) : ControlPoint → World → ControlPoint → Prop where
  | plane {point point' : ControlPoint} (plane : Plane) (returned : List Nat)
      (hcollects : point'.collects = point.collects) (hnone : point.removes = fun _ _ => False)
      (hnone' : point'.removes = fun _ _ => False) : ControlEffect world point { world with plane, returned } point'
  | enter (scan : Scan) (todo : List Nat) (hfree : world.holder = none) :
      ControlEffect world (.entering scan) { world with holder := some .collector } (.collecting scan .login todo [])
  | leave (scan : Scan) (at' : MatchPoint) (found : List Nat) :
      ControlEffect world (.collecting scan at' [] found) { world with holder := none }
        (.aborting (some scan) .check found)
  | abort (scan : Option Scan) (at' next : AbortPoint) (first : Nat) (todo todo' : List Nat) :
      ControlEffect world (.aborting scan at' (first :: todo)) (world.modify first fun c => (c.abortStep at').1)
        (.aborting scan next todo')
  | remove (scan : Scan) (id child : Nat) (children todo : List Nat) :
      ControlEffect world (.removing scan id (child :: children) todo) (world.modify id fun c => c.removeRoute child)
        (.removingHandle scan id child children todo)
  | removeHandle (scan : Scan) (id child : Nat) (children todo : List Nat) :
      ControlEffect world (.removingHandle scan id child children todo)
        (world.modify id fun c => c.abortHandle child) (.removing scan id children todo)

theorem finish_effect {scan : Scan} (hcollects : point.collects = false) (hnone : point.removes = fun _ _ => False) :
    ControlEffect world point (world.finish scan).1 (world.finish scan).2 := by
  unfold finish
  split
  · exact .plane world.plane world.returned hcollects.symm hnone rfl
  · exact .plane world.plane _ hcollects.symm hnone rfl

theorem controlStep_effect (hstep : world.controlStep point = some (world', point')) :
    ControlEffect world point world' point' := by
  revert hstep
  fun_cases controlStep world point <;> intro hstep
  all_goals first
    | cases hstep; done
    | obtain ⟨rfl, rfl⟩ := Prod.mk.inj (some.inj hstep)
  all_goals try exact .plane _ _ rfl rfl rfl
  · exact .enter _ _ (isNone_iff_eq_none.mp (by assumption))
  · exact .leave _ _ _
  · exact finish_effect rfl rfl
  · exact .abort _ _ _ _ _ _
  · exact .abort _ _ _ _ _ _
  · exact finish_effect rfl rfl
  · exact .remove _ _ _ _ _
  · exact .removeHandle _ _ _ _ _
  · split <;> exact .plane _ _ rfl rfl rfl

/-- A task that starts an operation only touches the plane. -/
theorem taskStep_effect {forBackend : Bool} {command : Option Command}
    (hstep : world.taskStep point forBackend command = some (world', point')) :
    ControlEffect world point world' point' := by
  cases command with
  | none => exact controlStep_effect hstep
  | some command =>
    simp only [taskStep] at hstep
    split at hstep
    · rename_i hidle
      obtain ⟨rfl, -⟩ := hidle
      revert hstep
      fun_cases start world command
      all_goals
        intro hstep
        cases hstep
        exact .plane _ _ rfl rfl rfl
    · cases hstep

namespace ControlEffect

theorem routed (h : world.Base) (howes : world.Owes point) (hrouted : world.AllRouted point.removes)
    (heffect : ControlEffect world point world' point') : world'.AllRouted point'.removes := by
  cases heffect with
  | plane plane returned _ hnone hnone' =>
    rw [hnone']
    exact hnone ▸ hrouted
  | enter | leave => exact hrouted
  | abort scan at' next first todo => exact routed_abort h hrouted howes rfl
  | remove scan id child children todo =>
    refine hrouted.modify rfl ?_ ?_
    · intro j hj
      funext k
      exact propext ⟨fun h => h.elim, fun h => absurd h.1 (Ne.symm hj)⟩
    · intro c _ hroutedAt
      have hremoved := @routed_removeRoute c child hroutedAt
      exact hremoved.mono fun _ h' => ⟨rfl, h'⟩
  | removeHandle scan id child children todo =>
    refine hrouted.modify rfl ?_ ?_
    · intro j hj
      funext k
      exact propext ⟨fun h => absurd h.1 (Ne.symm hj), fun h => h.elim⟩
    · intro c hc hroutedAt
      exact routed_abortHandle (h.connections id c hc) (hroutedAt.mono fun _ h' => h'.2)

/-- A control task does not touch where the tasks stand. -/
theorem tasks (heffect : ControlEffect world point world' point') :
    world'.backend = world.backend ∧ world'.timers = world.timers := by
  cases heffect <;> exact ⟨rfl, rfl⟩

/-- A task takes the lock when it is free, and gives back its own: two tasks never hold it both. -/
theorem lock {other : ControlPoint}
    (hlock : point.collects = true ∨ other.collects = true → world.holder = some .collector)
    (hexclusive : ¬ (point.collects = true ∧ other.collects = true))
    (heffect : ControlEffect world point world' point') :
    (point'.collects = true ∨ other.collects = true → world'.holder = some .collector) ∧
      ¬ (point'.collects = true ∧ other.collects = true) := by
  cases heffect with
  | plane plane returned hcollects =>
    rw [hcollects]
    exact ⟨hlock, hexclusive⟩
  | enter scan todo hfree =>
    refine ⟨fun _ => rfl, fun h => ?_⟩
    rw [hlock (.inr h.2)] at hfree
    cases hfree
  | leave scan at' found =>
    have hother : other.collects ≠ true := fun hother => hexclusive ⟨rfl, hother⟩
    constructor
    · intro h
      obtain h | h := h
      · cases h
      · exact absurd h hother
    · exact fun h => hother h.2
  | _ => exact ⟨hlock, hexclusive⟩

end ControlEffect

end Routes

/-- The timer task only ever revokes. -/
theorem revokes_of_controlStep {world world' : World} {point point' : ControlPoint} (h : point.Revokes)
    (hstep : world.controlStep point = some (world', point')) : point'.Revokes := by
  revert h hstep
  fun_cases controlStep world point <;> intro h hstep
  all_goals first
    | exact h.elim
    | cases hstep; done
    | cases hstep; exact True.intro
    | cases hstep; exact h
    | cases hstep; exact ⟨rfl, rfl⟩
    | skip
  case case19 hsome =>
    rw [h.1] at hsome
    cases hsome
  case case20 =>
    -- a task that does not resume admission is done
    rw [finish, h.2] at hstep
    cases hstep
    exact True.intro
  case case21 scan _ _ _ _ _ | case22 scan _ _ _ _ =>
    cases hstep
    cases scan with
    | none => exact h.elim
    | some scan => exact h

/-! ## Every step keeps the invariant -/

section Invariant

variable {world world' : World}

/-- What was returned before a step stays safe. -/
theorem World.Inv.returned_moved {version : Nat} (h : world.Inv) (hmoved : Moved world world')
    (hversion : version ∈ world.returned) :
    version < world'.plane.versions.length ∧ AllSafe world'.plane.versions version world'.connections := by
  obtain ⟨hlt, hsafe⟩ := h.returned version hversion
  obtain ⟨more, hmore⟩ := hmoved.versions
  refine ⟨?_, hsafe.moved hlt hmoved⟩
  rw [hmore, List.length_append]
  omega

/-- A step of a session, a bridge or a cleanup, which leaves the control tasks where they are. -/
theorem World.Inv.moved (h : world.Inv) (hbase : world'.Base) (hmoved : Moved world world')
    (hrouted : world'.AllRouted world.backend.removes)
    (hlock : world.backend.collects = true ∨ world.timers.collects = true → world'.holder = some .collector)
    (htasks : (world'.backend, world'.timers, world'.returned) = (world.backend, world.timers, world.returned)) :
    world'.Inv := by
  cases world'
  cases htasks
  exact ⟨hbase, hlock, h.exclusive, hrouted, h.backend.moved hmoved, h.timers.moved hmoved, h.revokes,
    fun version => h.returned_moved hmoved⟩

variable {id : Nat} {point : ControlPoint} {command : Option Command}

section

variable (h : world.Inv)

include h

/-- A step of one connection that keeps the routes of its bridges. -/
theorem World.Inv.progress {c next : Connection} (hc : world.connections[id]? = some c)
    (hnext : Progress world.plane.versions c next) : (world.modify id fun _ => next).Inv := by
  have hprogress : ∀ c, world.connections[id]? = some c → Progress world.plane.versions c next := by
    intro other hother
    rwa [← some.inj (hc.symm.trans hother)]
  obtain ⟨hbase, hmoved⟩ := h.base.modify fun c hc => (hprogress c hc).advance
  refine h.moved hbase hmoved ?_ h.lock rfl
  exact h.routed.modify rfl (fun _ _ => rfl) (fun c hc => (hprogress c hc).routed _)

/-- A connection is accepted. -/
theorem World.Inv.accept : ({ world with connections := world.connections ++ [new] } : World).Inv := by
  have hfrom : ∀ (id : Nat) (c : Connection), (world.connections ++ [new])[id]? = some c →
      world.connections[id]? = some c ∨ c = new := fun _ _ => getElem?_concat_eq_some
  refine h.moved ⟨h.base.versions, ?_, ?_, ?_⟩ ⟨⟨[], (List.append_nil _).symm⟩, ?_, ?_⟩ ?_ h.lock rfl
  · intro id c hc
    obtain hold | rfl := hfrom id c hc
    · exact h.base.connections id c hold
    have hnone : ∀ (j : Nat) (child : Child), new.children[j]? ≠ some child := fun _ _ h => by cases h
    exact ⟨nofun, nofun, fun _ => rfl, fun _ => rfl, True.intro, fun j child hchild => absurd hchild (hnone j child),
      fun j child hchild => absurd hchild (hnone j child)⟩
  · intro id c hc
    obtain hold | rfl := hfrom id c hc
    · exact h.base.unregistered id c hold
    · exact .inl rfl
  · intro id point hpoint hmarked
    obtain ⟨c, hc, hrevoked⟩ := h.base.cleanup id point hpoint hmarked
    exact ⟨c, getElem?_append_of_some hc, hrevoked⟩
  · intro id c hc
    exact ⟨c, getElem?_append_of_some hc, (Progress.refl (h.base.connections id c hc)).advance.evolves⟩
  · intro id c hc
    obtain hold | rfl := hfrom id c hc
    · exact .inl ⟨c, hold⟩
    · exact .inr rfl
  · intro id c hc
    obtain hold | rfl := hfrom id c hc
    · exact h.routed id c hold
    · intro j child route hchild
      cases hchild

/-- The cleanup of a connection takes it out of the map and holds the lock while it aborts it. -/
theorem World.Inv.unregister (hfree : world.holder = none) :
    ({ world.modify id fun c => { c with registered := false } with
      holder := some (.cleanup id .swap) } : World).Inv := by
  have hget : ∀ j : Nat, (world.connections.modify id fun c => { c with registered := false })[j]? =
      world.connections[j]?.map fun c => if id = j then { c with registered := false } else c := by
    intro j
    rw [List.getElem?_modify]
    rfl
  have hfrom : ∀ (j : Nat) (c' : Connection),
      (world.connections.modify id fun c => { c with registered := false })[j]? = some c' →
      ∃ c, world.connections[j]? = some c ∧ c' = if id = j then { c with registered := false } else c := by
    intro j c' hc'
    rw [hget, map_eq_some_iff] at hc'
    obtain ⟨c, hc, rfl⟩ := hc'
    exact ⟨c, hc, rfl⟩
  refine h.moved ⟨h.base.versions, ?_, ?_, ?_⟩ ⟨⟨[], (List.append_nil _).symm⟩, ?_, ?_⟩ ?_ ?_ rfl
  · intro j c' hc'
    obtain ⟨c, hc, rfl⟩ := hfrom j c' hc'
    split
    · refine { h.base.connections j c hc with opening := ?_ }
      have hopening := (h.base.connections j c hc).opening
      cases hsession : c.session <;> rw [hsession] at hopening <;> exact hopening
    · exact h.base.connections j c hc
  · intro j c' hc'
    obtain ⟨c, hc, rfl⟩ := hfrom j c' hc'
    split
    · rename_i hj
      exact .inr (.inr (by rw [hj]))
    · obtain hr | hr | hr := h.base.unregistered j c hc
      · exact .inl hr
      · exact .inr (.inl hr)
      · rw [hfree] at hr
        cases hr
  · intro j point hpoint hmarked
    cases hpoint
    cases hmarked
  · intro j c hc
    refine ⟨_, (hget j).trans (by rw [hc, map_some]), ?_⟩
    have hevolves := (Progress.refl (h.base.connections j c hc)).advance.evolves
    split
    · exact ⟨hevolves.unmarked, hevolves.identity, hevolves.children⟩
    · exact hevolves
  · intro j c' hc'
    obtain ⟨c, hc, -⟩ := hfrom j c' hc'
    exact .inl ⟨c, hc⟩
  · intro j c' hc'
    obtain ⟨c, hc, rfl⟩ := hfrom j c' hc'
    split <;> exact h.routed j c hc
  · intro hcollects
    rw [h.lock hcollects] at hfree
    cases hfree

/-- One step of such a cleanup. -/
theorem World.Inv.cleanup {point : AbortPoint} (hholder : world.holder = some (.cleanup id point)) :
    ({ world.modify id fun c => (c.abortStep point).1 with
      holder := (world.connections[id]?.bind fun c => (c.abortStep point).2).map
        (Holder.cleanup id) } : World).Inv := by
  have hmarked : ∀ c, world.connections[id]? = some c → point.marked = true → c.revoked = true := by
    intro c hc hpoint
    obtain ⟨c', hc', hrevoked⟩ := h.base.cleanup id point hholder hpoint
    obtain rfl : c' = c := some.inj (hc'.symm.trans hc)
    exact hrevoked
  have hprogress : ∀ c, world.connections[id]? = some c →
      Progress world.plane.versions c (c.abortStep point).1 := fun c hc =>
    Progress.abort (h.base.connections id c hc) fun hpoint =>
      hmarked c hc (takeHandles_marked hpoint)
  obtain ⟨hbase, hmoved⟩ := h.base.modify fun c hc => (hprogress c hc).advance
  refine h.moved ⟨hbase.versions, hbase.connections, ?_, ?_⟩
    ⟨hmoved.versions, hmoved.kept, hmoved.fresh⟩ ?_ ?_ rfl
  · intro j c' hc'
    obtain hr | hr | hr := hbase.unregistered j c' hc'
    · exact .inl hr
    · exact .inr (.inl hr)
    -- the connection of this cleanup, which is about to mark it
    have hr : world.holder = some (.cleanup j .swap) := hr
    rw [hholder] at hr
    obtain ⟨rfl, rfl⟩ := Holder.cleanup.inj (some.inj hr)
    obtain ⟨c, hc⟩ | rfl := hmoved.fresh id c' hc'
    · obtain rfl : (c.abortStep .swap).1 = c' :=
        some.inj ((getElem?_modify_self c hc).symm.trans hc')
      refine .inr (Or.inl ?_)
      cases hrevoked : c.revoked <;> simp [abortStep, hrevoked]
    · exact .inl rfl
  · intro j next hnext hnextMarked
    obtain ⟨point', hpoint', hcleanup⟩ := map_eq_some_iff.mp hnext
    obtain ⟨rfl, rfl⟩ := Holder.cleanup.inj hcleanup
    obtain ⟨c, hc, hstep⟩ := bind_eq_some_iff.mp hpoint'
    exact ⟨_, getElem?_modify_self c hc, (abortStep_marked (hmarked c hc)).2 point' hstep hnextMarked⟩
  · exact h.routed.modify rfl (fun _ _ => rfl) (fun c hc => (hprogress c hc).routed _)
  · intro hcollects
    rw [h.lock hcollects] at hholder
    cases hholder

omit h in
/-- An operation of a control task starts without a debt. -/
theorem start_spec {command : Command} (h : world.Base) (hstart : world.start command = (world', point)) :
    Stepped world world' point ∧ (command.forBackend = false → point.Revokes) := by
  have hkeep : ∃ more, world.plane.versions = world.plane.versions ++ more := ⟨[], (List.append_nil _).symm⟩
  revert hstart
  fun_cases start world command
  all_goals
    intro hstart
    obtain ⟨rfl, rfl⟩ := Prod.mk.inj hstart
    refine ⟨Stepped.plane h hkeep rfl True.intro, ?_⟩
    intro hforBackend
    first
    | exact True.intro
    | cases hforBackend

omit h in
/-- Every step of a task pays or passes on what it owes. -/
theorem Stepped.task {forBackend : Bool} {point' : ControlPoint} (h : world.Base)
    (hlock : point.collects = true → world.holder = some .collector)
    (hrouted : ∀ scan todo, point = .bridging scan todo → world.AllRouted fun _ _ => False)
    (howes : world.Owes point) (hstep : world.taskStep point forBackend command = some (world', point')) :
    Stepped world world' point' ∧ (forBackend = false → point.Revokes → point'.Revokes) := by
  cases command with
  | none => exact ⟨Stepped.control h hlock hrouted howes hstep, fun _ hrevokes => revokes_of_controlStep hrevokes hstep⟩
  | some command =>
    obtain ⟨hidle, hstep⟩ := ite_none_right_eq_some.mp hstep
    obtain ⟨hstepped, hrevokes⟩ := start_spec h (some.inj hstep)
    exact ⟨hstepped, fun hnot _ => hrevokes (hidle.2.trans hnot)⟩

/-- What was returned before is safe after a step, and what returns in it is. -/
theorem returned_of_stepped (hstepped : Stepped world world' point) :
    ∀ version ∈ world'.returned, version < world'.plane.versions.length ∧
      AllSafe world'.plane.versions version world'.connections := by
  intro version hversion
  exact (hstepped.returned version hversion).elim (h.returned_moved hstepped.moved) id

/-- A step of the backend task. -/
theorem World.Inv.backendStep (hstep : world.taskStep world.backend true command = some (world', point)) :
    ({ world' with backend := point } : World).Inv := by
  have heffect := taskStep_effect hstep
  have hrouted : ∀ scan todo, world.backend = .bridging scan todo → world.AllRouted fun _ _ => False := by
    intro scan todo hbridging
    have hrouted := h.routed
    rwa [hbridging] at hrouted
  obtain ⟨hstepped, -⟩ := Stepped.task h.base (fun hcollects => h.lock (.inl hcollects)) hrouted h.backend hstep
  obtain ⟨-, htimers⟩ := heffect.tasks
  obtain ⟨hlock, hexclusive⟩ := heffect.lock h.lock h.exclusive
  have hroutes := heffect.routed h.base h.backend h.routed
  have hreturned := returned_of_stepped h hstepped
  refine ⟨{ hstepped.base with }, htimers ▸ hlock, htimers ▸ hexclusive, hroutes, hstepped.owes, ?_, ?_, hreturned⟩
  · show world'.Owes world'.timers
    rw [htimers]
    exact h.timers.moved hstepped.moved
  · rw [htimers]
    exact h.revokes

/-- A step of the timer task, which aborts connections but never looks at bridges. -/
theorem World.Inv.timersStep (hstep : world.taskStep world.timers false command = some (world', point)) :
    ({ world' with timers := point } : World).Inv := by
  have heffect := taskStep_effect hstep
  have hrevokes := h.revokes
  have hnoBridges : ∀ scan todo, world.timers ≠ .bridging scan todo := by
    intro scan todo hbridging
    rw [hbridging] at hrevokes
    exact hrevokes
  obtain ⟨hstepped, hrevokes'⟩ := Stepped.task h.base (fun hcollects => h.lock (.inr hcollects))
    (fun scan todo hbridging => absurd hbridging (hnoBridges scan todo)) h.timers hstep
  obtain ⟨hbackend, -⟩ := heffect.tasks
  obtain ⟨hlock, hexclusive⟩ := heffect.lock (fun hcollects => h.lock hcollects.symm)
    (fun hboth => h.exclusive hboth.symm)
  have hreturned := returned_of_stepped h hstepped
  refine ⟨{ hstepped.base with }, ?_, ?_, ?_, ?_, hstepped.owes, hrevokes' rfl hrevokes, hreturned⟩
  · exact fun hcollects => hlock (hbackend ▸ hcollects.symm)
  · exact fun hboth => hexclusive (hbackend ▸ hboth.symm)
  · generalize hpoint : world.timers = timers at heffect hrevokes
    cases heffect with
    | plane | enter | leave => exact h.routed
    | abort => exact routed_abort h.base h.routed (hpoint ▸ h.timers) rfl
    | remove | removeHandle => exact hrevokes.elim
  · show world'.Owes world'.backend
    rw [hbackend]
    exact h.backend.moved hstepped.moved

/-- Every step of the system keeps the invariant. -/
theorem World.Inv.step {label : Label} (hstep : world.step label = some world') : world'.Inv := by
  cases label with
  | tick now =>
    obtain ⟨-, rfl⟩ := of_guard hstep
    have hsame := @World.Base.same world { world with plane := { world.plane with now } } h.base
      ⟨[], (List.append_nil _).symm⟩ rfl (.inl rfl)
    exact h.moved hsame.1 hsame.2 h.routed h.lock rfl
  | accept =>
    obtain ⟨-, rfl⟩ := of_guard hstep
    exact h.accept
  | session id input =>
    simp only [World.step, bind_eq_bind, bind_eq_some_iff] at hstep
    obtain ⟨c, hc, next, hnext, hstep⟩ := hstep
    cases hstep
    exact h.progress hc (Progress.session (h.base.connections id c hc) h.base.versions hnext)
  | bridge id child =>
    simp only [World.step, bind_eq_bind, bind_eq_some_iff] at hstep
    obtain ⟨c, hc, next, hnext, hstep⟩ := hstep
    cases hstep
    exact h.progress hc (Progress.bridge (h.base.connections id c hc) hnext)
  | unregister id =>
    simp only [World.step, bind_eq_bind, bind_eq_some_iff] at hstep
    obtain ⟨c, hc, hstep⟩ := hstep
    obtain ⟨hfree, rfl⟩ := of_guard hstep
    exact h.unregister (isNone_iff_eq_none.mp (Bool.and_eq_true_iff.mp hfree).1)
  | cleanup =>
    simp only [World.step] at hstep
    split at hstep
    · rename_i id point hholder
      cases hstep
      exact h.cleanup hholder
    · cases hstep
  | backend command =>
    simp only [World.step, bind_eq_bind, bind_eq_some_iff, Prod.exists] at hstep
    obtain ⟨next, point, htask, hstep⟩ := hstep
    cases hstep
    exact h.backendStep htask
  | timers command =>
    simp only [World.step, bind_eq_bind, bind_eq_some_iff, Prod.exists] at hstep
    obtain ⟨next, point, htask, hstep⟩ := hstep
    cases hstep
    exact h.timersStep htask

end

/-- The invariant holds in every reachable state. -/
theorem World.Reachable.inv (h : world.Reachable) : world.Inv := by
  obtain ⟨labels, hrun⟩ := h
  exact run_invariant (fun _ _ _ hinv hstep => World.Inv.step hinv hstep) initial_inv hrun

end Invariant

/-! ## The theorem -/

/-- Once an install or a revoke has returned, every accepted connection that is not marked is authorized by the
version it wrote or by a newer installed snapshot, or it was accepted without an identity and has no bridge.
Every bridge goes to a route of the connection's own user, and the route of one that is not marked itself is
authorized likewise.
Nothing that happens later takes this back. -/
theorem revocation_complete {world : World} (hreachable : world.Reachable) {version : Nat}
    (hreturned : version ∈ world.returned) {c : Connection} (hc : c ∈ world.connections)
    (haccepted : c.stage = .established) (hunmarked : c.revoked = false) :
    (HeldSince world.plane.versions version (fun snapshot => c.authorizationMatches (some snapshot)) ∨
      (c.login = none ∧ c.children = [])) ∧
    ∀ child ∈ c.children, ∀ route checkedAt, child.stage = .running route checkedAt →
      c.userId = some route.userId ∧
        (child.aborted = false → HeldSince world.plane.versions version route.stillAuthorized) := by
  have hinv := hreachable.inv
  obtain ⟨id, hid⟩ := List.mem_iff_getElem?.mp hc
  have inv := hinv.base.connections id c hid
  obtain ⟨-, hsafe⟩ := hinv.returned version hreturned
  obtain ⟨hconnection, hbridges⟩ := hsafe id c hid
  have hanonymous : c.login = none → c.children = [] := fun hlogin =>
    inv.childless (.inr (inv.anonymous hlogin))
  constructor
  · by_cases hlogin : c.login = none
    · exact .inr ⟨hlogin, hanonymous hlogin⟩
    obtain h | ⟨-, h⟩ := hconnection ⟨hunmarked, by simp [haccepted], by simp [haccepted], hlogin⟩
    · -- it was accepted against that version or a newer one
      obtain ⟨current, hcurrent, hmatches⟩ := inv.established haccepted
      cases current with
      | none => exact absurd (by simpa [authorizationMatches] using hmatches) hlogin
      | some snapshot => exact .inl ⟨c.admittedAt, snapshot, h, hcurrent, hmatches⟩
    · exact .inl h
  · intro child hchild route checkedAt hrunning
    obtain ⟨j, hj⟩ := List.mem_iff_getElem?.mp hchild
    have hcheck : child.stage.check = some (route, checkedAt) := by rw [hrunning]; rfl
    obtain ⟨huser, -, snapshot, hsnapshot, hauthorized⟩ := inv.checked j child hj route checkedAt hcheck
    refine ⟨huser, fun hunaborted => ?_⟩
    obtain h | h := hbridges j child hj hunmarked hunaborted route checkedAt hcheck
    · exact ⟨checkedAt, snapshot, h, hsnapshot, hauthorized⟩
    · exact h

/-- A running bridge is of an accepted connection with a login and goes to a route of that connection's user; a
snapshot installed since authorized the route. -/
def World.BridgesAuthorized (world : World) : Prop :=
  ∀ c ∈ world.connections, ∀ child ∈ c.children, ∀ route version, child.stage = .running route version →
    c.stage = .established ∧ c.login ≠ none ∧ c.userId = some route.userId ∧ c.admittedAt ≤ version ∧
      ∃ snapshot, world.plane.versions[version]? = some (some snapshot) ∧ route.stillAuthorized snapshot = true

theorem bridges_authorized (world : { world : World // world.Reachable }) : world.val.BridgesAuthorized := by
  intro c hc child hchild route version hrunning
  obtain ⟨id, hid⟩ := List.mem_iff_getElem?.mp hc
  obtain ⟨j, hj⟩ := List.mem_iff_getElem?.mp hchild
  have inv := world.2.inv.base.connections id c hid
  have hchildren := List.ne_nil_of_mem hchild
  refine ⟨by_contra fun h => hchildren (inv.childless (.inl h)), ?_, ?_⟩
  · exact fun h => hchildren (inv.childless (.inr (inv.anonymous h)))
  · exact inv.checked j child hj route version (by rw [hrunning]; rfl)

/-! ## Two runs -/

/-- A snapshot of one server with one container, for users given by their keys. -/
def proxySnapshot (generation : Nat) (users : List RoutingUser) : ProxySnapshot :=
  { generation, staleAfterMs := 120000, validUntil := 100000, hostSuffix := "nya".toList,
    hostKeyParses := true, users,
    servers := [⟨"server", "server".toList, "online".toList⟩],
    images := [⟨"image", true⟩],
    containers := [containerOf "a" "work"],
    routes := [routeOf "a" "10.0.0.5"] }

def alice : RoutingUser := ⟨"alice", "alice".toList, "active", [⟨7⟩]⟩

/-- An install of a snapshot from its first step to its last, with so many steps in between. -/
def installLabels (snapshot : ProxySnapshot) (steps : Nat) : List Label :=
  .backend (some (.install snapshot 1000)) :: List.replicate steps (.backend none)

/-- A session verifies a key up to the point where it writes down the login. -/
def verifyLabels : List Label :=
  .session 0 (.verifiedKey "alice".toList ⟨7⟩) :: List.replicate 5 (.session 0 .go)

/-- While a session is about to write down whom it authenticated, a snapshot without that user is installed. -/
def windowLabels : List Label :=
  installLabels (proxySnapshot 1 [alice]) 9 ++ [.accept] ++ verifyLabels ++
    installLabels (proxySnapshot 2 []) 12 ++ List.replicate 5 (.session 0 .go)

/-- The install has returned, and the connection is live, authenticated and not marked, although the snapshot
does not authorize it: `auth_succeeded` has yet to look. -/
theorem unauthorized_until_auth_succeeded :
    ∃ world : World, world.Reachable ∧ ∃ version ∈ world.returned, ∃ c ∈ world.connections,
      c.registered = true ∧ c.revoked = false ∧ c.authenticatedAt = true ∧
      ∀ contents ∈ world.plane.versions.drop version,
        (contents.any fun snapshot => c.authorizationMatches (some snapshot)) = false := by
  have hrun : ((run World.step initial windowLabels).any fun world =>
      decide (∃ version ∈ world.returned, ∃ c ∈ world.connections,
        c.registered = true ∧ c.revoked = false ∧ c.authenticatedAt = true ∧
        ∀ contents ∈ world.plane.versions.drop version,
          (contents.any fun snapshot => c.authorizationMatches (some snapshot)) = false)) = true := by
    decide +kernel
  obtain ⟨world, hworld, hproperty⟩ := (any_eq_true _ _).mp hrun
  exact ⟨world, ⟨windowLabels, hworld⟩, of_decide_eq_true hproperty⟩

/-- A session authenticates and opens a bridge, then a snapshot is installed that still authorizes both. -/
def heldLabels : List Label :=
  installLabels (proxySnapshot 1 [alice]) 9 ++ [.accept] ++ verifyLabels ++
    List.replicate 12 (.session 0 .go) ++ [.session 0 (.directTcpip "work.nya".toList 22)] ++
    List.replicate 6 (.session 0 .go) ++ [.session 0 (.outcome true)] ++
    List.replicate 3 (.session 0 .go) ++ [.session 0 (.outcome true)] ++
    installLabels (proxySnapshot 2 [alice]) 15

def heldWorld : World := (run World.step initial heldLabels).getD initial

def heldConnection : Connection := heldWorld.connections.headD new

/-- The connection and its bridge are still there, and the second snapshot is the one that authorizes them. -/
theorem held_after_second_install :
    heldConnection ∈ heldWorld.connections ∧ heldConnection.login = some "alice".toList ∧
      heldConnection.children.length = 1 ∧ (HeldSince heldWorld.plane.versions 2
          (fun snapshot => heldConnection.authorizationMatches (some snapshot)) ∨
        (heldConnection.login = none ∧ heldConnection.children = [])) ∧
      ∀ child ∈ heldConnection.children, ∀ route checkedAt, child.stage = .running route checkedAt →
        heldConnection.userId = some route.userId ∧
          (child.aborted = false → HeldSince heldWorld.plane.versions 2 route.stillAuthorized) := by
  have hreachable : heldWorld.Reachable := ⟨heldLabels, by decide +kernel⟩
  have hmember : heldConnection ∈ heldWorld.connections := by decide +kernel
  refine ⟨hmember, by decide +kernel, by decide +kernel, ?_⟩
  exact revocation_complete hreachable (by decide +kernel) hmember (by decide +kernel) (by decide +kernel)

end Nyabase.SshProxy
