import Nyabase.SshProxy.Revocation

/-!
# Steps of the control tasks

A step of a control task keeps what holds of the connections and of the lock around their map, moves the
connections no further than a step may, and pays or passes on what the task owes.  An operation returns with
its debt paid.
-/

namespace Nyabase.SshProxy

open Lib List Option World

/-! ## What holds of the connections and their lock -/

structure World.Base (world : World) : Prop where
  versions : world.plane.versions ≠ []
  connections : ∀ (id : Nat) (c : Connection), world.connections[id]? = some c → ConnectionInv world.plane.versions c
  unregistered : ∀ (id : Nat) (c : Connection), world.connections[id]? = some c →
    c.registered = true ∨ c.revoked = true ∨ world.holder = some (.cleanup id .swap)
  cleanup : ∀ (id : Nat) (point : AbortPoint), world.holder = some (.cleanup id point) →
    point.marked = true → ∃ c, world.connections[id]? = some c ∧ c.revoked = true

variable {versions : List (Option RoutingSnapshot)}

theorem ConnectionInv.append {c : Connection}
    (inv : ConnectionInv versions c) (more : List (Option RoutingSnapshot)) : ConnectionInv (versions ++ more) c := by
  refine { inv with comparing := ?_, established := ?_, checked := ?_ }
  · intro current point hpoint
    obtain ⟨hversion, hrest⟩ := inv.comparing current point hpoint
    exact ⟨getElem?_append_of_some hversion, hrest⟩
  · intro hstage
    obtain ⟨current, hversion, hmatches⟩ := inv.established hstage
    exact ⟨current, getElem?_append_of_some hversion, hmatches⟩
  · intro id child hchild route version hcheck
    obtain ⟨huser, hle, snapshot, hversion, hauthorized⟩ := inv.checked id child hchild route version hcheck
    exact ⟨huser, hle, snapshot, getElem?_append_of_some hversion, hauthorized⟩

section Moves

variable {world world' : World}

/-- The lock stays with whoever has it, or no cleanup has it before or after. -/
def HolderKept (world world' : World) : Prop :=
  world'.holder = world.holder ∨ ((∀ id point, world.holder ≠ some (.cleanup id point)) ∧
    ∀ id point, world'.holder ≠ some (.cleanup id point))

/-- Every connection advances. -/
theorem World.Base.map {g : Nat → Connection → Connection} (h : world.Base)
    (hversions : ∃ more, world'.plane.versions = world.plane.versions ++ more)
    (hget : ∀ id : Nat, world'.connections[id]? = world.connections[id]?.map (g id))
    (hadvance : ∀ (id : Nat) (c : Connection), world.connections[id]? = some c →
      Advance world.plane.versions c (g id c))
    (hholder : HolderKept world world') : world'.Base ∧ Moved world world' := by
  obtain ⟨more, hmore⟩ := hversions
  have hfrom : ∀ (id : Nat) (c' : Connection), world'.connections[id]? = some c' →
      ∃ c, world.connections[id]? = some c ∧ Advance world.plane.versions c c' := by
    intro id c' hc'
    rw [hget, map_eq_some_iff] at hc'
    obtain ⟨c, hc, rfl⟩ := hc'
    exact ⟨c, hc, hadvance id c hc⟩
  have hkept : ∀ (id : Nat) (c : Connection), world.connections[id]? = some c →
      ∃ c', world'.connections[id]? = some c' ∧ Evolves world.plane.versions.length c c' := by
    intro id c hc
    exact ⟨_, (hget id).trans (by rw [hc, map_some]), (hadvance id c hc).evolves⟩
  constructor
  · refine ⟨?_, ?_, ?_, ?_⟩
    · rw [hmore]
      exact fun hnil => h.versions (append_eq_nil_iff.mp hnil).1
    · intro id c' hc'
      obtain ⟨c, -, hstep⟩ := hfrom id c' hc'
      rw [hmore]
      exact hstep.inv.append more
    · intro id c' hc'
      obtain ⟨c, hc, hstep⟩ := hfrom id c' hc'
      obtain hr | hr | hr := h.unregistered id c hc
      · exact .inl (hstep.registered.trans hr)
      · exact .inr (.inl (hstep.evolves.marked hr))
      · obtain heq | ⟨hnone, -⟩ := hholder
        · exact .inr (.inr (heq.trans hr))
        · exact absurd hr (hnone id .swap)
    · intro id point hpoint hmarked
      obtain heq | ⟨-, hnone⟩ := hholder
      · obtain ⟨c, hc, hrevoked⟩ := h.cleanup id point (heq ▸ hpoint) hmarked
        obtain ⟨c', hc', hevolves⟩ := hkept id c hc
        exact ⟨c', hc', hevolves.marked hrevoked⟩
      · exact absurd hpoint (hnone id point)
  · refine ⟨⟨more, hmore⟩, hkept, ?_⟩
    intro id c' hc'
    obtain ⟨c, hc, -⟩ := hfrom id c' hc'
    exact .inl ⟨c, hc⟩

/-- A step that leaves the connections alone. -/
theorem World.Base.same (h : world.Base) (hversions : ∃ more, world'.plane.versions = world.plane.versions ++ more)
    (hconnections : world'.connections = world.connections) (hholder : HolderKept world world') :
    world'.Base ∧ Moved world world' := by
  refine h.map (g := fun _ c => c) hversions (fun id => ?_) (fun id c hc => ?_) hholder
  · rw [hconnections, Option.map_id']
  · exact (Progress.refl (h.connections id c hc)).advance

/-- A step of one connection. -/
theorem World.Base.modify {id : Nat} {f : Connection → Connection} (h : world.Base)
    (hadvance : ∀ c, world.connections[id]? = some c → Advance world.plane.versions c (f c)) :
    (world.modify id f).Base ∧ Moved world (world.modify id f) := by
  refine h.map (g := fun j c => if id = j then f c else c) ⟨[], (append_nil _).symm⟩ (fun j => ?_)
    (fun j c hc => ?_) (.inl rfl)
  · rw [World.modify, getElem?_modify]
    rfl
  by_cases hj : id = j
  · subst hj
    rw [if_pos rfl]
    exact hadvance c hc
  · rw [if_neg hj]
    exact (Progress.refl (h.connections j c hc)).advance

end Moves

/-! ## Steps of a control task -/

/-- The points at which a task holds the lock of the map. -/
def ControlPoint.collects : ControlPoint → Bool
  | .collecting _ _ _ _ => true
  | _ => false

def World.AllRouted (world : World) (removing : Nat → Nat → Prop) : Prop :=
  ∀ (id : Nat) (c : Connection), world.connections[id]? = some c → Routed (removing id) c

/-- What a step of a control task leaves behind. -/
structure Stepped (world world' : World) (point : ControlPoint) : Prop where
  base : world'.Base
  moved : Moved world world'
  owes : world'.Owes point
  returned : ∀ version ∈ world'.returned, version ∈ world.returned ∨ (version < world'.plane.versions.length ∧
      AllSafe world'.plane.versions version world'.connections)

section Control

variable {world world' : World} {point point' : ControlPoint}

/-- A step that touches neither the connections nor the lock. -/
theorem Stepped.plane (h : world.Base) (hversions : ∃ more, world'.plane.versions = world.plane.versions ++ more)
    (hsame : (world'.connections, world'.holder, world'.returned) = (world.connections, world.holder, world.returned))
    (howes : world'.Owes point) : Stepped world world' point := by
  simp only [Prod.mk.injEq] at hsame
  obtain ⟨hbase, hmoved⟩ := h.same hversions hsame.1 (.inl hsame.2.1)
  exact ⟨hbase, hmoved, howes, fun version hversion => .inl (hsame.2.2 ▸ hversion)⟩

theorem Stepped.stay (h : world.Base) (howes : world.Owes point) : Stepped world world point :=
  Stepped.plane h ⟨[], (append_nil _).symm⟩ rfl howes

/-- A step of one connection that returns nothing. -/
theorem Stepped.modify {id : Nat} {f : Connection → Connection} (h : world.Base)
    (hadvance : ∀ c, world.connections[id]? = some c → Advance world.plane.versions c (f c))
    (howes : Moved world (world.modify id f) → (world.modify id f).Owes point) :
    Stepped world (world.modify id f) point := by
  obtain ⟨hbase, hmoved⟩ := h.modify hadvance
  exact ⟨hbase, hmoved, howes hmoved, fun _ hversion => .inl hversion⟩

theorem getElem?_modify_self {id : Nat} {f : Connection → Connection} (c : Connection)
    (hc : world.connections[id]? = some c) : (world.modify id f).connections[id]? = some (f c) := by
  rw [World.modify, getElem?_modify, hc]
  simp

variable {c : Connection} {scan : Scan} {at' : AbortPoint}

/-- Whoever is not in the map is marked, unless its cleanup has the lock. -/
theorem World.Base.mem_registered {id : Nat} (h : world.Base) (hfree : world.holder = none)
    (hc : world.connections[id]? = some c) (hrevoked : c.revoked = false) : id ∈ world.registered fun _ => true := by
  obtain hregistered | hmarked | hholder := h.unregistered id c hc
  · refine mem_filter.mpr ⟨mem_range.mpr (List.getElem?_eq_some_iff.mp hc).1, ?_⟩
    rw [hc, any_some, hregistered]
    rfl
  · rw [hrevoked] at hmarked
    cases hmarked
  · rw [hfree] at hholder
    cases hholder

/-- An operation that has paid its debt returns. -/
theorem Stepped.return (h : world.Base) (hvalid : scan.Valid world.plane.versions)
    (hsafe : AllSafe world.plane.versions scan.seen world.connections) {plane : Plane}
    (hversions : plane.versions = world.plane.versions) :
    Stepped world { world with plane, returned := world.returned ++ [scan.own] } .idle := by
  obtain ⟨hbase, hmoved⟩ := @World.Base.same world { world with plane, returned := world.returned ++ [scan.own] } h
    ⟨[], hversions.trans (append_nil _).symm⟩ rfl (.inl rfl)
  refine ⟨hbase, hmoved, True.intro, fun version hversion => ?_⟩
  obtain hold | hnew := mem_append.mp hversion
  · exact .inl hold
  rw [mem_singleton.mp hnew]
  rw [hversions]
  exact .inr ⟨hvalid.own.trans_lt hvalid.lt, hsafe.earlier hvalid.own⟩

/-- An operation that has paid its debt resumes admission or returns. -/
theorem Stepped.finish (h : world.Base) (hvalid : scan.Valid world.plane.versions)
    (hsafe : AllSafe world.plane.versions scan.seen world.connections) :
    Stepped world (world.finish scan).1 (world.finish scan).2 := by
  unfold World.finish
  by_cases hresume : scan.resume = true
  · rw [if_pos hresume]
    exact Stepped.plane h ⟨[], (append_nil _).symm⟩ rfl ⟨hvalid, hsafe⟩
  · rw [if_neg hresume]
    exact Stepped.return h hvalid hsafe rfl

/-- A connection of the map is the next to be compared, or comes later. -/
theorem owed_of_mem {id : Nat} {todo : List Nat} (hmem : id ∈ todo) (htail : id ∉ todo.tail) :
    todo.head? = some id ∧ c.matchFrom scan.snapshot .login = c.authorizationMatches scan.snapshot := by
  cases todo with
  | nil => cases hmem
  | cons first rest =>
    obtain rfl | hrest := mem_cons.mp hmem
    · exact ⟨rfl, rfl⟩
    · exact absurd hrest htail

/-- `disconnect_invalid` takes the lock. -/
theorem Stepped.enter (h : world.Base) (howes : world.Owes (.entering scan)) (hfree : world.holder = none) :
    Stepped world { world with holder := some .collector }
      (.collecting scan .login (world.registered fun _ => true) []) := by
  have hsame := @World.Base.same world { world with holder := some .collector } h
    ⟨[], (append_nil _).symm⟩ rfl (.inr ⟨by simp [hfree], by simp⟩)
  refine ⟨hsame.1, hsame.2, ⟨howes, ?_⟩, fun version hversion => .inl hversion⟩
  intro id c hc _ htail
  cases hrevoked : c.revoked with
  | true => exact .inl fun hwatched => absurd hwatched.1 (by simp [hrevoked])
  | false => exact .inr (owed_of_mem (h.mem_registered hfree hc hrevoked) htail)

/-- A connection that a snapshot, or none, was found to match. -/
theorem cleared_of_matches (hvalid : scan.Valid versions)
    (h : c.authorizationMatches scan.snapshot = true) : scan.Cleared versions c := by
  intro hwatched
  have hseen := hvalid.seen
  cases hsnapshot : scan.snapshot with
  | some snapshot =>
    rw [hsnapshot] at h hseen
    exact .inr ⟨rfl, scan.seen, snapshot, Nat.le_refl _, hseen, h⟩
  | none =>
    rw [hsnapshot] at h
    exact absurd (by simpa [Connection.authorizationMatches] using h) hwatched.2.2.2

/-- One lock of the comparison of one connection. -/
theorem Stepped.collect {at' : MatchPoint} {first : Nat} {todo found : List Nat} (h : world.Base)
    (howes : world.Owes (.collecting scan at' (first :: todo) found))
    (hstep : world.controlStep (.collecting scan at' (first :: todo) found) = some (world', point')) :
    Stepped world world' point' := by
  obtain ⟨hvalid, hall⟩ := howes
  -- the next connection is compared from the beginning
  have hnext : ∀ found', found ⊆ found' → (∀ c, world.connections[first]? = some c → first ∉ found' →
      c.matchFrom scan.snapshot at' = c.authorizationMatches scan.snapshot → scan.Cleared world.plane.versions c) →
      world.Owes (.collecting scan .login todo found') := by
    intro found' hsub hfirst
    refine ⟨hvalid, fun id c hc hfound htail => ?_⟩
    by_cases hmem : id ∈ todo
    · exact .inr (owed_of_mem hmem htail)
    obtain hcleared | ⟨hhead, hrest⟩ := hall id c hc (fun h => hfound (hsub h)) hmem
    · exact .inl hcleared
    · obtain rfl : first = id := some.inj hhead
      exact .inl (hfirst c hc hfound hrest)
  simp only [controlStep, matchAt] at hstep
  cases hfirst : world.connections[first]? with
  | none =>
    rw [hfirst] at hstep
    cases hstep
    refine .stay h (hnext found (List.Subset.refl _) fun c hc => ?_)
    rw [hfirst] at hc
    cases hc
  | some it =>
    rw [hfirst, map_some] at hstep
    have hspec := matchStep_spec it scan.snapshot at'
    cases hmatch : it.matchStep scan.snapshot at' with
    | inl next =>
      rw [hmatch] at hstep hspec
      cases hstep
      refine .stay h ⟨hvalid, fun id c hc hfound htail => (hall id c hc hfound htail).imp_right ?_⟩
      rintro ⟨hhead, hrest⟩
      obtain rfl : first = id := some.inj hhead
      obtain rfl : it = c := some.inj (hfirst.symm.trans hc)
      exact ⟨hhead, hspec.trans hrest⟩
    | inr answer =>
      rw [hmatch] at hstep hspec
      cases answer with
      | false =>
        cases hstep
        refine .stay h (hnext _ (subset_append_left _ _) fun c _ hfound => ?_)
        exact absurd (mem_append_right _ (mem_singleton.mpr rfl)) hfound
      | true =>
        cases hstep
        refine .stay h (hnext found (List.Subset.refl _) fun c hc _ hrest => ?_)
        obtain rfl : it = c := some.inj (hfirst.symm.trans hc)
        exact cleared_of_matches hvalid (hrest.symm.trans hspec)

/-- An abort that has returned leaves the connection marked; one that goes on past the swap, too. -/
theorem abortStep_marked (hmarked : at'.marked = true → c.revoked = true) :
    ((c.abortStep at').2 = none → (c.abortStep at').1.revoked = true) ∧
      ∀ next, (c.abortStep at').2 = some next → next.marked = true → (c.abortStep at').1.revoked = true := by
  cases at' with
  | check =>
    cases hrevoked : c.revoked <;> simp [Connection.abortStep, hrevoked, AbortPoint.marked]
  | swap => cases hrevoked : c.revoked <;> simp [Connection.abortStep, hrevoked]
  | takeHandles =>
    have hrevoked := hmarked rfl
    exact ⟨fun _ => hrevoked, fun _ _ _ => hrevoked⟩
  | abortHandles children =>
    have hrevoked := hmarked rfl
    cases children with
    | nil | cons child rest => exact ⟨fun _ => hrevoked, fun _ _ _ => hrevoked⟩

theorem takeHandles_marked (h : at' = .takeHandles) : at'.marked = true := by
  rw [h]
  rfl

/-- One step of the abort of one connection. -/
theorem Stepped.abort {scan : Option Scan} {first : Nat} {todo : List Nat} (h : world.Base)
    (howes : world.Owes (.aborting scan at' (first :: todo)))
    (hstep : world.controlStep (.aborting scan at' (first :: todo)) = some (world', point')) :
    Stepped world world' point' := by
  have ⟨hmarked, hall⟩ := howes
  have hmarkedAt : ∀ c, world.connections[first]? = some c → at'.marked = true → c.revoked = true := by
    intro c hc hat
    obtain ⟨c', hc', hrevoked⟩ := hmarked hat first rfl
    obtain rfl : c' = c := some.inj (hc'.symm.trans hc)
    exact hrevoked
  have hadvance : ∀ c, world.connections[first]? = some c → Advance world.plane.versions c (c.abortStep at').1 :=
    fun c hc => (Progress.abort (h.connections first c hc) fun hat => hmarkedAt c hc (takeHandles_marked hat)).advance
  have hget := @getElem?_modify_self world first fun c => (c.abortStep at').1
  simp only [controlStep] at hstep
  split at hstep
  · -- the abort goes on
    rename_i next hnext
    cases hstep
    refine Stepped.modify h hadvance fun hmoved => ⟨?_, ?_⟩
    · intro hnextMarked id hid
      obtain rfl : first = id := some.inj hid
      obtain ⟨c, hc, hnext⟩ := bind_eq_some_iff.mp hnext
      exact ⟨_, hget c hc, (abortStep_marked (hmarkedAt c hc)).2 next hnext hnextMarked⟩
    · exact (howes.moved hmoved).2
  · -- it has returned, and the connection is marked
    rename_i hnext
    cases hstep
    refine Stepped.modify h hadvance fun hmoved => ⟨nofun, ?_⟩
    intro s hs
    obtain ⟨hvalid, hcleared⟩ := hall s hs
    refine ⟨hvalid.moved hmoved, fun id c' hc' hid hwatched => ?_⟩
    by_cases hsame : id = first
    · subst hsame
      cases hfirst : world.connections[id]? with
      | none =>
        rw [World.modify, getElem?_modify, hfirst] at hc'
        cases hc'
      | some c =>
        obtain rfl : (c.abortStep at').1 = c' := some.inj ((hget c hfirst).symm.trans hc')
        rw [hfirst] at hnext
        exact absurd ((abortStep_marked (hmarkedAt c hfirst)).1 hnext) (by simp [hwatched.1])
    · exact hmoved.safe hvalid.lt hc' (fun c hc => hcleared id c hc (by simp [hsame, hid])) hwatched

/-- `abort_revoked_bridges` reads the routes of one connection: a bridge that is not on its list of revoked
ones is marked, or its route is authorized by the snapshot. -/
theorem safe_of_not_revoked {snapshot : RoutingSnapshot} {j : Nat} {child : Child}
    (hvalid : scan.Valid world.plane.versions) (hsnapshot : scan.snapshot = some snapshot)
    (hrouted : Routed (fun _ => False) c) (hchild : c.children[j]? = some child)
    (hnot : j ∉ c.revokedBridges snapshot) :
    child.SafeSince world.plane.versions scan.seen c.revoked := by
  intro hrevoked haborted route version hcheck
  have hroute : child.stage.route = some route := by
    cases hstage : child.stage <;> rw [hstage] at hcheck <;> simp_all [ChildStage.check, ChildStage.route]
  have hlisted := hrouted j child route hchild hroute haborted hrevoked not_false
  have hauthorized : route.stillAuthorized snapshot = true := by
    by_contra hunauthorized
    refine hnot (mem_filter.mpr ⟨mem_range.mpr (List.getElem?_eq_some_iff.mp hchild).1, ?_⟩)
    rw [hchild, bind_some, hlisted]
    simpa using hunauthorized
  exact .inr ⟨scan.seen, snapshot, Nat.le_refl _, hsnapshot ▸ hvalid.seen, hauthorized⟩

/-- A bridge that is off the list is aborted, unless it has ended or somebody else has taken its handle. -/
theorem abortHandle_safe {since : Nat} {j : Nat} {child' : Child}
    (inv : ConnectionInv versions c) (hchild' : (c.abortHandle j).children[j]? = some child') :
    child'.SafeSince versions since (c.abortHandle j).revoked := by
  unfold Connection.abortHandle at hchild'
  rw [getElem?_modifyChild, map_eq_some_iff] at hchild'
  obtain ⟨child, hchild, rfl⟩ := hchild'
  rw [if_pos rfl]
  intro hrevoked haborted route version hcheck
  by_cases hhandle : child.handle = true
  · simp [hhandle] at haborted
  rw [if_neg hhandle] at haborted hcheck
  by_cases hended : child.stage = .ended
  · rw [hended] at hcheck
    cases hcheck
  · exact absurd (inv.handled j child hchild hended haborted hrevoked) hhandle

theorem Stepped.list (h : world.Base) (howes : world.Owes (.listing scan))
    (hstep : world.controlStep (.listing scan) = some (world', point')) : Stepped world world' point' := by
  obtain ⟨hvalid, hsome, hsafe⟩ := howes
  obtain ⟨hfree, hstep⟩ := ite_none_right_eq_some.mp hstep
  cases hstep
  refine .stay h ⟨hvalid, hsome, hsafe, fun id c hc j child _ htodo _ hrevoked => ?_⟩
  exact absurd (h.mem_registered (isNone_iff_eq_none.mp hfree) hc hrevoked) htodo

/-- The bridges of the next connection are looked at, if there is one. -/
theorem Stepped.bridge {todo : List Nat} (h : world.Base) (hrouted : world.AllRouted fun _ _ => False)
    (howes : world.Owes (.bridging scan todo))
    (hstep : world.controlStep (.bridging scan todo) = some (world', point')) : Stepped world world' point' := by
  obtain ⟨hvalid, hsome, hsafe, hbridges⟩ := howes
  cases todo with
  | nil =>
    obtain ⟨rfl, rfl⟩ := Prod.mk.inj (some.inj hstep)
    refine Stepped.finish h hvalid fun id c hc => ⟨hsome ▸ hsafe id c hc, fun j child hchild => ?_⟩
    exact hbridges id c hc j child hchild not_mem_nil (by simp)
  | cons first todo =>
    cases hstep
    refine .stay h ⟨hvalid, hsome, hsafe, fun id c hc j child hchild htodo hchildren => ?_⟩
    by_cases hsame : id = first
    · subst hsame
      obtain ⟨snapshot, hsnapshot⟩ := isSome_iff_exists.mp hsome
      refine safe_of_not_revoked hvalid hsnapshot (hrouted id c hc) hchild fun hmem => hchildren ⟨rfl, ?_⟩
      rw [hc, hsnapshot]
      exact hmem
    · exact hbridges id c hc j child hchild (by simp [hsame, htodo]) (by simp)

theorem Stepped.remove {id : Nat} {children todo : List Nat} (h : world.Base)
    (howes : world.Owes (.removing scan id children todo))
    (hstep : world.controlStep (.removing scan id children todo) = some (world', point')) :
    Stepped world world' point' := by
  cases children with
  | nil =>
    cases hstep
    obtain ⟨hvalid, hsome, hsafe, hbridges⟩ := howes
    refine .stay h ⟨hvalid, hsome, hsafe, fun id c hc j child hchild htodo _ => ?_⟩
    exact hbridges id c hc j child hchild htodo (by simp)
  | cons child children =>
    cases hstep
    exact Stepped.modify h (fun c hc => Advance.removeRoute (h.connections id c hc) child) fun hmoved =>
      World.BridgesOwed.moved howes hmoved

theorem Stepped.removeHandle {id child : Nat} {children todo : List Nat} (h : world.Base)
    (howes : world.Owes (.removingHandle scan id child children todo))
    (hstep : world.controlStep (.removingHandle scan id child children todo) = some (world', point')) :
    Stepped world world' point' := by
  cases hstep
  refine Stepped.modify h (fun c hc => (Progress.abortHandle (h.connections id c hc) child).advance) fun hmoved => ?_
  obtain ⟨hvalid, hsome, hsafe, hbridges⟩ := World.BridgesOwed.moved howes hmoved
  refine ⟨hvalid, hsome, hsafe, fun id' c' hc' j it hit htodo hchildren => ?_⟩
  by_cases hsame : id = id' ∧ j = child
  · obtain ⟨rfl, rfl⟩ := hsame
    obtain ⟨c, hc⟩ | rfl := hmoved.fresh id c' hc'
    · obtain rfl : c.abortHandle j = c' := some.inj ((getElem?_modify_self c hc).symm.trans hc')
      exact abortHandle_safe (h.connections id c hc) hit
    · cases hit
  · refine hbridges id' c' hc' j it hit htodo ?_
    rintro ⟨hid, hmem⟩
    obtain hchild | hrest := mem_cons.mp hmem
    · exact hsame ⟨some.inj hid, hchild⟩
    · exact hchildren ⟨hid, hrest⟩

/-- Every step of a control task pays or passes on what it owes. -/
theorem Stepped.control (h : world.Base) (hlock : point.collects = true → world.holder = some .collector)
    (hrouted : ∀ scan todo, point = .bridging scan todo → world.AllRouted fun _ _ => False)
    (howes : world.Owes point) (hstep : world.controlStep point = some (world', point')) :
    Stepped world world' point' := by
  have hkeep : ∃ more, world.plane.versions = world.plane.versions ++ more := ⟨[], (append_nil _).symm⟩
  cases point with
  | idle => cases hstep
  | storing routing =>
    simp only [controlStep] at hstep
    split at hstep
    · cases hstep
      exact Stepped.plane h hkeep rfl True.intro
    · cases hstep
      refine Stepped.plane h ⟨[some routing], rfl⟩ rfl ?_
      show world.plane.versions.length < (world.plane.versions ++ [some routing]).length
      rw [length_append, length_singleton]
      omega
  | loading own =>
    cases hstep
    refine Stepped.plane h hkeep rfl ⟨?_, getElem?_version world.plane h.versions⟩
    have howes : own < world.plane.versions.length := howes
    show own ≤ world.plane.versions.length - 1
    omega
  | resumeMode scan | revokeMode own =>
    cases hstep
    exact Stepped.plane h hkeep rfl howes
  | resumeAdmitting scan =>
    obtain ⟨hvalid, hsafe⟩ := howes
    cases hstep
    exact Stepped.return h hvalid hsafe rfl
  | expiring generation deadline =>
    simp only [controlStep] at hstep
    split at hstep
    · cases hstep
      exact Stepped.plane h ⟨[none], rfl⟩ rfl True.intro
    · cases hstep
      exact Stepped.plane h hkeep rfl True.intro
  | clearing =>
    cases hstep
    refine Stepped.plane h ⟨[none], rfl⟩ rfl ?_
    show (world.plane.versions ++ [none])[world.plane.versions.length]? = some none
    simp
  | revokeAdmitting own =>
    cases hstep
    exact Stepped.plane h hkeep rfl ⟨Nat.le_refl _, howes⟩
  | entering scan =>
    obtain ⟨hfree, ⟨⟩⟩ := of_guard hstep
    exact Stepped.enter h howes (isNone_iff_eq_none.mp hfree)
  | collecting scan at' todo found =>
    cases todo with
    | cons first todo => exact Stepped.collect h howes hstep
    | nil =>
      cases hstep
      have hsame := @World.Base.same world { world with holder := none } h hkeep rfl
        (.inr ⟨by simp [hlock rfl], by simp⟩)
      obtain ⟨hvalid, hall⟩ := howes
      refine ⟨hsame.1, hsame.2, ⟨nofun, ?_⟩, fun version hversion => .inl hversion⟩
      intro s hs
      obtain rfl : scan = s := some.inj hs
      refine ⟨hvalid, ?_⟩
      intro id c hc hid
      exact (hall id c hc hid not_mem_nil).resolve_right (by simp)
  | aborting scan at' todo =>
    cases todo with
    | cons first todo => exact Stepped.abort h howes hstep
    | nil =>
      cases scan with
      | none =>
        cases hstep
        exact Stepped.plane h hkeep rfl True.intro
      | some scan =>
        obtain ⟨hvalid, hall⟩ := howes.2 scan rfl
        have hcleared : ∀ (id : Nat) (c : Connection), world.connections[id]? = some c →
            scan.Cleared world.plane.versions c := fun id c hc => hall id c hc not_mem_nil
        simp only [controlStep] at hstep
        split at hstep
        · rename_i hsome
          cases hstep
          exact Stepped.plane h hkeep rfl ⟨hvalid, hsome, hcleared⟩
        · rename_i hnone
          obtain ⟨rfl, rfl⟩ := Prod.mk.inj (some.inj hstep)
          refine Stepped.finish h hvalid ?_
          intro id c hc
          have hadmitted : c.SafeSince world.plane.versions scan.seen false :=
            Bool.eq_false_iff.mpr hnone ▸ hcleared id c hc
          exact ⟨fun hwatched => (hadmitted hwatched).imp_right fun h => absurd h.1 Bool.false_ne_true,
            hadmitted.bridges (h.connections id c hc)⟩
  | listing scan => exact Stepped.list h howes hstep
  | bridging scan todo => exact Stepped.bridge h (hrouted scan todo rfl) howes hstep
  | removing scan id children todo => exact Stepped.remove h howes hstep
  | removingHandle scan id child children todo => exact Stepped.removeHandle h howes hstep
  | pausing =>
    cases hstep
    split <;> exact Stepped.plane h hkeep rfl True.intro
  | sweeping | disconnecting =>
    obtain ⟨-, ⟨⟩⟩ := of_guard hstep
    exact Stepped.plane h hkeep rfl ⟨nofun, fun s hs => (by cases hs)⟩

end Control

end Nyabase.SshProxy
