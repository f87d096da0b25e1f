import Nyabase.SshProxy.Control
import Nyabase.SshProxy.RevokerSteps

/-!
# What a revoker owes

Once an install or a revoke has returned, whatever is still open is authorized by the version it wrote or by
a newer one.  A revoker owes this for every connection and every bridge it has passed.  What it owes at each
of its points is a property of the state (`World.Owes`), so that a step of any task can be held against it.

A connection is safe from a version on when it is marked, when its session has yet to read the store, when it
read that version or a newer one, or when such a version was compared with it.  A session that has not read
the store yet will read the current version, which is why the revoker may leave it alone.
-/

namespace Nyabase.SshProxy

open Lib Connection

/-! ## Safety -/

/-- The connection has read the store, with a login, and nobody has marked it. -/
def Connection.Watched (c : Connection) : Prop :=
  c.revoked = false ∧ c.stage ≠ .before ∧ c.stage ≠ .over ∧ c.login ≠ none

/-- If the connection is watched, it read the version `since` or a newer one, or it was `compared` with one that
authorizes it. -/
def Connection.SafeSince (versions : List (Option RoutingSnapshot)) (since : Nat) (compared : Bool)
    (c : Connection) : Prop :=
  c.Watched → since ≤ c.admittedAt ∨
    compared = true ∧ HeldSince versions since fun snapshot => c.authorizationMatches (some snapshot)

/-- The child is marked, or a version from `since` on authorizes its route. -/
def Child.SafeSince (versions : List (Option RoutingSnapshot)) (since : Nat) (revoked : Bool)
    (child : Child) : Prop :=
  revoked = false → child.aborted = false → ∀ route version, child.stage.check = some (route, version) →
    since ≤ version ∨ HeldSince versions since route.stillAuthorized

def Connection.BridgesSafeSince (versions : List (Option RoutingSnapshot)) (since : Nat) (c : Connection) : Prop :=
  ∀ (id : Nat) (child : Child), c.children[id]? = some child → child.SafeSince versions since c.revoked

/-- Everything that is open is safe. -/
def AllSafe (versions : List (Option RoutingSnapshot)) (since : Nat) (connections : List Connection) : Prop :=
  ∀ (id : Nat) (c : Connection), connections[id]? = some c →
    c.SafeSince versions since true ∧ c.BridgesSafeSince versions since

section Safety

variable {versions more : List (Option RoutingSnapshot)} {since count : Nat} {compared : Bool} {c c' : Connection}

theorem getElem?_append_of_some {α : Type} {xs ys : List α} {i : Nat} {a : α} (h : xs[i]? = some a) :
    (xs ++ ys)[i]? = some a := by
  rw [List.getElem?_append_left (List.getElem?_eq_some_iff.mp h).1, h]

theorem HeldSince.append {p : RoutingSnapshot → Bool} (h : HeldSince versions since p) :
    HeldSince (versions ++ more) since p := by
  obtain ⟨version, snapshot, hsince, hversion, hp⟩ := h
  exact ⟨version, snapshot, hsince, getElem?_append_of_some hversion, hp⟩

theorem HeldSince.earlier {p : RoutingSnapshot → Bool} {earlier : Nat} (h : HeldSince versions since p)
    (hle : earlier ≤ since) : HeldSince versions earlier p := by
  obtain ⟨version, snapshot, hsince, hversion, hp⟩ := h
  exact ⟨version, snapshot, hle.trans hsince, hversion, hp⟩

theorem Evolves.marked (h : Evolves count c c') (hrevoked : c.revoked = true) : c'.revoked = true :=
  Bool.not_eq_false _ ▸ fun hunmarked => absurd hrevoked (Bool.eq_false_iff.mp (h.unmarked hunmarked))

/-- A watched connection has just read the store, or was watched before and is what it was. -/
theorem Evolves.watched (h : Evolves count c c') (hwatched : c'.Watched) :
    count ≤ c'.admittedAt + 1 ∨ c.Watched ∧ SameIdentity c c' ∧ c'.admittedAt = c.admittedAt := by
  obtain ⟨hrevoked, hbefore', hover', hlogin⟩ := hwatched
  obtain ⟨-, hread⟩ | ⟨hbefore, hover, hidentity, hadmitted⟩ := h.identity hbefore' hover'
  · exact .inl hread
  · exact .inr ⟨⟨h.unmarked hrevoked, hbefore, hover, hidentity.1 ▸ hlogin⟩, hidentity, hadmitted⟩

/-- Safety is stable: a session that has not read the store yet will read the newest version. -/
theorem Connection.SafeSince.evolves (h : c.SafeSince versions since compared) (hsince : since < versions.length)
    (hevolves : Evolves versions.length c c') : c'.SafeSince (versions ++ more) since compared := by
  intro hwatched
  obtain hread | ⟨hbefore, hidentity, hadmitted⟩ := hevolves.watched hwatched
  · left
    omega
  rw [hadmitted]
  refine (h hbefore).imp_right ?_
  rintro ⟨hcompared, version, snapshot, hle, hversion, hmatches⟩
  exact ⟨hcompared, version, snapshot, hle, getElem?_append_of_some hversion,
    (hidentity.authorizationMatches_eq _).trans hmatches⟩

/-- A bridge of the later connection was one of the earlier, or was checked against the newest version. -/
theorem Child.SafeSince.evolves {id : Nat} {child' : Child} (hsince : since < versions.length)
    (hevolves : Evolves versions.length c c') (hchild : c'.children[id]? = some child')
    (h : ∀ child, c.children[id]? = some child → child.SafeSince versions since c.revoked) :
    child'.SafeSince (versions ++ more) since c'.revoked := by
  intro hrevoked haborted route version hcheck
  obtain hnew | ⟨child, hold, hcheckOld, hkept⟩ := hevolves.children id child' hchild route version hcheck
  · left
    omega
  exact (h child hold (hevolves.unmarked hrevoked) (hkept haborted) route version hcheckOld).imp_right HeldSince.append

/-- A connection that was admitted late has no older bridges. -/
theorem Connection.SafeSince.bridges (h : c.SafeSince versions since false) (inv : ConnectionInv versions c) :
    c.BridgesSafeSince versions since := by
  intro id child hchild hrevoked _ route version hcheck
  have hchildren : c.children ≠ [] := List.ne_nil_of_mem (List.mem_of_getElem? hchild)
  have hstage : c.stage = .established := by_contra fun hstage => hchildren (inv.childless (.inl hstage))
  have hwatched : c.Watched := by
    refine ⟨hrevoked, ?_, ?_, fun hlogin => hchildren (inv.childless (.inr (inv.anonymous hlogin)))⟩
    · rw [hstage]
      exact Stage.noConfusion
    · rw [hstage]
      exact Stage.noConfusion
  obtain hle | ⟨⟨⟩, -⟩ := h hwatched
  exact .inl (hle.trans (inv.checked id child hchild route version hcheck).2.1)

theorem AllSafe.earlier {connections : List Connection} {earlier : Nat} (h : AllSafe versions since connections)
    (hle : earlier ≤ since) : AllSafe versions earlier connections := by
  intro id c hc
  obtain ⟨hsafe, hbridges⟩ := h id c hc
  constructor
  · exact fun hwatched => (hsafe hwatched).imp hle.trans fun hheld => ⟨hheld.1, hheld.2.earlier hle⟩
  · intro j child hchild hrevoked haborted route version hcheck
    exact (hbridges j child hchild hrevoked haborted route version hcheck).imp hle.trans fun hheld => hheld.earlier hle

end Safety

/-! ## Moves of the system -/

/-- What one step of any task may do to the store and to the connections. -/
structure Moved (world world' : World) : Prop where
  versions : ∃ more, world'.plane.versions = world.plane.versions ++ more
  kept : ∀ (id : Nat) (c : Connection), world.connections[id]? = some c →
    ∃ c', world'.connections[id]? = some c' ∧ Evolves world.plane.versions.length c c'
  fresh : ∀ (id : Nat) (c' : Connection), world'.connections[id]? = some c' →
    (∃ c, world.connections[id]? = some c) ∨ c' = new

variable {world world' : World} {scan : Scan} {versions : List (Option RoutingSnapshot)} {c : Connection}

/-- A connection after a move comes from one before it, or is new. -/
theorem Moved.from (h : Moved world world') {id : Nat} {c' : Connection} (hc' : world'.connections[id]? = some c') :
    (∃ c, world.connections[id]? = some c ∧ Evolves world.plane.versions.length c c') ∨ c' = new := by
  obtain ⟨c, hc⟩ | hnew := h.fresh id c' hc'
  · obtain ⟨c'', hc'', hevolves⟩ := h.kept id c hc
    obtain rfl : c'' = c' := Option.some.inj (hc''.symm.trans hc')
    exact .inl ⟨c, hc, hevolves⟩
  · exact .inr hnew

section

variable {id since : Nat} {compared : Bool} {c' : Connection} (hmoved : Moved world world')
  (hsince : since < world.plane.versions.length) (hc' : world'.connections[id]? = some c')

include hmoved hsince hc'

theorem Moved.safe (h : ∀ c, world.connections[id]? = some c → c.SafeSince world.plane.versions since compared) :
    c'.SafeSince world'.plane.versions since compared := by
  obtain ⟨more, hmore⟩ := hmoved.versions
  rw [hmore]
  obtain ⟨c, hc, hevolves⟩ | rfl := hmoved.from hc'
  · exact (h c hc).evolves hsince hevolves
  · exact fun hwatched => absurd rfl hwatched.2.1

theorem Moved.bridgeSafe {j : Nat} {child' : Child} (hchild' : c'.children[j]? = some child')
    (h : ∀ c child, world.connections[id]? = some c → c.children[j]? = some child →
      child.SafeSince world.plane.versions since c.revoked) :
    child'.SafeSince world'.plane.versions since c'.revoked := by
  obtain ⟨more, hmore⟩ := hmoved.versions
  rw [hmore]
  obtain ⟨c, hc, hevolves⟩ | rfl := hmoved.from hc'
  · exact Child.SafeSince.evolves hsince hevolves hchild' fun child => h c child hc
  · cases hchild'

end

theorem AllSafe.moved {since : Nat} (h : AllSafe world.plane.versions since world.connections)
    (hsince : since < world.plane.versions.length) (hmoved : Moved world world') :
    AllSafe world'.plane.versions since world'.connections := fun id _ hc' =>
  ⟨hmoved.safe hsince hc' fun c hc => (h id c hc).1, fun j _ hchild' =>
    hmoved.bridgeSafe hsince hc' hchild' fun c child hc => (h id c hc).2 j child⟩

/-! ## Debts -/

/-- The points of an abort at which the connection is marked already. -/
def AbortPoint.marked : AbortPoint → Bool
  | .check | .swap => false
  | .takeHandles | .abortHandles _ => true

structure Scan.Valid (scan : Scan) (versions : List (Option RoutingSnapshot)) : Prop where
  own : scan.own ≤ scan.seen
  seen : versions[scan.seen]? = some scan.snapshot

theorem Scan.Valid.lt (h : scan.Valid versions) : scan.seen < versions.length := (List.getElem?_eq_some_iff.mp h.seen).1

/-- What `disconnect_invalid` achieves for a connection that it does not abort.  Without a snapshot it keeps
those only that have not been admitted yet, and so their bridges need no second look. -/
abbrev Scan.Cleared (scan : Scan) (versions : List (Option RoutingSnapshot)) (c : Connection) : Prop :=
  c.SafeSince versions scan.seen scan.snapshot.isSome

/-- The bridges are safe but for those still to be looked at: of the connections `todo`, and of one connection the
`children`. -/
def World.BridgesOwed (world : World) (scan : Scan) (current : Option Nat) (children todo : List Nat) : Prop :=
  scan.Valid world.plane.versions ∧ scan.snapshot.isSome = true ∧
    (∀ (id : Nat) (c : Connection), world.connections[id]? = some c → scan.Cleared world.plane.versions c) ∧
    ∀ (id : Nat) (c : Connection), world.connections[id]? = some c →
      ∀ (j : Nat) (child : Child), c.children[j]? = some child → id ∉ todo → ¬ (current = some id ∧ j ∈ children) →
        child.SafeSince world.plane.versions scan.seen c.revoked

/-- What a control task owes at its point. -/
def World.Owes (world : World) : ControlPoint → Prop
  | .loading own => own < world.plane.versions.length
  | .revokeMode own | .revokeAdmitting own => world.plane.versions[own]? = some none
  | .entering scan => scan.Valid world.plane.versions
  | .collecting scan point todo found =>
    scan.Valid world.plane.versions ∧ ∀ (id : Nat) (c : Connection), world.connections[id]? = some c →
        id ∉ found → id ∉ todo.tail → scan.Cleared world.plane.versions c ∨ (todo.head? = some id ∧
            c.matchFrom scan.snapshot point = c.authorizationMatches scan.snapshot)
  | .aborting scan point todo =>
    (point.marked = true → ∀ id ∈ todo.head?, ∃ c, world.connections[id]? = some c ∧ c.revoked = true) ∧
    ∀ s ∈ scan, s.Valid world.plane.versions ∧ ∀ (id : Nat) (c : Connection), world.connections[id]? = some c →
        id ∉ todo → s.Cleared world.plane.versions c
  | .listing scan =>
    scan.Valid world.plane.versions ∧ scan.snapshot.isSome = true ∧
      ∀ (id : Nat) (c : Connection), world.connections[id]? = some c → scan.Cleared world.plane.versions c
  | .bridging scan todo => world.BridgesOwed scan none [] todo
  | .removing scan id children todo => world.BridgesOwed scan (some id) children todo
  | .removingHandle scan id child children todo =>
    world.BridgesOwed scan (some id) (child :: children) todo
  | .resumeMode scan | .resumeAdmitting scan =>
    scan.Valid world.plane.versions ∧ AllSafe world.plane.versions scan.seen world.connections
  | _ => True

theorem Scan.Valid.moved (h : scan.Valid world.plane.versions) (hmoved : Moved world world') :
    scan.Valid world'.plane.versions := by
  obtain ⟨more, hmore⟩ := hmoved.versions
  rw [hmore]
  exact ⟨h.own, getElem?_append_of_some h.seen⟩

theorem World.BridgesOwed.moved {current : Option Nat} {children todo : List Nat}
    (h : world.BridgesOwed scan current children todo) (hmoved : Moved world world') :
    world'.BridgesOwed scan current children todo := by
  obtain ⟨hvalid, hsome, hsafe, hbridges⟩ := h
  refine ⟨hvalid.moved hmoved, hsome, fun id c' hc' => hmoved.safe hvalid.lt hc' (hsafe id), ?_⟩
  intro id c' hc' j child' hchild' htodo hchildren
  exact hmoved.bridgeSafe hvalid.lt hc' hchild' fun c child hc hchild =>
    hbridges id c hc j child hchild htodo hchildren

/-- A debt is not increased by what others do. -/
theorem World.Owes.moved {point : ControlPoint} (h : world.Owes point) (hmoved : Moved world world') :
    world'.Owes point := by
  obtain ⟨more, hmore⟩ := hmoved.versions
  cases point with
  | loading own =>
    have h : own < world.plane.versions.length := h
    show own < world'.plane.versions.length
    rw [hmore, List.length_append]
    omega
  | revokeMode own | revokeAdmitting own =>
    show world'.plane.versions[own]? = some none
    rw [hmore]
    exact getElem?_append_of_some h
  | entering scan => exact Scan.Valid.moved h hmoved
  | collecting scan point todo found =>
    obtain ⟨hvalid, hall⟩ := h
    refine ⟨hvalid.moved hmoved, ?_⟩
    intro id c' hc' hfound htail
    by_cases hhead : todo.head? = some id
    · -- the connection being compared: it is what it was, or its session reads the store later
      obtain ⟨c, hc, hevolves⟩ | rfl := hmoved.from hc'
      · obtain hcleared | ⟨-, hrest⟩ := hall id c hc hfound htail
        · rw [hmore]
          exact .inl (hcleared.evolves hvalid.lt hevolves)
        by_cases hwatched : c'.Watched
        · obtain hread | ⟨-, hidentity, -⟩ := hevolves.watched hwatched
          · have hlt := hvalid.lt
            exact .inl fun _ => .inl (by omega)
          · exact .inr ⟨hhead, by rw [hidentity.matchFrom_eq, hidentity.authorizationMatches_eq, hrest]⟩
        · exact .inl fun h => absurd h hwatched
      · exact .inl fun hwatched => absurd rfl hwatched.2.1
    · refine .inl (hmoved.safe hvalid.lt hc' fun c hc => ?_)
      exact (hall id c hc hfound htail).resolve_right fun h => hhead h.1
  | aborting scan point todo =>
    obtain ⟨hmarked, hall⟩ := h
    constructor
    · intro hpoint id hid
      obtain ⟨c, hc, hrevoked⟩ := hmarked hpoint id hid
      obtain ⟨c', hc', hevolves⟩ := hmoved.kept id c hc
      exact ⟨c', hc', hevolves.marked hrevoked⟩
    · intro s hs
      obtain ⟨hvalid, hcleared⟩ := hall s hs
      exact ⟨hvalid.moved hmoved, fun id c' hc' hid => hmoved.safe hvalid.lt hc' fun c hc => hcleared id c hc hid⟩
  | listing scan =>
    obtain ⟨hvalid, hsome, hsafe⟩ := h
    exact ⟨hvalid.moved hmoved, hsome, fun id c' hc' => hmoved.safe hvalid.lt hc' (hsafe id)⟩
  | bridging scan todo | removing scan id children todo | removingHandle scan id child children todo =>
    exact World.BridgesOwed.moved h hmoved
  | resumeMode scan | resumeAdmitting scan =>
    obtain ⟨hvalid, hsafe⟩ := h
    exact ⟨hvalid.moved hmoved, hsafe.moved hvalid.lt hmoved⟩
  | _ => exact True.intro

end Nyabase.SshProxy
