import Nyabase.SshProxy.SessionInvariant

/-!
# What the other tasks do to a connection

Bridges end on their own, control tasks and the cleanup of a connection abort it, a revoker takes bridges
off the list and aborts them.  Each of these is progress; taking a bridge off the list is an advance only,
since the bridge is not aborted before the next step.
-/

namespace Nyabase.SshProxy

open Lib Progress

section Others

variable {versions : List (Option RoutingSnapshot)} {c c' : Connection}

/-- A change of a child that the session which opens it does not notice. -/
def Unnoticed (it it' : Child) : Prop :=
  it'.stage = it.stage ∨ (it.stage.check ≠ none ∧ ∀ route version, it.stage ≠ .checked route version)

/-- What a session expects of its child depends on the child's stage only. -/
theorem Connection.Opening.map {f : Nat → Child → Child} {point : SessionPoint} (h : c.Opening point)
    (hidentity : SameIdentity c c') (hkey : c'.sessionKey = c.sessionKey)
    (hchildren : ∀ id : Nat, c'.children[id]? = c.children[id]?.map (f id))
    (hstage : ∀ (id : Nat) (it : Child), c.children[id]? = some it → Unnoticed it (f id it)) : c'.Opening point := by
  have hkept : ∀ (id : Nat) (it : Child), c.children[id]? = some it → (∀ r v, it.stage ≠ .running r v) →
      ∃ it', c'.children[id]? = some it' ∧ it'.stage = it.stage := by
    intro id it hit hrunning
    refine ⟨f id it, by rw [hchildren, hit, Option.map_some], ?_⟩
    obtain h | ⟨hcheck, hchecked⟩ := hstage id it hit
    · exact h
    cases hcase : it.stage with
    | checked r v => exact absurd hcase (hchecked r v)
    | running r v => exact absurd hcase (hrunning r v)
    | _ => rw [hcase] at hcheck; exact absurd rfl hcheck
  cases point with
  | setPublicKey _ | setUserId _ | setPinnedRoute _ | setAuthenticatedAt _ =>
    show c'.login ≠ none
    rw [hidentity.1]
    exact h
  | authorizeRoute _ _ | checkChannels _ | reserve _ =>
    show c'.sessionKey ≠ none
    rw [hkey]
    exact h
  | connecting child route | bind child route =>
    obtain ⟨it, hit, hpermit⟩ := h
    obtain ⟨it', hit', hstage'⟩ := hkept child it hit (by rw [hpermit]; simp)
    exact ⟨it', hit', hstage'.trans hpermit⟩
  | recheckUser child route =>
    obtain ⟨it, hit, hbound⟩ := h
    obtain ⟨it', hit', hstage'⟩ := hkept child it hit (by rw [hbound]; simp)
    exact ⟨it', hit', hstage'.trans hbound⟩
  | recheckRoute child route userId =>
    obtain ⟨huser, it, hit, hbound⟩ := h
    obtain ⟨it', hit', hstage'⟩ := hkept child it hit (by rw [hbound]; simp)
    exact ⟨hidentity.2.2.1.trans huser, it', hit', hstage'.trans hbound⟩
  | accepting child =>
    obtain ⟨it, route, version, hit, hchecked⟩ := h
    obtain ⟨it', hit', hstage'⟩ := hkept child it hit (by rw [hchecked]; simp)
    exact ⟨it', route, version, hit', hstage'.trans hchecked⟩
  | dropHandle child =>
    obtain ⟨it, hit⟩ := h
    exact ⟨f child it, by rw [hchildren, hit, Option.map_some]⟩
  | dropRoute child =>
    obtain ⟨it, hit, hended⟩ := h
    obtain ⟨it', hit', hstage'⟩ := hkept child it hit (by rw [hended]; simp)
    exact ⟨it', hit', hstage'.trans hended⟩
  | _ => exact True.intro

section

variable (inv : ConnectionInv versions c)

include inv

/-- A step of another task on one child. -/
theorem Advance.modifyChild {child : Nat} {f : Child → Child} {n : Nat}
    (hstep : ∀ it, c.children[child]? = some it → Unnoticed it (f it) ∧ ChildStep versions c it (f it)) :
    Advance versions c { c.modifyChild child f with channels := n } := by
  have hchildren := getElem?_modifyChild c child f
  have hall := @forall_modified c (fun it it' => Unnoticed it it' ∧ ChildStep versions c it it') child f
    (fun it => ⟨.inl rfl, .refl it⟩) hstep
  refine @Advance.children versions c _ (fun id it => if child = id then f it else it) inv hchildren
    rfl rfl ⟨rfl, rfl, rfl, rfl⟩ rfl rfl (.inl rfl) ?_ fun id it hit => (hall id it hit).2
  exact inv.opening.map ⟨rfl, rfl, rfl, rfl⟩ rfl hchildren fun id it hit => (hall id it hit).1

theorem Progress.modifyOther {child : Nat} {f : Child → Child} {n : Nat} (hstep : ∀ it, c.children[child]? = some it →
      Unnoticed it (f it) ∧ ChildStep versions c it (f it) ∧ KeepsRoute it (f it)) :
    Progress versions c { c.modifyChild child f with channels := n } := by
  refine ⟨Advance.modifyChild inv fun it hit => ⟨(hstep it hit).1, (hstep it hit).2.1⟩, fun removing hrouted => ?_⟩
  refine hrouted.children (getElem?_modifyChild c child f) (fun h => h) ?_
  exact @forall_modified c (fun it it' => (it'.aborted = false → it.aborted = false) ∧ KeepsRoute it it') child f
    (fun it => ⟨fun h => h, .refl it⟩) fun it hit => ⟨(hstep it hit).2.1.unmarked, (hstep it hit).2.2⟩

/-- A bridge ends and its cleanup runs. -/
theorem Progress.bridge {child : Nat} (h : c.bridgeStep child = some c') : Progress versions c c' := by
  unfold Connection.bridgeStep at h
  split at h
  · rename_i route version handle aborted bridgeRoute hit
    cases h
    refine modifyOther inv fun it hit' => ⟨.inr ?_, ChildStep.of_ended rfl fun h => h⟩
    obtain rfl := Option.some.inj (hit.symm.trans hit')
    exact ⟨by simp [ChildStage.check], by simp⟩
  · rename_i aborted bridgeRoute hit
    cases h
    refine @modifyOther _ c inv child _ c.channels fun it hit' => ⟨.inl ?_, ChildStep.of_ended rfl fun h => h⟩
    obtain rfl := Option.some.inj (hit.symm.trans hit')
    rfl
  · rename_i aborted route hit
    cases h
    refine @modifyOther _ c inv child _ c.channels fun it hit' =>
      ⟨.inl rfl, ChildStep.of_ended ?_ fun h => h⟩
    obtain rfl := Option.some.inj (hit.symm.trans hit')
    rfl
  · cases h

theorem Progress.refl : Progress versions c c :=
  ⟨⟨rfl, inv, ⟨fun h => h, evolves_identity_of_eq rfl ⟨rfl, rfl, rfl, rfl⟩ rfl,
    evolves_children_of_eq rfl⟩⟩, fun _ h => h⟩

/-- Marking a connection. -/
theorem Progress.revoke : Progress versions c { c with revoked := true } := by
  refine ⟨⟨rfl, ⟨inv.comparing, inv.established, inv.childless, inv.anonymous, ?_, inv.checked,
    fun _ _ _ _ _ => nofun⟩, ⟨nofun, ?_, evolves_children_of_eq rfl⟩⟩, ?_⟩
  · have h := inv.opening
    cases hsession : c.session <;> rw [hsession] at h <;> exact h
  · exact evolves_identity_of_eq rfl ⟨rfl, rfl, rfl, rfl⟩ rfl
  · exact fun removing _ id child route _ _ _ => nofun

/-- A step of `abort_because`; handles are taken from a connection that is marked. -/
theorem Progress.abort {point : AbortPoint}
    (hmarked : point = .takeHandles → c.revoked = true) : Progress versions c (c.abortStep point).1 := by
  cases point with
  | check => exact refl inv
  | swap =>
    show Progress versions c
      (if c.revoked then (c, none) else ({ c with revoked := true }, some AbortPoint.takeHandles)).1
    by_cases h : c.revoked = true
    · rw [if_pos h]
      exact refl inv
    · rw [if_neg h]
      exact revoke inv
  | takeHandles =>
    have hchildren : ∀ id : Nat, (c.abortStep .takeHandles).1.children[id]? =
          c.children[id]?.map fun it => { it with handle := false } := by
      intro id
      exact List.getElem?_map ..
    constructor
    · refine @Advance.children versions c _ (fun _ it => { it with handle := false }) inv hchildren
        rfl rfl ⟨rfl, rfl, rfl, rfl⟩ rfl rfl (.inl rfl) ?_ ?_
      · exact inv.opening.map ⟨rfl, rfl, rfl, rfl⟩ rfl hchildren (fun _ _ _ => .inl rfl)
      · intro id it _
        refine ⟨fun _ _ h => .inl h, fun h => h, fun h => ⟨h, fun _ _ hunmarked => ?_⟩⟩
        exact absurd (hmarked rfl) (Bool.eq_false_iff.mp hunmarked)
    · intro removing hrouted
      exact hrouted.children hchildren (fun h => h) (fun id it _ => ⟨fun h => h, KeepsRoute.refl it⟩)
  | abortHandles children =>
    cases children with
    | nil => exact refl inv
    | cons child rest =>
      refine @modifyOther _ c inv child _ c.channels fun it _ => ⟨.inl rfl, ?_, .refl it⟩
      exact ⟨fun _ _ h => .inl h, nofun, fun h => ⟨h, fun h _ _ => h⟩⟩

/-- `abort_revoked_bridges` takes a bridge off the list … -/
theorem Advance.removeRoute (child : Nat) : Advance versions c (c.removeRoute child) :=
  @Advance.modifyChild _ c inv child _ c.channels fun _ _ =>
    ⟨.inl rfl, fun _ _ h => .inl h, fun h => h, fun h => ⟨h, fun h _ _ => h⟩⟩

/-- … and then aborts it. -/
theorem Progress.abortHandle (child : Nat) : Progress versions c (c.abortHandle child) := by
  refine @modifyOther _ c inv child _ c.channels fun it _ => ?_
  split
  · exact ⟨.inl rfl, ⟨fun _ _ h => .inl h, nofun, fun h => ⟨h, fun _ => nofun⟩⟩, .refl it⟩
  · exact ⟨.inl rfl, .refl it, .refl it⟩

end

end Others

end Nyabase.SshProxy
