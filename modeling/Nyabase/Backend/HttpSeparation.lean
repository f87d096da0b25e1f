import Nyabase.Backend.HttpBindingSteps

/-!
# Pools and bound hostnames stay separate

No pool's domain lies under another's, a bound hostname lies one label under its pool's domain, and no pool's
domain lies under a bound hostname.  In terms of labels the rest follows: a name above a bound hostname is above
its pool's domain or is the hostname itself, and of two names above one name one lies under the other.
-/

namespace Nyabase.Backend

open Common Lib List

/-- A name one label under a base lies under it. -/
theorem OneLabelUnder.under {host base : List Char} (h : OneLabelUnder host base) : Under '.' host base := by
  obtain ⟨label, -, hsplit⟩ := h
  rw [Under, hsplit]
  exact suffix_cons label _

namespace HttpDb

variable {db next : HttpDb}

/-- The pools' domains and the bound hostnames. -/
structure Separate (db : HttpDb) : Prop where
  disjoint : ∀ pool ∈ db.pools, ∀ other ∈ db.pools, pool.id ≠ other.id →
    ¬ Under '.' pool.wildcardDomain.base other.wildcardDomain.base
  placed : ∀ row ∈ db.bindings, ∃ pool ∈ db.pools, pool.id = row.domainPoolId ∧
    OneLabelUnder row.hostname.text pool.wildcardDomain.base
  uncovered : ∀ row ∈ db.bindings, ∀ pool ∈ db.pools, ¬ Under '.' pool.wildcardDomain.base row.hostname.text

variable {pool : DomainPoolRow} {row : BindingRow}

/-- A domain that is disjoint from the pool of a bound hostname is not under the hostname. -/
theorem not_under_of_placed {base : List Char} (hplaced : OneLabelUnder row.hostname.text pool.wildcardDomain.base)
    (hdisjoint : ¬ Under '.' base pool.wildcardDomain.base) : ¬ Under '.' base row.hostname.text :=
  fun h => hdisjoint (h.trans hplaced.under)

/-- Rows with the hostname and the pool of rows that were there. -/
theorem separate_bindings (hseparate : Separate db) {bindings : List BindingRow}
    (hrows : ∀ row ∈ bindings, ∃ old ∈ db.bindings, row.hostname = old.hostname ∧ row.domainPoolId = old.domainPoolId)
    (reservations : List ReservationRow) (history : List HostnameEvent) :
    Separate { db with bindings, reservations, history } := { hseparate with
  placed := by
    intro row hrow
    obtain ⟨old, hold, hhostname, hpool⟩ := hrows row hrow
    rw [hhostname, hpool]
    exact hseparate.placed old hold
  uncovered := by
    intro row hrow
    obtain ⟨old, hold, hhostname, -⟩ := hrows row hrow
    rw [hhostname]
    exact hseparate.uncovered old hold }

theorem separate_addPool (hseparate : Separate db)
    (hdisjoint : ∀ other ∈ db.pools, pool.wildcardDomain.Apart other.wildcardDomain) :
    Separate { db with pools := db.pools ++ [pool] } where
  disjoint := by
    intro first hfirst second hsecond hne
    rcases mem_append.mp hfirst with hfirst | hfirst <;> rcases mem_append.mp hsecond with hsecond | hsecond
    · exact hseparate.disjoint first hfirst second hsecond hne
    · rw [mem_singleton.mp hsecond]
      exact (hdisjoint first hfirst).1
    · rw [mem_singleton.mp hfirst]
      exact (hdisjoint second hsecond).2
    · rw [mem_singleton.mp hfirst, mem_singleton.mp hsecond] at hne
      exact absurd rfl hne
  placed := by
    intro row hrow
    obtain ⟨own, hown, hid, hunder⟩ := hseparate.placed row hrow
    exact ⟨own, mem_append_left _ hown, hid, hunder⟩
  uncovered := by
    intro row hrow other hother
    rcases mem_append.mp hother with hold | hnew
    · exact hseparate.uncovered row hrow other hold
    · rw [mem_singleton.mp hnew]
      obtain ⟨own, hown, -, hunder⟩ := hseparate.placed row hrow
      exact not_under_of_placed hunder (hdisjoint own hown).2

/-- The pools after a patch: the new row, and the rows with other ids. -/
theorem mem_patched {current other : DomainPoolRow}
    (h : other ∈ updateWhere db.pools (fun row => decide (row.id = current.id)) fun _ => pool) :
    other = pool ∨ (other ∈ db.pools ∧ other.id ≠ current.id) := by
  obtain ⟨old, hold, rfl⟩ := mem_updateWhere.mp h
  by_cases hid : old.id = current.id
  · exact .inl (by simp [hid])
  · exact .inr (by simp [hid, hold])

theorem separate_patchPool (hkeys : Keys db) (hseparate : Separate db) {current : DomainPoolRow}
    (hcurrent : current ∈ db.pools) (hid : pool.id = current.id)
    (hdomain : db.DomainFits current pool.wildcardDomain) : Separate { db with
      pools := updateWhere db.pools (fun other => decide (other.id = current.id)) fun _ => pool } := by
  have hapart : ∀ other ∈ db.pools, other.id ≠ current.id → pool.wildcardDomain.Apart other.wildcardDomain := by
    rcases hdomain with hsame | ⟨hapart, -⟩
    · intro other hother hne
      rw [hsame]
      exact ⟨hseparate.disjoint other hother current hcurrent hne,
        hseparate.disjoint current hcurrent other hother hne.symm⟩
    · exact hapart
  have hpool : pool ∈ updateWhere db.pools (fun other => decide (other.id = current.id)) fun _ => pool :=
    mem_updateWhere.mpr ⟨current, hcurrent, if_pos (decide_eq_true rfl)⟩
  constructor
  · intro first hfirst second hsecond hne
    rcases mem_patched hfirst with hnew | ⟨hold, hfirstId⟩ <;>
      rcases mem_patched hsecond with hnewSecond | ⟨holdSecond, hsecondId⟩
    · rw [hnew, hnewSecond] at hne
      exact absurd rfl hne
    · rw [hnew]
      exact (hapart second holdSecond hsecondId).2
    · rw [hnewSecond]
      exact (hapart first hold hfirstId).1
    · exact hseparate.disjoint first hold second holdSecond hne
  · intro row hrow
    obtain ⟨own, hown, hownId, hunder⟩ := hseparate.placed row hrow
    by_cases hpatched : own.id = current.id
    · -- a pool with bindings keeps its domain
      rcases hdomain with hsame | ⟨-, hunused⟩
      · have heq : own = current := eq_of_key_eq hkeys.poolIds hown hcurrent hpatched
        refine ⟨pool, hpool, ?_, ?_⟩
        · rw [hid, ← hpatched, hownId]
        · rw [hsame, ← heq]
          exact hunder
      · exact absurd (hownId.symm.trans hpatched) (hunused row hrow)
    · refine ⟨own, mem_updateWhere_of_not hown (decide_eq_false hpatched), hownId, hunder⟩
  · intro row hrow other hother
    rcases mem_patched hother with rfl | ⟨hold, -⟩
    · obtain ⟨own, hown, hownId, hunder⟩ := hseparate.placed row hrow
      by_cases hpatched : own.id = current.id
      · rcases hdomain with hsame | ⟨-, hunused⟩
        · rw [hsame]
          exact hseparate.uncovered row hrow current hcurrent
        · exact absurd (hownId.symm.trans hpatched) (hunused row hrow)
      · exact not_under_of_placed hunder (hapart own hown hpatched).2
    · exact hseparate.uncovered row hrow other hold

theorem separate_removePool (hseparate : Separate db) {id : Uuid}
    (hunused : ∀ row ∈ db.bindings, row.domainPoolId ≠ id) :
    Separate { db with pools := deleteWhere db.pools fun pool => decide (pool.id = id) } where
  disjoint := by
    intro pool hpool other hother
    exact hseparate.disjoint pool (mem_deleteWhere.mp hpool).1 other (mem_deleteWhere.mp hother).1
  placed := by
    intro row hrow
    obtain ⟨own, hown, hid, hunder⟩ := hseparate.placed row hrow
    have hkept : own.id ≠ id := hid ▸ hunused row hrow
    exact ⟨own, mem_deleteWhere.mpr ⟨hown, decide_eq_false hkept⟩, hid, hunder⟩
  uncovered := by
    intro row hrow pool hpool
    exact hseparate.uncovered row hrow pool (mem_deleteWhere.mp hpool).1

theorem Change.separate (h : Change db next) (hkeys : Keys db) (hseparate : Separate db) : Separate next := by
  cases h with
  | collect clock => exact separate_bindings hseparate (fun row hrow => ⟨row, hrow, rfl, rfl⟩) _ _
  | bind row time hbindable =>
    exact { hseparate with
      placed := forall_mem_append.mpr ⟨hseparate.placed, forall_mem_singleton.mpr hbindable.placed⟩
      uncovered := forall_mem_append.mpr ⟨hseparate.uncovered, forall_mem_singleton.mpr hbindable.covers⟩ }
  | retarget id containerId targetPort htarget =>
    refine separate_bindings hseparate ?_ db.reservations db.history
    intro row hrow
    obtain ⟨old, hold, rfl⟩ := mem_updateWhere.mp hrow
    refine ⟨old, hold, ?_⟩
    split <;> exact ⟨rfl, rfl⟩
  | unbind binding time hbinding =>
    exact separate_bindings hseparate (fun row hrow => ⟨row, (mem_deleteWhere.mp hrow).1, rfl, rfl⟩) _ _
  | addPool pool hid hdisjoint => exact separate_addPool hseparate hdisjoint
  | patchPool current pool hcurrent hid hdomain => exact separate_patchPool hkeys hseparate hcurrent hid hdomain
  | removePool id hunused => exact separate_removePool hseparate hunused
  | around users containers hcontainers => exact ⟨hseparate.disjoint, hseparate.placed, hseparate.uncovered⟩

theorem separate_of_run {labels : List HttpLabel} (hrun : run step initial labels = some db) : Keys db ∧ Separate db :=
  run_keeps Change.separate ⟨by simp [initial], by simp [initial], by simp [initial]⟩ hrun

/-- No name lies under the domains of two pools. -/
theorem Separate.pools_disjoint (h : Separate db) {other : DomainPoolRow} (hpool : pool ∈ db.pools)
    (hother : other ∈ db.pools) (hne : pool.id ≠ other.id) (name : List Char) :
    ¬ (Under '.' name pool.wildcardDomain.base ∧ Under '.' name other.wildcardDomain.base) := by
  rintro ⟨hunder, hunderOther⟩
  rcases suffix_or_suffix_of_suffix hunderOther hunder with hle | hle
  · exact h.disjoint pool hpool other hother hne hle
  · exact h.disjoint other hother pool hpool hne.symm hle

/-- In every state a run reaches, the pools are disjoint subtrees, each bound hostname lies one label under its
own pool and under no other, and is neither another bound hostname nor above one nor above a pool's domain;
and the proxy and the backend agree on which hostnames a pool matches. -/
theorem pools_and_hostnames_separate {labels : List HttpLabel} (hrun : run step initial labels = some db) :
    (∀ pool ∈ db.pools, ∀ other ∈ db.pools, pool.id ≠ other.id → ∀ name,
      ¬ (Under '.' name pool.wildcardDomain.base ∧ Under '.' name other.wildcardDomain.base)) ∧
    (∀ row ∈ db.bindings, ∃ pool ∈ db.pools, pool.id = row.domainPoolId ∧
      OneLabelUnder row.hostname.text pool.wildcardDomain.base ∧
      ∀ other ∈ db.pools, other.id ≠ pool.id → ¬ Under '.' row.hostname.text other.wildcardDomain.base) ∧
    (∀ row ∈ db.bindings, ∀ other ∈ db.bindings, row.id ≠ other.id →
      ¬ Under '.' other.hostname.text row.hostname.text) ∧
    (∀ row ∈ db.bindings, ∀ pool ∈ db.pools, ¬ Under '.' pool.wildcardDomain.base row.hostname.text) ∧
    ∀ (host : Hostname) (domain : WildcardDomain), hostnameMatchesWildcard host.text domain.text =
      hostnameMatchesHttpProxyWildcard host.text domain.text := by
  obtain ⟨hkeys, hseparate⟩ := separate_of_run hrun
  refine ⟨?_, ?_, ?_, hseparate.uncovered, fun host domain => hostnameMatchesWildcard_eq⟩
  · intro pool hpool other hother hne name
    exact hseparate.pools_disjoint hpool hother hne name
  · intro row hrow
    obtain ⟨pool, hpool, hid, hunder⟩ := hseparate.placed row hrow
    refine ⟨pool, hpool, hid, hunder, ?_⟩
    intro other hother hne hbeside
    exact hseparate.pools_disjoint hpool hother hne.symm _ ⟨hunder.under, hbeside⟩
  · intro row hrow other hother hne hunder
    obtain ⟨pool, hpool, -, label, -, hsplit⟩ := hseparate.placed other hother
    rw [Under, hsplit] at hunder
    rcases suffix_cons_iff.mp hunder with heq | hcovers
    · have hsame := Hostname.ext (splitOn_inj (hsplit.trans heq.symm)).symm
      exact hne (congrArg BindingRow.id (eq_of_key_eq hkeys.bindingHostnames hrow hother hsame))
    · exact hseparate.uncovered row hrow pool hpool hcovers

theorem firstBinding_separate : ∃ db, run step initial firstBinding = some db ∧
    db.bindings.map (·.hostname.text) = ["a.example.com".toList] ∧
    db.pools.map (·.wildcardDomain.text) = ["*.example.com".toList, "*.example.org".toList] ∧
    ∀ row ∈ db.bindings, ∀ pool ∈ db.pools, ¬ Under '.' pool.wildcardDomain.base row.hostname.text := by
  have hrun : (run step initial firstBinding).map
      (fun db => (db.bindings.map (·.hostname.text), db.pools.map (·.wildcardDomain.text))) =
      some (["a.example.com".toList], ["*.example.com".toList, "*.example.org".toList]) := by
    decide +kernel
  obtain ⟨db, hdb, hobserved⟩ := Option.map_eq_some_iff.mp hrun
  obtain ⟨hbindings, hpools⟩ := Prod.mk.inj hobserved
  exact ⟨db, hdb, hbindings, hpools, (pools_and_hostnames_separate hdb).2.2.2.1⟩

end HttpDb

end Nyabase.Backend
