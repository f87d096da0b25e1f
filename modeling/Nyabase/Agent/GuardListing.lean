import Nyabase.Agent.Ipv6Guard
import Nyabase.Lib.Labels

/-!
# What an accepted guard table drops: `packages/agent/src/ipv6-guard.ts`

A listed table is a list of base chains with their rules, and nft lets a frame through a hook unless a chain of
that hook drops it.  `guardTableIsComplete` counts lines wherever they stand, so what it accepts need not drop
anything at a hook; it does exactly if a chain of the hook has a line that drops the frame above every rule that
accepts it.
-/

namespace Nyabase.Agent

open Lib Common List

inductive GuardHook where
  | forward | input | output
  deriving DecidableEq

/-- A frame at a hook, as far as the guard looks at it. -/
structure BridgeFrame where
  /-- `iifname` is that of a guest NIC. -/
  fromGuest : Bool
  /-- `oifname` is that of a guest NIC. -/
  toGuest : Bool
  /-- The ether type is `ip6`, `8021q` or `8021ad`. -/
  ip6OrTagged : Bool

/-- A rule of a listed chain, with its line and its terminal verdict, if it has one for the frame. -/
structure ListedRule where
  text : String
  drops : BridgeFrame → Option Bool

def guestDrop (key : String) (side : BridgeFrame → Bool) : ListedRule where
  text := key ++ " " ++ guestsText ++ " ether type \x7b ip6, 8021q, 8021ad \x7d drop"
  drops frame := if side frame && frame.ip6OrTagged then some true else none

def iifnameDrop : ListedRule := guestDrop "iifname" BridgeFrame.fromGuest

def oifnameDrop : ListedRule := guestDrop "oifname" BridgeFrame.toGuest

/-- The base chains in their order, all of policy accept. -/
abbrev GuardTable := List (GuardHook × List ListedRule)

namespace GuardTable

variable (table : GuardTable)

/-- The first rule with a verdict decides in a chain, and a drop of any chain is final. -/
def drops (hook : GuardHook) (frame : BridgeFrame) : Bool :=
  table.any fun chain => chain.1 = hook && (chain.2.findSome? (·.drops frame)).getD false

def hookText : GuardHook → String
  | .forward => "forward"
  | .input => "input"
  | .output => "output"

def chainLines (chain : GuardHook × List ListedRule) : List String :=
  ["\tchain " ++ hookText chain.1 ++ " \x7b",
    "\t\ttype filter hook " ++ hookText chain.1 ++ " priority filter; policy accept;"] ++
    chain.2.map (fun rule => "\t\t" ++ rule.text) ++ ["\t\x7d"]

def lines : List String := ["table bridge nyabase_guard \x7b"] ++ table.flatMap chainLines ++ ["\x7d"]

/-- `nft list table`. -/
def listing : NftListing := table.lines.flatMap fun line => line.toList ++ ['\n']

/-- The table that `renderIpv6GuardRuleset` makes. -/
def rendered : GuardTable :=
  [(.forward, [iifnameDrop, oifnameDrop]), (.input, [iifnameDrop]), (.output, [oifnameDrop])]

/-- Every IPv6 or VLAN-tagged frame from or to a guest NIC is dropped at its hooks. -/
def Guards : Prop := ∀ frame : BridgeFrame, frame.ip6OrTagged = true →
  (frame.fromGuest = true → table.drops .forward frame = true ∧ table.drops .input frame = true) ∧
  (frame.toGuest = true → table.drops .forward frame = true ∧ table.drops .output frame = true)

variable {table}

/-- The lines that `renderIpv6GuardRuleset` writes. -/
def guardLines : Set ListedRule := {iifnameDrop, oifnameDrop}

variable (table) in
/-- A chain of the hook has one of these lines, which drops the frame, above every rule that accepts it. -/
def Stands (lines : Set ListedRule) (hook : GuardHook) (frame : BridgeFrame) : Prop :=
  ∃ above line below, (hook, above ++ line :: below) ∈ table ∧ line ∈ lines ∧ line.drops frame = some true ∧
    ∀ rule ∈ above, rule.drops frame ≠ some false

variable (table) in
/-- Each hook has such a line for every frame that is to be dropped there. -/
def InOrder (lines : Set ListedRule) : Prop := ∀ frame : BridgeFrame, frame.ip6OrTagged = true →
  (frame.fromGuest = true → table.Stands lines .forward frame ∧ table.Stands lines .input frame) ∧
  (frame.toGuest = true → table.Stands lines .forward frame ∧ table.Stands lines .output frame)

variable {lines : Set ListedRule} (hook : GuardHook) (frame : BridgeFrame)

/-- A chain drops what a rule above all those that accept it drops. -/
theorem findSome?_drops {rules : List ListedRule} : (rules.findSome? (·.drops frame)).getD false = true ↔
    ∃ above line below, rules = above ++ line :: below ∧ line.drops frame = some true ∧
      ∀ rule ∈ above, rule.drops frame ≠ some false := by
  rw [Option.getD_eq_iff, or_iff_left (by simp)]
  constructor
  · intro h
    obtain ⟨above, line, below, hrules, hline, habove⟩ := findSome?_eq_some_iff.mp h
    refine ⟨above, line, below, hrules, hline, fun rule hrule => ?_⟩
    simp [habove rule hrule]
  · rintro ⟨above, line, below, rfl, hline, habove⟩
    rw [findSome?_append]
    cases hfirst : above.findSome? (·.drops frame) with
    | none => rw [Option.none_or, findSome?_cons, hline]
    | some verdict =>
      obtain ⟨rule, hrule, hverdict⟩ := exists_of_findSome?_eq_some hfirst
      have haccepts := habove rule hrule
      cases verdict with
      | false => exact absurd hverdict haccepts
      | true => rfl

theorem drops_iff : table.drops hook frame = true ↔ table.Stands Set.univ hook frame := by
  simp only [drops, any_eq_true, Bool.and_eq_true, decide_eq_true_iff, findSome?_drops, Stands, Set.mem_univ, true_and]
  constructor
  · rintro ⟨⟨_, rules⟩, hchain, rfl, above, line, below, rfl, hline, habove⟩
    exact ⟨above, line, below, hchain, hline, habove⟩
  · rintro ⟨above, line, below, hchain, hline, habove⟩
    exact ⟨_, hchain, rfl, above, line, below, rfl, hline, habove⟩

theorem guards_iff : table.Guards ↔ table.InOrder Set.univ := by
  simp only [Guards, InOrder, drops_iff]

/-- Where no rule but those lines drops a frame, they are the ones that have to stand so. -/
theorem stands_iff (honly : ∀ chain ∈ table, ∀ rule ∈ chain.2, rule ∉ lines → ∀ frame, rule.drops frame ≠ some true) :
    table.Stands Set.univ hook frame ↔ table.Stands lines hook frame := by
  constructor
  · rintro ⟨above, line, below, hchain, -, hline, habove⟩
    refine ⟨above, line, below, hchain, ?_, hline, habove⟩
    by_contra hother
    exact honly _ hchain line (by simp) hother frame hline
  · rintro ⟨above, line, below, hchain, -, hline, habove⟩
    exact ⟨above, line, below, hchain, Set.mem_univ line, hline, habove⟩

theorem inOrder_iff (honly : ∀ chain ∈ table, ∀ rule ∈ chain.2, rule ∉ lines → ∀ frame, rule.drops frame ≠ some true) :
    table.InOrder Set.univ ↔ table.InOrder lines := by
  simp only [InOrder, stands_iff _ _ honly]

end GuardTable

namespace Ipv6Guard

variable {called last : Ipv6Guard} {table : Option NftListing} {before after : List GuardLabel}

/-- What a call gets is the answer of a check that started since. -/
theorem answered_since (hcalled : run step (fresh table) before = some called)
    (hlast : run step called.ensure after = some last) {present : Bool}
    (hresult : last.result called.ticket = some present) :
    ∃ id, Since last.log called.log.length (.ended id present) ∧ Since last.log called.log.length (.started id) := by
  have hwf : Wf called := run_invariant (fun _ _ _ => Wf.step) (wf_fresh table) hcalled
  have hstart : Wf called.ensure ∧ called.log.length ≤ called.ensure.log.length ∧
      Fresh called.ensure called.log.length called.ticket :=
    ⟨hwf.ensure, log_suffix_ensure.length_le, fresh_ticket hwf (le_refl _)⟩
  have hend : Wf last ∧ called.log.length ≤ last.log.length ∧ Fresh last called.log.length called.ticket := by
    apply @run_invariant _ _ _ (fun guard => Wf guard ∧ called.log.length ≤ guard.log.length ∧
      Fresh guard called.log.length called.ticket) ?_ _ _ _ hstart hlast
    rintro guard label next ⟨hwf, hmark, hfresh⟩ hstep
    exact ⟨hwf.step hstep, hmark.trans (log_suffix_step hstep).length_le, hfresh.step hwf hmark hstep⟩
  exact hend.2.2.answer hend.1 hresult

end Ipv6Guard

/-- A table to which a counter was added still guards. -/
example : GuardTable.Guards [(.forward, [⟨"counter packets 0 bytes 0", fun _ => none⟩, iifnameDrop, oifnameDrop]),
    (.input, [iifnameDrop]), (.output, [oifnameDrop])] := by
  rintro ⟨fromGuest, toGuest, ip6OrTagged⟩ ⟨⟩
  cases fromGuest <;> cases toGuest <;> decide

/-- The four rules in one chain. -/
def crowdedTable : GuardTable :=
  [(.forward, [iifnameDrop, oifnameDrop, iifnameDrop, oifnameDrop]), (.input, []), (.output, [])]

end Nyabase.Agent
