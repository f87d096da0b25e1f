import Nyabase.Lib.Labels
import Nyabase.Lib.Numeral
import Nyabase.Backend.DesiredSpec

/-!
# What Incus reads in `limits.cpu`

Incus takes a bare number as a count of CPUs that are not pinned, and everything else as a list of CPUs and
ranges.  Both texts the platform writes, the ranges of `formatCpuSet` and the shorter form of
`canonicalCpu`, list the CPUs they were made from, and normalising a text keeps the CPUs it lists.
-/

namespace Nyabase.Backend

open Common Lib List

/-! ## The reading of Incus -/

inductive CpuLimit where
  | count (cpus : Nat)
  | pinned (cpus : List Nat)
  deriving DecidableEq

/-- One item of a CPU list: a number or a range. -/
def incusCpuItem (item : List Char) : Option (List Nat) :=
  match item.splitOn '-' with
  | [cpu] => if isPlainDigits cpu then some [decimalValue cpu] else none
  | [low, high] =>
    if isPlainDigits low && isPlainDigits high then
      some (range' (decimalValue low) (decimalValue high + 1 - decimalValue low))
    else none
  | _ => none

def incusCpuList (text : List Char) : Option (List Nat) :=
  ((text.splitOn ',').mapM incusCpuItem).map List.flatten

/-- What a value of `limits.cpu` means; a value Incus refuses means nothing. -/
def incusCpuLimit (value : String) : Option CpuLimit :=
  if isPlainDigits value.toList then some (.count (decimalValue value.toList))
  else (incusCpuList value.toList).map .pinned

/-! ## Numbers in texts -/

variable {text : List Char} {c : Char} {cpu : Nat} {cpus : List Nat}

theorem isPlainDigits_iff : isPlainDigits text = true ↔ text ≠ [] ∧ ∀ c ∈ text, isDigit c = true := by
  simp [isPlainDigits]

theorem not_mem_of_plain (h : isPlainDigits text = true) (hc : isDigit c = false) : c ∉ text := by
  intro hmem
  rw [(isPlainDigits_iff.mp h).2 c hmem] at hc
  cases hc

theorem digitOf_of_isDigit (h : isDigit c = true) : digitOf c = c.toNat - '0'.toNat := by
  simp only [isDigit, Bool.and_eq_true, decide_eq_true_eq] at h
  rw [digitOf, if_pos h]
  rfl

theorem isDigitOf_iff_isDigit : isDigitOf 10 c = true ↔ isDigit c = true := by
  simp [isDigitOf_ten, isDigit]

theorem decimalValue_eq_numeralValue (h : ∀ c ∈ text, isDigit c = true) : decimalValue text = numeralValue 10 text := by
  apply foldl_ext
  intro value c hc
  rw [digitOf_of_isDigit (h c hc)]

/-- What is written for a number is plain digits of its value. -/
theorem plain_toString (n : Nat) : isPlainDigits (toString n).toList = true ∧ decimalValue (toString n).toList = n := by
  rw [Nat.toString_eq_ofList_toDigits, String.toList_ofList]
  have hplain : ∀ c ∈ Nat.toDigits 10 n, isDigit c = true := fun c hc =>
    isDigitOf_iff_isDigit.mp (isDigitOf_of_mem_toDigits hc)
  constructor
  · exact isPlainDigits_iff.mpr ⟨Nat.toDigits_ne_nil, hplain⟩
  · rw [decimalValue_eq_numeralValue hplain, numeralValue_toDigits]

theorem dropLeadingZeros_plain (h : isPlainDigits text = true) :
    isPlainDigits (dropLeadingZeros text) = true ∧ decimalValue (dropLeadingZeros text) = decimalValue text := by
  fun_induction dropLeadingZeros text with
  | case1 c rest ih =>
    have hrest : isPlainDigits (c :: rest) = true :=
      isPlainDigits_iff.mpr ⟨by simp, fun x hx => (isPlainDigits_iff.mp h).2 x (mem_cons_of_mem _ hx)⟩
    obtain ⟨hplain, hvalue⟩ := ih hrest
    constructor
    · exact hplain
    · rw [hvalue]
      simp [decimalValue]
  | case2 digits _ => exact ⟨h, rfl⟩

/-! ## Items -/

theorem incusCpuItem_number {cpu : List Char} (h : isPlainDigits cpu = true) :
    incusCpuItem cpu = some [decimalValue cpu] := by
  rw [incusCpuItem, splitOn_eq_singleton (not_mem_of_plain h (by decide))]
  exact if_pos h

theorem splitOn_range {low high : List Char} (hlow : isPlainDigits low = true) (hhigh : isPlainDigits high = true) :
    (low ++ '-' :: high).splitOn '-' = [low, high] := by
  have hjoin := splitOn_intercalate '-' (show ∀ l ∈ [low, high], '-' ∉ l by
    intro l hl
    rcases mem_pair.mp hl with rfl | rfl
    · exact not_mem_of_plain hlow (by decide)
    · exact not_mem_of_plain hhigh (by decide)) (by simp)
  simpa using hjoin

theorem incusCpuItem_range {low high : List Char} (hlow : isPlainDigits low = true)
    (hhigh : isPlainDigits high = true) :
    incusCpuItem (low ++ '-' :: high) =
      some (range' (decimalValue low) (decimalValue high + 1 - decimalValue low)) := by
  rw [incusCpuItem, splitOn_range hlow hhigh]
  simp [hlow, hhigh]

/-- An item is digits, or digits on both sides of a dash. -/
theorem incusCpuItem_eq_some {item : List Char} (h : incusCpuItem item = some cpus) : isPlainDigits item = true ∨
      ∃ low high, item = low ++ '-' :: high ∧ isPlainDigits low = true ∧ isPlainDigits high = true := by
  have hjoin : ['-'].intercalate (item.splitOn '-') = item := intercalate_splitOn '-'
  revert h
  fun_cases incusCpuItem item with
  | case1 cpu hsplit hplain =>
    rw [hsplit] at hjoin
    rw [← hjoin]
    exact fun _ => .inl (by simpa using hplain)
  | case3 low high hsplit hplain =>
    rw [hsplit] at hjoin
    rw [Bool.and_eq_true] at hplain
    exact fun _ => .inr ⟨low, high, by rw [← hjoin]; simp, hplain.1, hplain.2⟩
  | _ => nofun

theorem char_of_incusCpuItem {item : List Char} (h : incusCpuItem item = some cpus) :
    item ≠ [] ∧ ∀ c ∈ item, isDigit c = true ∨ c = '-' := by
  rcases incusCpuItem_eq_some h with hplain | ⟨low, high, rfl, hlow, hhigh⟩
  · rw [isPlainDigits_iff] at hplain
    exact ⟨hplain.1, fun c hc => .inl (hplain.2 c hc)⟩
  rw [isPlainDigits_iff] at hlow hhigh
  constructor
  · simp
  intro c hc
  rcases mem_append.mp hc with hmem | hmem
  · exact .inl (hlow.2 c hmem)
  · rcases mem_cons.mp hmem with rfl | hmem
    · exact .inr rfl
    · exact .inl (hhigh.2 c hmem)

theorem comma_not_mem_item {item : List Char} (h : incusCpuItem item = some cpus) : ',' ∉ item := by
  intro hmem
  rcases (char_of_incusCpuItem h).2 ',' hmem with hdigit | hdash
  · cases hdigit
  · cases hdash

/-- The characters of a text that lists CPUs. -/
def isCpuChar (c : Char) : Bool := isDigit c || c == '-' || c == ','

theorem char_of_incusCpuList (h : incusCpuList text = some cpus) (hc : c ∈ text) : isCpuChar c = true := by
  obtain ⟨lists, hlists, -⟩ := Option.map_eq_some_iff.mp h
  have hsplit : c = ',' ∨ ∃ item ∈ text.splitOn ',', c ∈ item := mem_label_of_mem hc
  rcases hsplit with rfl | ⟨item, hitem, hmem⟩
  · rfl
  obtain ⟨list, hlist⟩ := exists_of_mapM_eq_some hlists hitem
  rcases (char_of_incusCpuItem hlist).2 c hmem with hdigit | rfl
  · simp [isCpuChar, hdigit]
  · rfl

theorem incusCpuList_number (h : isPlainDigits text = true) : incusCpuList text = some [decimalValue text] := by
  rw [incusCpuList, splitOn_eq_singleton (not_mem_of_plain h (by decide))]
  simp [incusCpuItem_number h]

/-! ## Runs -/

def runCpus (run : Nat × Nat) : List Nat := range' run.1 (run.2 + 1 - run.1)

theorem mem_runCpus {run : Nat × Nat} : cpu ∈ runCpus run ↔ run.1 ≤ cpu ∧ cpu ≤ run.2 := by
  rw [runCpus, mem_range'_1]
  omega

/-- The runs of a list hold its members. -/
theorem mem_cpuRuns {start previous : Nat} {rest : List Nat} (h : start ≤ previous) :
    cpu ∈ ((cpuRuns start previous rest).map runCpus).flatten ↔ (start ≤ cpu ∧ cpu ≤ previous) ∨ cpu ∈ rest := by
  fun_induction cpuRuns start previous rest with
  | case1 => simp [mem_runCpus]
  | case2 start previous next rest hnext ih =>
    rw [beq_iff_eq] at hnext
    rw [ih (by omega), mem_cons]
    grind
  | case3 start previous next rest hnext ih =>
    rw [map_cons, flatten_cons, mem_append, ih (Nat.le_refl next), mem_runCpus, mem_cons]
    grind

theorem cpuRuns_ne_nil (start previous : Nat) (rest : List Nat) : cpuRuns start previous rest ≠ [] := by
  induction rest generalizing start previous with
  | nil => simp [cpuRuns]
  | cons next rest ih =>
    unfold cpuRuns
    split
    · exact ih start next
    · simp

/-- A way to write runs that Incus reads back. -/
structure ReadsBack (render : Nat × Nat → String) : Prop where
  item : ∀ run, incusCpuItem (render run).toList = some (runCpus run)

theorem incusCpuList_runs {render : Nat × Nat → String} (hrender : ReadsBack render)
    {runs : List (Nat × Nat)} (hruns : runs ≠ []) :
    incusCpuList (",".intercalate (runs.map render)).toList = some (runs.map runCpus).flatten := by
  have hcomma : ∀ item ∈ (runs.map render).map String.toList, ',' ∉ item := by
    intro item hitem hmem
    obtain ⟨text, htext, rfl⟩ := mem_map.mp hitem
    obtain ⟨run, -, rfl⟩ := mem_map.mp htext
    exact comma_not_mem_item (hrender.item run) hmem
  have hitems : ((runs.map render).map String.toList).mapM incusCpuItem = some (runs.map runCpus) := by
    rw [map_map, mapM_eq_some_iff, forall₂_map_left_iff, forall₂_map_right_iff, forall₂_same]
    exact fun run _ => hrender.item run
  rw [incusCpuList, String.toList_intercalate, show ",".toList = [','] from rfl,
    splitOn_intercalate ',' hcomma (by simpa using hruns), hitems]
  rfl

theorem toList_range (low high : Nat) :
    (s!"{low}-{high}").toList = (toString low).toList ++ '-' :: (toString high).toList := by
  simp
  rfl

theorem readsBack_range : ReadsBack fun run => s!"{run.1}-{run.2}" where
  item := by
    intro run
    obtain ⟨hlow, hlowValue⟩ := plain_toString run.1
    obtain ⟨hhigh, hhighValue⟩ := plain_toString run.2
    rw [toList_range, incusCpuItem_range hlow hhigh, hlowValue, hhighValue, runCpus]

theorem readsBack_cpuRunText : ReadsBack cpuRunText where
  item := by
    intro run
    unfold cpuRunText
    split
    · next hsingle =>
      obtain ⟨hplain, hvalue⟩ := plain_toString run.1
      rw [incusCpuItem_number hplain, hvalue, runCpus, ← eq_of_beq hsingle, Nat.add_sub_cancel_left]
      rfl
    · exact readsBack_range.item run

/-! ## The texts of the platform -/

theorem mem_sortedCpus : cpu ∈ sortedCpus cpus ↔ cpu ∈ cpus := by
  simp [sortedCpus]

/-- A text of the runs of a sorted set lists the set. -/
theorem incusCpuList_sorted {render : Nat × Nat → String} (hrender : ReadsBack render) {rest : List Nat} {start : Nat}
    (hsorted : sortedCpus cpus = start :: rest) :
    ∃ listed, incusCpuList (",".intercalate ((cpuRuns start start rest).map render)).toList = some listed ∧
      ∀ cpu, cpu ∈ listed ↔ cpu ∈ cpus := by
  refine ⟨_, incusCpuList_runs hrender (cpuRuns_ne_nil start start rest), ?_⟩
  intro cpu
  rw [mem_cpuRuns (Nat.le_refl start), ← (mem_sortedCpus : cpu ∈ sortedCpus cpus ↔ _), hsorted, mem_cons,
    ← Nat.eq_iff_le_and_ge, eq_comm]

theorem incusCpuList_formatCpuSet {text : String} (h : formatCpuSet cpus = .ok text) :
    ∃ listed, incusCpuList text.toList = some listed ∧ ∀ cpu, cpu ∈ listed ↔ cpu ∈ cpus := by
  unfold formatCpuSet at h
  split at h
  · cases h
  next start rest hsorted =>
  split at h
  · cases h
  · obtain rfl := Except.ok.inj h
    exact incusCpuList_sorted readsBack_range hsorted

/-! ## Normalising -/

/-- What the platform reads in an item, Incus reads in it. -/
theorem incusCpuItem_of_cpuToken (token : List Char) (cpus : List Nat) (h : cpuToken token = some cpus) :
    incusCpuItem token = some cpus := by
  obtain ⟨⟨start, stop⟩, hbounds, h⟩ := Option.bind_eq_some_iff.mp h
  simp only [Option.ite_none_right_eq_some, Bool.and_eq_true, Option.some.injEq] at h
  obtain ⟨⟨⟨⟨⟨⟨⟨⟨hstart, hstartDigits⟩, hstop⟩, hstopDigits⟩, -⟩, -⟩, -⟩, -⟩, rfl⟩ := h
  have hstartPlain : isPlainDigits start = true := Bool.and_eq_true_iff.mpr ⟨hstart, hstartDigits⟩
  have hstopPlain : isPlainDigits stop = true := Bool.and_eq_true_iff.mpr ⟨hstop, hstopDigits⟩
  split at hbounds
  · next cpu hsplit =>
    cases hbounds
    rw [incusCpuItem, hsplit]
    simp only [hstartPlain, if_true, Nat.add_sub_cancel_left]
    rfl
  · next low high hsplit =>
    cases hbounds
    rw [incusCpuItem, hsplit]
    simp [hstartPlain, hstopPlain]
  · cases hbounds

theorem isCpuChar_plain (h : isCpuChar c = true) : isJsWhitespace c = false ∧ c.toLower = c ∧ c ≠ '.' ∧ c ≠ '%' := by
  simp only [isCpuChar, Bool.or_eq_true, beq_iff_eq] at h
  rcases h with (hdigit | rfl) | rfl
  · have h10 := isDigitOf_iff_isDigit.mpr hdigit
    rw [eq_digitChar_of_isDigitOf h10]
    revert h10
    rw [isDigitOf, decide_eq_true_eq]
    generalize digitOf c = digit
    revert digit
    decide
  · decide
  · decide

theorem canonicalDecimal_of_not_dot (h : '.' ∉ text) :
    canonicalDecimal text = if isPlainDigits text then some (dropLeadingZeros text) else none := by
  rw [canonicalDecimal, splitOn_eq_singleton h]
  rfl

/-- The value of `limits.cpu` that is compared. -/
def normalizedCpu (value : String) : String := (canonicalCpu value).getD (String.ofList (trim value))

/-- What `canonicalCpu` makes of the items of a list. -/
def canonicalCpuItems (items : List (List Char)) : Option String :=
  (items.mapM cpuToken).bind fun cpus =>
    match sortedCpus cpus.flatten with
    | [] => none
    | start :: rest => some (",".intercalate ((cpuRuns start start rest).map cpuRunText))

/-- On a text that lists CPUs only two of the forms of `canonicalCpu` are left. -/
theorem canonicalCpu_of_listed {value : String} (h : incusCpuList value.toList = some cpus) :
    trim value = value.toList ∧ canonicalCpu value =
        if isPlainDigits value.toList then some (String.ofList (dropLeadingZeros value.toList))
        else canonicalCpuItems (value.toList.splitOn ',') := by
  have hchar : ∀ c ∈ value.toList, isJsWhitespace c = false ∧ c.toLower = c ∧ c ≠ '.' ∧ c ≠ '%' :=
    fun c hc => isCpuChar_plain (char_of_incusCpuList h hc)
  have htrim : trim value = value.toList := trimBy_eq_self fun c hc => (hchar c hc).1
  have hlower : lower value.toList = value.toList := lower_eq_self fun c hc => (hchar c hc).2.1
  have hdot : '.' ∉ value.toList := fun hmem => (hchar '.' hmem).2.2.1 rfl
  have hpercent : (value.toList.getLast? == some '%') = false := by
    rw [beq_eq_false_iff_ne]
    intro hlast
    exact (hchar '%' (List.mem_of_getLast? hlast)).2.2.2 rfl
  have hitems : (value.toList.splitOn ',').filter (fun token => !token.isEmpty) = value.toList.splitOn ',' := by
    rw [filter_eq_self]
    intro item hitem
    obtain ⟨lists, hlists, -⟩ := Option.map_eq_some_iff.mp h
    obtain ⟨list, hlist⟩ := exists_of_mapM_eq_some hlists hitem
    simpa using (char_of_incusCpuItem hlist).1
  refine ⟨htrim, ?_⟩
  rw [canonicalCpu, htrim, hlower, canonicalDecimal_of_not_dot hdot]
  by_cases hplain : isPlainDigits value.toList = true
  · simp [hplain]
  · simp only [hplain, if_false, hpercent, hitems, List.isEmpty_iff, splitOn_ne_nil]
    rfl

/-- Normalising keeps the CPUs a text lists. -/
theorem incusCpuList_normalizedCpu {value : String} (h : incusCpuList value.toList = some cpus) :
    ∃ listed, incusCpuList (normalizedCpu value).toList = some listed ∧ ∀ cpu, cpu ∈ listed ↔ cpu ∈ cpus := by
  obtain ⟨htrim, hcanonical⟩ := canonicalCpu_of_listed h
  rw [normalizedCpu, hcanonical, htrim, String.ofList_toList]
  split
  · next hplain =>
    obtain ⟨hdropped, hvalue⟩ := dropLeadingZeros_plain hplain
    obtain rfl := Option.some.inj ((incusCpuList_number hplain).symm.trans h)
    refine ⟨_, by rw [Option.getD_some, String.toList_ofList, incusCpuList_number hdropped, hvalue], ?_⟩
    exact fun cpu => Iff.rfl
  · -- An item the platform does not take leaves the text as it is.
    cases hitems : canonicalCpuItems (value.toList.splitOn ',') with
    | none => exact ⟨cpus, h, fun cpu => Iff.rfl⟩
    | some text =>
      obtain ⟨lists, hlists, htext⟩ := Option.bind_eq_some_iff.mp hitems
      have hread : incusCpuList value.toList = some lists.flatten := by
        rw [incusCpuList, mapM_eq_some_of_imp incusCpuItem_of_cpuToken hlists]
        rfl
      obtain rfl := Option.some.inj (hread.symm.trans h)
      split at htext
      · cases htext
      · next start rest hsorted =>
        cases htext
        exact incusCpuList_sorted readsBack_cpuRunText hsorted

theorem dropLeadingZeros_toString (n : Nat) : dropLeadingZeros (toString n).toList = (toString n).toList := by
  rw [Nat.toString_eq_ofList_toDigits, String.toList_ofList]
  have hhead : (Nat.toDigits 10 n).head? = some '0' → _ := length_toDigits_of_head
  generalize Nat.toDigits 10 n = digits at hhead ⊢
  fun_cases dropLeadingZeros digits with
  | case1 c rest => cases hhead rfl
  | case2 => rfl

theorem normalizedCpu_number (n : Nat) : normalizedCpu (toString n) = toString n := by
  have hplain := (plain_toString n).1
  rw [normalizedCpu, (canonicalCpu_of_listed (incusCpuList_number hplain)).2, if_pos hplain, dropLeadingZeros_toString,
    Option.getD_some, String.ofList_toList]

/-- A range of one CPU has the normal form of the number. -/
theorem normalizedCpu_single {n : Nat} (hsafe : n ≤ maxSafeInteger) : normalizedCpu s!"{n}-{n}" = toString n := by
  obtain ⟨hplain, hvalue⟩ := plain_toString n
  have hitem := readsBack_range.item (n, n)
  have hcomma : ',' ∉ (s!"{n}-{n}").toList := comma_not_mem_item hitem
  have hlist : incusCpuList (s!"{n}-{n}").toList = some (runCpus (n, n)) := by
    rw [incusCpuList, splitOn_eq_singleton hcomma, mapM_cons, hitem]
    simp
  have hrange : isPlainDigits (s!"{n}-{n}").toList = false := by
    rw [toList_range]
    simp [isPlainDigits, isDigit]
  have htoken : cpuToken (s!"{n}-{n}").toList = some [n] := by
    obtain ⟨hne, hdigits⟩ := isPlainDigits_iff.mp hplain
    rw [toList_range, cpuToken, splitOn_range hplain hplain]
    generalize (toString n).toList = digits at hne hdigits hvalue
    simpa [hne, hvalue, hsafe] using hdigits
  rw [normalizedCpu, (canonicalCpu_of_listed hlist).2, if_neg (Bool.eq_false_iff.mp hrange),
    splitOn_eq_singleton hcomma, canonicalCpuItems, mapM_cons, htoken]
  simp [sortedCpus, cpuRuns, cpuRunText]

/-- A set without two different CPUs is written as the range of one. -/
theorem formatCpuSet_single {text : String} (h : formatCpuSet cpus = .ok text)
    (hone : ∀ first ∈ cpus, ∀ second ∈ cpus, first = second) : ∃ n ≤ maxSafeInteger, text = s!"{n}-{n}" := by
  unfold formatCpuSet at h
  split at h
  · cases h
  next start rest hsorted =>
  split at h
  · cases h
  next hsafe =>
  obtain rfl := Except.ok.inj h
  have hnodup : (sortedCpus cpus).Nodup := by
    rw [sortedCpus, (perm_insertionSort _ _).nodup_iff]
    exact nodup_dedup cpus
  have hall : ∀ cpu ∈ sortedCpus cpus, cpu ∈ cpus := fun cpu => mem_sortedCpus.mp
  rw [hsorted] at hnodup hall
  obtain rfl : rest = [] := by
    rw [eq_nil_iff_forall_not_mem]
    intro cpu hcpu
    refine (nodup_cons.mp hnodup).1 ?_
    rwa [hone start (hall start mem_cons_self) cpu (hall cpu (mem_cons_of_mem _ hcpu))]
  simp only [any_cons, any_nil, Bool.or_false, decide_eq_true_eq, Nat.not_lt] at hsafe
  exact ⟨start, hsafe, by simp [cpuRuns]⟩

end Nyabase.Backend
