import Mathlib.Data.List.Infix

/-!
# Names made of labels

A name is a text with separators, and stands for the list of its labels, the most specific one first.  A name
lies under another when the labels of the other are its last ones.  Read as texts, this is a suffix that begins
with a separator, or the whole name.
-/

namespace Nyabase.Lib

open List

variable {α : Type} [DecidableEq α] {sep : α} {name base other : List α}

/-- The labels determine the name. -/
theorem splitOn_inj (h : name.splitOn sep = other.splitOn sep) : name = other := by
  have hname : [sep].intercalate (name.splitOn sep) = name := intercalate_splitOn sep
  have hother : [sep].intercalate (other.splitOn sep) = other := intercalate_splitOn sep
  rw [← hname, h, hother]

variable {label : List α}

/-- No label has a separator. -/
theorem not_mem_of_mem_splitOn (h : label ∈ name.splitOn sep) : sep ∉ label := by
  induction name generalizing label with
  | nil =>
    rw [splitOn_nil, mem_singleton] at h
    rw [h]
    exact not_mem_nil
  | cons c rest ih =>
    rw [splitOn_cons_eq_if_modifyHead] at h
    split at h
    · rcases mem_cons.mp h with rfl | hrest
      · exact not_mem_nil
      · exact ih hrest
    · rename_i hc
      cases hlabels : rest.splitOn sep with
      | nil => exact absurd hlabels (splitOn_ne_nil sep rest)
      | cons first others =>
        rw [hlabels, modifyHead_cons] at h
        rcases mem_cons.mp h with rfl | hothers
        · have hfirst : sep ∉ first := ih (by rw [hlabels]; exact mem_cons_self)
          rw [mem_cons, not_or]
          exact ⟨fun heq => hc (beq_iff_eq.mpr heq.symm), hfirst⟩
        · exact ih (by rw [hlabels]; exact mem_cons_of_mem first hothers)

omit [DecidableEq α] in
theorem mem_intercalate {x : α} {labels : List (List α)} (h : x ∈ [sep].intercalate labels) :
    x = sep ∨ ∃ label ∈ labels, x ∈ label := by
  induction labels with
  | nil => cases h
  | cons label labels ih =>
    cases labels with
    | nil => exact .inr ⟨label, mem_cons_self, by simpa [intercalate] using h⟩
    | cons second others =>
      have hmem : x ∈ label ++ (sep :: [sep].intercalate (second :: others)) := h
      rcases mem_append.mp hmem with hlabel | hrest
      · exact .inr ⟨label, mem_cons_self, hlabel⟩
      rcases mem_cons.mp hrest with hsep | hothers
      · exact .inl hsep
      · rcases ih hothers with hsep | ⟨other, hother, hx⟩
        · exact .inl hsep
        · exact .inr ⟨other, mem_cons_of_mem label hother, hx⟩

/-- A symbol of a name is a separator or stands in a label. -/
theorem mem_label_of_mem {x : α} (hx : x ∈ name) : x = sep ∨ ∃ label ∈ name.splitOn sep, x ∈ label := by
  have hname : [sep].intercalate (name.splitOn sep) = name := intercalate_splitOn sep
  rw [← hname] at hx
  exact mem_intercalate hx

omit [DecidableEq α] in
theorem infix_intercalate {labels : List (List α)} (h : label ∈ labels) : label <:+: [sep].intercalate labels := by
  induction labels with
  | nil => cases h
  | cons first labels ih =>
    cases labels with
    | nil =>
      rw [mem_singleton.mp h]
      simp [intercalate]
    | cons second others =>
      rcases mem_cons.mp h with rfl | hrest
      · exact (prefix_append label _).isInfix
      · exact ((ih hrest).trans (suffix_append [sep] _).isInfix).trans (suffix_append first _).isInfix

theorem infix_of_mem_splitOn (h : label ∈ name.splitOn sep) : label <:+: name := by
  have hname : [sep].intercalate (name.splitOn sep) = name := intercalate_splitOn sep
  conv_rhs => rw [← hname]
  exact infix_intercalate h

/-- A list of labels above those of a name is a text above it. -/
theorem exists_append_of_splitOn {above : List (List α)} (hne : above ≠ [])
    (h : name.splitOn sep = above ++ base.splitOn sep) :
    ∃ text, name = text ++ sep :: base ∧ text.splitOn sep = above := by
  have hlabels : ∀ label ∈ above, sep ∉ label := by
    intro label hlabel
    have hmem : label ∈ name.splitOn sep := by
      rw [h]
      exact mem_append_left _ hlabel
    exact not_mem_of_mem_splitOn hmem
  have habove : ([sep].intercalate above).splitOn sep = above := splitOn_intercalate sep hlabels hne
  have hsame : name.splitOn sep = ([sep].intercalate above ++ sep :: base).splitOn sep := by
    rw [splitOn_append_cons_self, habove, h]
  exact ⟨[sep].intercalate above, splitOn_inj hsame, habove⟩

/-- The labels of a joined text are those of its parts. -/
theorem splitOn_intercalate_flatMap {parts : List (List α)} (h : parts ≠ []) :
    ([sep].intercalate parts).splitOn sep = parts.flatMap fun part => part.splitOn sep := by
  induction parts with
  | nil => exact absurd rfl h
  | cons part parts ih =>
    cases parts with
    | nil => simp [intercalate]
    | cons second others =>
      show (part ++ sep :: [sep].intercalate (second :: others)).splitOn sep = _
      rw [splitOn_append_cons_self, ih (cons_ne_nil _ _)]
      rfl

/-- `name` is `base` or lies under it. -/
def Under (sep : α) (name base : List α) : Prop := base.splitOn sep <:+ name.splitOn sep

instance : Decidable (Under sep name base) := inferInstanceAs (Decidable (_ <:+ _))

theorem Under.refl (name : List α) : Under sep name name := suffix_refl _

theorem Under.trans (h : Under sep name base) (hbase : Under sep base other) : Under sep name other :=
  List.IsSuffix.trans hbase h

theorem under_iff : Under sep name base ↔ name = base ∨ (sep :: base) <:+ name := by
  constructor
  · rintro ⟨above, habove⟩
    by_cases hempty : above = []
    · subst hempty
      exact .inl (splitOn_inj habove.symm)
    · obtain ⟨text, rfl, -⟩ := exists_append_of_splitOn hempty habove.symm
      exact .inr (suffix_append text (sep :: base))
  · rintro (rfl | ⟨text, rfl⟩)
    · exact Under.refl name
    · rw [Under, splitOn_append_cons_self]
      exact suffix_append _ _

theorem cons_suffix_cons_iff : (sep :: base) <:+ (sep :: name) ↔ Under sep name base := by
  rw [under_iff, suffix_cons_iff, List.cons.injEq, eq_comm (a := name)]
  simp

/-- One label above a name. -/
theorem splitOn_eq_cons_iff :
    name.splitOn sep = label :: base.splitOn sep ↔ name = label ++ sep :: base ∧ sep ∉ label := by
  constructor
  · intro h
    have hne : [label] ≠ [] := cons_ne_nil _ _
    obtain ⟨text, rfl, htext⟩ := exists_append_of_splitOn hne h
    have hmem : sep ∉ label := not_mem_of_mem_splitOn (by rw [htext]; exact mem_cons_self)
    obtain rfl : text = label := splitOn_inj (htext.trans (splitOn_eq_singleton hmem).symm)
    exact ⟨rfl, hmem⟩
  · rintro ⟨rfl, hmem⟩
    rw [splitOn_append_cons_self, splitOn_eq_singleton hmem]
    rfl

end Nyabase.Lib
