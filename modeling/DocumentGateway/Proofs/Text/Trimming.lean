import DocumentGateway.Text.Blank
import Mathlib.Data.List.DropRight
import Mathlib.Data.List.TakeWhile

namespace DocumentGateway

/-!
# Trimmed texts

Trimming takes blank characters off both ends of a text, and nothing else.  What is left neither
begins nor ends with one, and is not changed by trimming it again.  So it is with any other property of
what is taken off.
-/

/-! ## Lists that are trimmed by a property -/

section

variable {α : Type} (p : α → Bool) (xs : List α)

theorem trimBy_eq : trimBy p xs = (xs.dropWhile p).rdropWhile p := rfl

/-- A list is what is left of it between the elements that are taken off. -/
theorem takeWhile_append_trimBy :
    xs.takeWhile p ++ (trimBy p xs ++ (xs.dropWhile p).rtakeWhile p) = xs := by
  rw [trimBy_eq, List.rdropWhile_append_rtakeWhile, List.takeWhile_append_dropWhile]

theorem eq_false_of_mem_head?_trimBy : ∀ x ∈ (trimBy p xs).head?, p x = false := by
  intro x member
  obtain ⟨rest, whole⟩ : ∃ rest, trimBy p xs = x :: rest := List.head?_eq_some_iff.mp member
  have front : trimBy p xs <+: xs.dropWhile p := List.rdropWhile_prefix _ _
  obtain ⟨more, parts⟩ := front
  have first := List.head?_dropWhile_not p xs
  rw [← parts, whole] at first
  exact first

theorem eq_false_of_mem_getLast?_trimBy : ∀ x ∈ (trimBy p xs).getLast?, p x = false := by
  intro x member
  obtain ⟨filled, rfl⟩ := List.mem_getLast?_eq_getLast member
  exact Bool.eq_false_iff.mpr (List.rdropWhile_last_not _ _ filled)

end

/-! ## Texts -/

namespace Text

/-- A text that neither begins nor ends with a blank character. -/
structure IsTrimmed (t : Text) : Prop where
  head : ∀ p ∈ t.head?, p.isBlank = false
  last : ∀ p ∈ t.getLast?, p.isBlank = false

/-- The blank characters that trimming takes off the front of a text. -/
def leadingBlanks (t : Text) : Text :=
  t.takeWhile CodePoint.isBlank

/-- The blank characters that trimming takes off the end of a text. -/
def trailingBlanks (t : Text) : Text :=
  (t.dropWhile CodePoint.isBlank).rtakeWhile CodePoint.isBlank

/-- A text is what is left of it between the blank characters that are taken off. -/
theorem blanks_append_trim (t : Text) : t.leadingBlanks ++ (t.trim ++ t.trailingBlanks) = t :=
  takeWhile_append_trimBy CodePoint.isBlank t

theorem isBlank_of_mem_leadingBlanks {t : Text} {p : CodePoint} (member : p ∈ t.leadingBlanks) :
    p.isBlank = true :=
  List.mem_takeWhile_imp member

theorem isBlank_of_mem_trailingBlanks {t : Text} {p : CodePoint} (member : p ∈ t.trailingBlanks) :
    p.isBlank = true :=
  List.mem_rtakeWhile_imp member

theorem isTrimmed_trim (t : Text) : t.trim.IsTrimmed where
  head := eq_false_of_mem_head?_trimBy CodePoint.isBlank t
  last := eq_false_of_mem_getLast?_trimBy CodePoint.isBlank t

/-- Trimming leaves a text that is trimmed. -/
theorem trim_of_isTrimmed {t : Text} (h : t.IsTrimmed) : t.trim = t := by
  have front : t.dropWhile CodePoint.isBlank = t := by
    cases t with
    | nil => rfl
    | cons p rest => exact List.dropWhile_cons_of_neg (by rw [h.head p rfl]; decide)
  rw [trim, trimBy_eq, front, List.rdropWhile_eq_self_iff]
  intro filled
  rw [h.last _ (List.getLast?_eq_some_getLast filled)]
  decide

/-- What stands between blank characters is what is left, if it is trimmed itself. -/
theorem trim_append {front t back : Text} (leading : ∀ p ∈ front, p.isBlank = true) (filled : t ≠ [])
    (trimmed : t.IsTrimmed) (trailing : ∀ p ∈ back, p.isBlank = true) :
    (front ++ (t ++ back)).trim = t ∧ (front ++ (t ++ back)).leadingBlanks = front := by
  rcases List.exists_cons_of_ne_nil filled with ⟨p, rest, whole⟩
  have visible : ¬ p.isBlank = true := by
    rw [trimmed.head p (by rw [whole]; rfl)]
    decide
  constructor
  · rw [trim, trimBy_eq, List.dropWhile_append_of_pos leading, whole, List.cons_append,
      List.dropWhile_cons_of_neg visible, ← List.cons_append, ← whole]
    induction back using List.reverseRecOn with
    | nil =>
        rw [List.append_nil, List.rdropWhile_eq_self_iff]
        intro filled
        rw [trimmed.last _ (List.getLast?_eq_some_getLast filled)]
        decide
    | append_singleton back p ih =>
        have blank := trailing p (by simp)
        rw [← List.append_assoc, List.rdropWhile_concat_pos _ _ _ blank]
        exact ih fun q member => trailing q (List.mem_append_left _ member)
  · rw [leadingBlanks, List.takeWhile_append_of_pos leading, whole, List.cons_append,
      List.takeWhile_cons_of_neg visible, List.append_nil]

/-- A text with anything in it that is not blank is not trimmed away. -/
theorem trim_ne_nil {t : Text} {p : CodePoint} (member : p ∈ t) (visible : p.isBlank = false) :
    t.trim ≠ [] := by
  intro empty
  rw [← blanks_append_trim t, empty, List.nil_append, List.mem_append] at member
  rcases member with front | back
  · exact absurd (isBlank_of_mem_leadingBlanks front) (by rw [visible]; decide)
  · exact absurd (isBlank_of_mem_trailingBlanks back) (by rw [visible]; decide)

end Text

end DocumentGateway
