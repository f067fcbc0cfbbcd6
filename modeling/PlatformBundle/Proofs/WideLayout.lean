import PlatformBundle.Json.Printer
import PlatformBundle.Text.Template
/-!
The line breaks of written JSON. In the wide layout every line break stands between two tokens:
texts have theirs escaped, and no number or word has one. So setting in the lines of a written
value gives the value as it is written further in, and changes no text inside of it.
-/

namespace PlatformBundle

namespace Text

variable {margin : Nat}

theorem setIn_append (margin : Nat) (first second : List Char) :
    setIn margin (first ++ second) = setIn margin first ++ setIn margin second :=
  List.flatMap_append

theorem setIn_cons {c : Char} (plain : c ≠ '\n') (rest : List Char) :
    setIn margin (c :: rest) = c :: setIn margin rest := by
  rw [setIn, List.flatMap_cons, if_neg plain]
  rfl

theorem setIn_of_not_mem {text : List Char} (plain : '\n' ∉ text) : setIn margin text = text := by
  induction text with
  | nil => rfl
  | cons c rest ih =>
      obtain ⟨other, plain⟩ := not_or.mp (fun there => plain (List.mem_cons.mpr there))
      rw [setIn_cons (fun same => other same.symm), ih plain]

end Text

namespace Json

open Text

section Tokens

theorem newline_not_mem_escapeChar (c : Char) : '\n' ∉ escapeChar c := by
  have hex (n : Nat) : n < 16 → lowerHex n ≠ '\n' := by
    revert n
    decide
  unfold escapeChar
  repeat' split
  all_goals try simp
  · exact ⟨(hex _ (by omega)).symm, (hex _ (by omega)).symm⟩
  · exact Ne.symm ‹_›

theorem newline_not_mem_quoted (text : String) : '\n' ∉ quoted text := by
  simp only [quoted, List.mem_cons, List.mem_append, List.mem_flatMap, List.not_mem_nil,
    or_false, not_or, not_exists, not_and]
  exact ⟨by decide, fun c _ => newline_not_mem_escapeChar c, by decide⟩

theorem newline_not_mem_boolText (value : Bool) : '\n' ∉ boolText value := by
  cases value <;> decide

theorem newline_not_mem_toDigits (n : Nat) : '\n' ∉ Nat.toDigits 10 n := by
  intro inside
  have digit := Nat.isDigit_of_mem_toDigits (by decide) (by decide) inside
  cases digit

theorem newline_not_mem_digitChars (digits : List Nat) : '\n' ∉ digitChars digits := by
  intro inside
  obtain ⟨d, -, same⟩ := List.mem_map.mp inside
  by_cases valid : (48 + d).isValidChar
  · rw [Char.ofNat, dif_pos valid] at same
    have low : 48 + d = 10 := congrArg Char.toNat same
    omega
  · rw [Char.ofNat, dif_neg valid] at same
    cases same

theorem newline_not_mem_decimalText (value : Decimal.Digits) : '\n' ∉ decimalText value := by
  have digits := newline_not_mem_digitChars value.digits
  have zeros (n : Nat) : '\n' ∉ List.replicate n '0' := fun inside =>
    absurd (List.eq_of_mem_replicate inside) (by decide)
  have front (n : Nat) : '\n' ∉ (digitChars value.digits).take n := fun inside =>
    digits (List.mem_of_mem_take inside)
  have back (n : Nat) : '\n' ∉ (digitChars value.digits).drop n := fun inside =>
    digits (List.mem_of_mem_drop inside)
  have exponent := newline_not_mem_toDigits value.exponent.natAbs
  simp only [decimalText]
  repeat' split
  all_goals simp only [List.mem_append, List.mem_cons, List.not_mem_nil, digits, zeros, front,
    back, exponent, or_false, false_or]
  all_goals decide

theorem newline_not_mem_numberText (value : JsonNumber) : '\n' ∉ numberText value := by
  cases value with
  | integer value =>
      have digits := newline_not_mem_toDigits value.natAbs
      rw [numberText, integerText]
      split <;> simp [digits]
  | double bits =>
      have digits := newline_not_mem_decimalText (Decimal.shortest bits)
      rw [numberText, doubleText]
      repeat' split
      all_goals simp [digits]

end Tokens

section Lines

variable {margin : Nat}

theorem setIn_lineBreak (margin indent : Nat) :
    setIn margin (lineBreak indent) = lineBreak (indent + margin) := by
  have blanks : setIn margin (List.replicate indent ' ') = List.replicate indent ' ' :=
    setIn_of_not_mem (fun inside => absurd (List.eq_of_mem_replicate inside) (by decide))
  have line : setIn margin (lineBreak indent) =
      ('\n' :: List.replicate margin ' ') ++ setIn margin (List.replicate indent ' ') := by
    rw [lineBreak, setIn, List.flatMap_cons, if_pos rfl]
    rfl
  rw [line, blanks, lineBreak, List.cons_append, List.replicate_append_replicate, Nat.add_comm]

mutual

/-- Setting in the lines of a written value is writing it further in. -/
theorem setIn_wide (margin indent : Nat) :
    (value : Json) → setIn margin (value.wide indent) = value.wide (indent + margin)
  | .null => rfl
  | .bool value => setIn_of_not_mem (newline_not_mem_boolText value)
  | .number value => setIn_of_not_mem (newline_not_mem_numberText value)
  | .string text => setIn_of_not_mem (newline_not_mem_quoted text)
  | .array [] => rfl
  | .array (item :: others) => by
      rw [wide, wide, setIn_cons (by decide), setIn_append, setIn_append, setIn_append,
        setIn_lineBreak, setIn_lineBreak, setIn_wideItems margin (indent + 2) (item :: others),
        Nat.add_right_comm]
      rfl
  | .object [] => rfl
  | .object (member :: others) => by
      rw [wide, wide, setIn_cons (by decide), setIn_append, setIn_append, setIn_append,
        setIn_lineBreak, setIn_lineBreak, setIn_wideMembers margin (indent + 2) (member :: others),
        Nat.add_right_comm]
      rfl

theorem setIn_wideItems (margin indent : Nat) :
    (items : List Json) → setIn margin (wideItems indent items) = wideItems (indent + margin) items
  | [] => rfl
  | [item] => setIn_wide margin indent item
  | item :: next :: others => by
      rw [wideItems, wideItems, setIn_append, setIn_wide margin indent item,
        setIn_cons (by decide), setIn_append, setIn_lineBreak,
        setIn_wideItems margin indent (next :: others)]

theorem setIn_wideMembers (margin indent : Nat) :
    (members : List (String × Json)) →
      setIn margin (wideMembers indent members) = wideMembers (indent + margin) members
  | [] => rfl
  | [(key, item)] => by
      rw [wideMembers, wideMembers, setIn_append, setIn_of_not_mem (newline_not_mem_quoted key),
        setIn_cons (by decide), setIn_cons (by decide), setIn_wide margin indent item]
  | (key, item) :: next :: others => by
      rw [wideMembers, wideMembers, setIn_append, setIn_of_not_mem (newline_not_mem_quoted key),
        setIn_cons (by decide), setIn_cons (by decide), setIn_append,
        setIn_wide margin indent item, setIn_cons (by decide), setIn_append, setIn_lineBreak,
        setIn_wideMembers margin indent (next :: others)]

end

end Lines

end Json

end PlatformBundle
