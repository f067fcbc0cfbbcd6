/-!
Cutting text at a separator and looking for one text inside another, over lists of characters.
Cutting loses nothing: gluing the pieces back with the same separator gives the text again, and no
piece holds the separator. A text occurs in another exactly when it is one of its infixes.
-/

namespace PlatformBundle.Text

def pieces (sep : Char) : List Char → List (List Char)
  | [] => [[]]
  | c :: rest =>
      if c = sep then [] :: pieces sep rest
      else match pieces sep rest with
        | [] => [[c]]
        | first :: others => (c :: first) :: others

def glue (sep : Char) : List (List Char) → List Char
  | [] => []
  | [piece] => piece
  | piece :: next :: others => piece ++ sep :: glue sep (next :: others)

theorem pieces_ne_nil (sep : Char) (text : List Char) : pieces sep text ≠ [] := by
  cases text with
  | nil => simp [pieces]
  | cons c rest =>
      unfold pieces
      split
      · simp
      · split <;> simp

theorem glue_pieces (sep : Char) (text : List Char) : glue sep (pieces sep text) = text := by
  induction text with
  | nil => rfl
  | cons c rest ih =>
      unfold pieces
      split
      · rename_i same
        subst same
        cases cut : pieces c rest with
        | nil => exact absurd cut (pieces_ne_nil c rest)
        | cons first others => rw [cut] at ih; simp [glue, ih]
      · cases cut : pieces sep rest with
        | nil => exact absurd cut (pieces_ne_nil sep rest)
        | cons first others =>
            rw [cut] at ih
            cases others with
            | nil => simpa [glue] using ih
            | cons next others => simpa [glue] using ih

theorem sep_not_mem_pieces (sep : Char) (text : List Char) :
    ∀ piece ∈ pieces sep text, sep ∉ piece := by
  induction text with
  | nil => simp [pieces]
  | cons c rest ih =>
      unfold pieces
      split
      · intro piece member
        rcases List.mem_cons.mp member with rfl | later
        · simp
        · exact ih piece later
      · rename_i other
        cases cut : pieces sep rest with
        | nil => exact absurd cut (pieces_ne_nil sep rest)
        | cons first others =>
            rw [cut] at ih
            intro piece member
            rcases List.mem_cons.mp member with rfl | later
            · simp only [List.mem_cons, not_or]
              exact ⟨fun same => other same.symm, ih first (by simp)⟩
            · exact ih piece (List.mem_cons_of_mem _ later)

def occursIn (needle : List Char) : List Char → Bool
  | [] => needle.isEmpty
  | c :: rest => needle.isPrefixOf (c :: rest) || occursIn needle rest

theorem occursIn_iff (needle text : List Char) :
    occursIn needle text = true ↔ needle <:+: text := by
  induction text with
  | nil => simp [occursIn]
  | cons c rest ih =>
      simp only [occursIn, Bool.or_eq_true, List.isPrefixOf_iff_prefix, ih,
        List.infix_cons_iff]

/-- The last piece after `sep` and what stands before that separator. -/
def cutLast (sep : Char) (text : List Char) : Option (List Char × List Char) :=
  match text.reverse.span (· != sep) with
  | (_, []) => none
  | (after, _ :: before) => some (before.reverse, after.reverse)

def cutFirst (sep : Char) (text : List Char) : Option (List Char × List Char) :=
  match text.span (· != sep) with
  | (_, []) => none
  | (before, _ :: after) => some (before, after)

end PlatformBundle.Text

namespace PlatformBundle

def joinWith (between : String) : List String → String
  | [] => ""
  | [text] => text
  | text :: next :: others => text ++ between ++ joinWith between (next :: others)

end PlatformBundle
