import PlatformBundle.Disk.Operations
/-!
Patterns for names: `*` stands for any text and `?` for any character. `accepts_iff` says which
texts a pattern matches. A pattern with separators is looked up on a disk one name at a time.
-/

namespace PlatformBundle.Shell

inductive PatternItem where
  | char (c : Char)
  | anyChar
  | anyText
  deriving DecidableEq

abbrev Pattern := List PatternItem

namespace Pattern

def matchesTail (accepts : List Char → Bool) : List Char → Bool
  | [] => accepts []
  | c :: rest => accepts (c :: rest) || matchesTail accepts rest

def accepts : Pattern → List Char → Bool
  | [], text => text.isEmpty
  | .char c :: pattern, d :: rest => c == d && accepts pattern rest
  | .anyChar :: pattern, _ :: rest => accepts pattern rest
  | .anyText :: pattern, text => matchesTail (accepts pattern) text
  | _ :: _, [] => false

inductive Fits : Pattern → List Char → Prop where
  | nil : Fits [] []
  | char (c : Char) {pattern : Pattern} {text : List Char} :
      Fits pattern text → Fits (.char c :: pattern) (c :: text)
  | anyChar (c : Char) {pattern : Pattern} {text : List Char} :
      Fits pattern text → Fits (.anyChar :: pattern) (c :: text)
  | anyText (skipped : List Char) {pattern : Pattern} {text : List Char} :
      Fits pattern text → Fits (.anyText :: pattern) (skipped ++ text)

theorem matchesTail_iff (p : List Char → Bool) (text : List Char) :
    matchesTail p text = true ↔ ∃ skipped rest, text = skipped ++ rest ∧ p rest = true := by
  induction text with
  | nil =>
      constructor
      · exact fun found => ⟨[], [], rfl, found⟩
      · rintro ⟨skipped, rest, same, found⟩
        obtain ⟨-, rfl⟩ := List.append_eq_nil_iff.mp same.symm
        exact found
  | cons c tail ih =>
      simp only [matchesTail, Bool.or_eq_true, ih]
      constructor
      · rintro (found | ⟨skipped, rest, rfl, found⟩)
        · exact ⟨[], c :: tail, rfl, found⟩
        · exact ⟨c :: skipped, rest, rfl, found⟩
      · rintro ⟨skipped, rest, same, found⟩
        cases skipped with
        | nil => exact Or.inl (same ▸ found)
        | cons d skipped =>
            simp only [List.cons_append, List.cons.injEq] at same
            exact Or.inr ⟨skipped, rest, same.2, found⟩

theorem accepts_iff (pattern : Pattern) (text : List Char) :
    accepts pattern text = true ↔ Fits pattern text := by
  induction pattern generalizing text with
  | nil =>
      cases text with
      | nil => exact ⟨fun _ => .nil, fun _ => rfl⟩
      | cons c rest => exact ⟨fun h => by simp [accepts] at h, fun h => by cases h⟩
  | cons item pattern ih =>
      cases item with
      | char c =>
          cases text with
          | nil => exact ⟨fun h => by simp [accepts] at h, fun h => by cases h⟩
          | cons d rest =>
              simp only [accepts, Bool.and_eq_true, beq_iff_eq, ih]
              constructor
              · rintro ⟨rfl, fits⟩; exact .char c fits
              · intro fits; cases fits with | char _ fits => exact ⟨rfl, fits⟩
      | anyChar =>
          cases text with
          | nil => exact ⟨fun h => by simp [accepts] at h, fun h => by cases h⟩
          | cons d rest =>
              simp only [accepts, ih]
              constructor
              · exact fun fits => .anyChar d fits
              · intro fits; cases fits with | anyChar _ fits => exact fits
      | anyText =>
          have unfolded : accepts (.anyText :: pattern) text =
              matchesTail (accepts pattern) text := by cases text <;> rfl
          rw [unfolded, matchesTail_iff]
          constructor
          · rintro ⟨skipped, rest, rfl, found⟩; exact .anyText skipped ((ih rest).mp found)
          · intro fits
            cases fits with
            | anyText skipped fits => exact ⟨skipped, _, rfl, (ih _).mpr fits⟩

def isActive (item : PatternItem) : Bool := item == .anyChar || item == .anyText

def literal (pattern : Pattern) : String :=
  String.ofList (pattern.filterMap fun item =>
    match item with
    | .char c => some c
    | _ => none)

/-- A name that begins with a dot is only matched by a pattern that begins with one. -/
def matchesName (pattern : Pattern) (name : String) : Bool :=
  accepts pattern name.toList &&
    (name.toList.head? != some '.' || pattern.head? == some (.char '.'))

def names : Pattern → List Pattern
  | [] => [[]]
  | item :: rest =>
      if item = .char '/' then [] :: names rest
      else match names rest with
        | [] => [[item]]
        | first :: others => (item :: first) :: others

def here (text : String) : Path := if text.isEmpty then ⟨"."⟩ else ⟨text⟩

def extend (disk : Disk) (base : String) (pattern : Pattern) : List String :=
  if pattern.any isActive then
    match disk.list (here base) with
    | .ok found => (found.filter (matchesName pattern)).map (base ++ ·)
    | .error _ => []
  else [base ++ pattern.literal]

def paths (disk : Disk) (base : String) : List Pattern → List String
  | [] => [base]
  | [last] => (extend disk base last).filter (fun path => disk.exists? ⟨path⟩)
  | next :: others => (extend disk base next).flatMap (fun path => paths disk (path ++ "/") others)

def expand (disk : Disk) (pattern : Pattern) : List String := paths disk "" (names pattern)

end Pattern

end PlatformBundle.Shell
