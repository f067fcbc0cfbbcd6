import Mathlib.Data.List.Forall2
import PlatformBundle.Json.Printer
import PlatformBundle.Json.Reader
/-!
JSON in the wide layout is read back. A control character without an escape of its own comes back
as a unit given by its digits, every other character as itself, and both say the same text. The
rules are those of the layout: a value that is read back whatever stands around it can be the
member of an object.
-/

namespace PlatformBundle.Json

open Machine

def Machine.run (machine : Machine) (text : List Char) : Option Machine :=
  text.foldlM Machine.step machine

namespace Machine

variable {machine : Machine} {frames : List Frame}

theorem run_cons (c : Char) (text : List Char) :
    machine.run (c :: text) = (machine.step c).bind (fun next => next.run text) := rfl

theorem run_append (first second : List Char) :
    machine.run (first ++ second) = (machine.run first).bind (fun next => next.run second) := by
  simp only [run, List.foldlM_append]
  rfl

theorem run_append_of {next : Machine} {first : List Char} (begins : machine.run first = some next)
    (second : List Char) : machine.run (first ++ second) = next.run second := by
  rw [run_append, begins]
  rfl

end Machine

section Texts

def pieceOf (c : Char) : TextPiece :=
  if c.toNat < 0x20 ∧ c ∉ ['\n', '\r', '\t', '\x08', '\x0c'] then .unit c.toNat else .char c

def piecesOf (text : String) : List TextPiece := text.toList.map pieceOf

theorem hexValue_lowerHex : ∀ n < 16, hexValue (lowerHex n) = some n := by decide

variable {role : Role} {frames : List Frame}

theorem run_escapeChar (c : Char) (read : List TextPiece) :
    Machine.run ⟨.text role read .plain, frames⟩ (escapeChar c) =
      some ⟨.text role (pieceOf c :: read) .plain, frames⟩ := by
  by_cases quote : c = '"'
  · rw [quote]
    rfl
  by_cases backslash : c = '\\'
  · rw [backslash]
    rfl
  by_cases newline : c = '\n'
  · rw [newline]
    rfl
  by_cases carriage : c = '\r'
  · rw [carriage]
    rfl
  by_cases tab : c = '\t'
  · rw [tab]
    rfl
  by_cases backspace : c = '\x08'
  · rw [backspace]
    rfl
  by_cases feed : c = '\x0c'
  · rw [feed]
    rfl
  by_cases control : c.toNat < 0x20
  · have upper := hexValue_lowerHex (c.toNat / 16) (by omega)
    have lower := hexValue_lowerHex (c.toNat % 16) (by omega)
    have zero : hexValue '0' = some 0 := by decide
    have whole : c.toNat / 16 * 16 + c.toNat % 16 = c.toNat := by omega
    have piece : pieceOf c = .unit c.toNat := by
      simp [pieceOf, control, newline, carriage, tab, backspace, feed]
    simp [escapeChar, quote, backslash, newline, carriage, tab, backspace, feed, control,
      Machine.run, step, stepText, zero, upper, lower, whole, piece]
  · have piece : pieceOf c = .char c := by simp [pieceOf, control]
    simp [escapeChar, quote, backslash, newline, carriage, tab, backspace, feed, control,
      Machine.run, step, stepText, piece]

theorem run_escaped (chars : List Char) (read : List TextPiece) :
    Machine.run ⟨.text role read .plain, frames⟩ (chars.flatMap escapeChar) =
      some ⟨.text role ((chars.map pieceOf).reverse ++ read) .plain, frames⟩ := by
  induction chars generalizing read with
  | nil => rfl
  | cons c rest ih =>
      rw [List.flatMap_cons, run_append_of (run_escapeChar c read), ih]
      simp

theorem run_quoted_rest (text : String) :
    Machine.run ⟨.text role [] .plain, frames⟩ (text.toList.flatMap escapeChar ++ ['"']) =
      some (closeText role (piecesOf text).reverse frames) := by
  rw [run_append_of (run_escaped text.toList []), List.append_nil]
  rfl

-- A unit below the surrogates stands alone, whatever comes after it.
theorem charsOf_unit {code : Nat} (small : code < 0x20) (rest : List TextPiece) :
    charsOf (.unit code :: rest) = (charsOf rest).map (Char.ofNat code :: ·) := by
  have notLead : isLeadUnit code = false := by simp [isLeadUnit]; omega
  have notTrail : isTrailUnit code = false := by simp [isTrailUnit]; omega
  cases rest with
  | nil => simp [charsOf, notLead, notTrail]
  | cons next others => cases next <;> simp [charsOf, notLead, notTrail]

theorem charsOf_pieces (chars : List Char) : charsOf (chars.map pieceOf) = some chars := by
  induction chars with
  | nil => rfl
  | cons c rest ih =>
      rw [List.map_cons, pieceOf]
      split
      · rename_i control
        rw [charsOf_unit control.1, ih, Char.ofNat_toNat]
        rfl
      · rw [charsOf, ih]
        rfl

theorem textOf_piecesOf (text : String) : textOf (piecesOf text) = some text := by
  rw [textOf, piecesOf, charsOf_pieces, Option.map_some, String.ofList_toList]

end Texts

section Values

/-- The text of a value in the wide layout is read back as a term, wherever the value stands. -/
def ReadsBack (indent : Nat) (value : Json) (term : Term) : Prop :=
  ∀ frames, Machine.run ⟨.value, frames⟩ (value.wide indent) = some (deliver term frames)

theorem readsBack_string (indent : Nat) (text : String) :
    ReadsBack indent (.string text) (.string (piecesOf text)) := by
  intro frames
  have opens : Machine.step ⟨.value, frames⟩ '"' = some ⟨.text .asValue [] .plain, frames⟩ := rfl
  rw [wide, quoted, run_cons, opens, Option.bind_some, run_quoted_rest, closeText,
    List.reverse_reverse]

theorem run_blanks {mode : Mode} {frames : List Frame}
    (stays : ∀ c, isJsonBlank c = true →
      Machine.step ⟨mode, frames⟩ c = some ⟨mode, frames⟩)
    (blanks : List Char) (blank : ∀ c ∈ blanks, isJsonBlank c = true) :
    Machine.run ⟨mode, frames⟩ blanks = some ⟨mode, frames⟩ := by
  induction blanks with
  | nil => rfl
  | cons c rest ih =>
      rw [run_cons, stays c (blank c List.mem_cons_self), Option.bind_some]
      exact ih (fun d later => blank d (List.mem_cons_of_mem _ later))

theorem blank_lineBreak (indent : Nat) : ∀ c ∈ lineBreak indent, isJsonBlank c = true := by
  intro c listed
  rcases List.mem_cons.mp listed with rfl | inside
  · rfl
  · rw [List.eq_of_mem_replicate inside]
    rfl

theorem stays_between {mode : Mode} {frames : List Frame}
    (between : ∀ c, Machine.step ⟨mode, frames⟩ c = stepBetween mode frames c) (c : Char)
    (blank : isJsonBlank c = true) : Machine.step ⟨mode, frames⟩ c = some ⟨mode, frames⟩ := by
  rw [between]
  unfold stepBetween
  rw [if_pos blank]

theorem run_token {machine : Machine} {mode : Mode} {frames : List Frame} {c : Char}
    (token : machine.step c = some ⟨mode, frames⟩)
    (between : ∀ c, Machine.step ⟨mode, frames⟩ c = stepBetween mode frames c) (indent : Nat) :
    machine.run (c :: lineBreak indent) = some ⟨mode, frames⟩ := by
  rw [run_cons, token, Option.bind_some]
  exact run_blanks (stays_between between) (lineBreak indent) (blank_lineBreak indent)

/-- Where the key of a member may begin, after the members that have been read. -/
inductive KeyMode : List (List TextPiece × Term) → Mode → Prop where
  | first : KeyMode [] .objectStart
  | later (done : List (List TextPiece × Term)) : KeyMode done (.objectKey done)

theorem run_member {indent : Nat} {item : Json} {term : Term} {mode : Mode}
    {done : List (List TextPiece × Term)} (frames : List Frame) (key : String)
    (starts : KeyMode done mode)
    (reads : ReadsBack indent item term) :
    Machine.run ⟨mode, frames⟩ (quoted key ++ ':' :: ' ' :: item.wide indent) =
      some ⟨.objectNext ((piecesOf key, term) :: done), frames⟩ := by
  have opens : Machine.step ⟨mode, frames⟩ '"' = some ⟨.text (.asKey done) [] .plain, frames⟩ := by
    cases starts <;> rfl
  have named : Machine.run ⟨mode, frames⟩ (quoted key) =
      some ⟨.colon done (piecesOf key), frames⟩ := by
    rw [quoted, run_cons, opens, Option.bind_some, run_quoted_rest, closeText,
      List.reverse_reverse]
  have colon : Machine.run ⟨.colon done (piecesOf key), frames⟩ [':', ' '] =
      some ⟨.value, .inObject done (piecesOf key) :: frames⟩ := rfl
  rw [run_append_of named]
  have rest := run_append_of colon (item.wide indent)
  exact rest.trans (reads _)

/-- Two lists of members agree when each key is read back, and each value too. -/
def MembersRead (indent : Nat) : List (String × Json) → List (List TextPiece × Term) → Prop :=
  List.Forall₂ (fun member read => read.1 = piecesOf member.1 ∧
    ReadsBack indent member.2 read.2)

theorem run_members {indent : Nat} {members : List (String × Json)}
    {reads : List (List TextPiece × Term)} {mode : Mode}
    {done : List (List TextPiece × Term)} (frames : List Frame) (filled : members ≠ [])
    (starts : KeyMode done mode)
    (agree : MembersRead indent members reads) :
    Machine.run ⟨mode, frames⟩ (wideMembers indent members) =
      some ⟨.objectNext (reads.reverse ++ done), frames⟩ := by
  induction agree generalizing mode done with
  | nil => exact absurd rfl filled
  | @cons member read others reads here later ih =>
      obtain ⟨key, item⟩ := member
      obtain ⟨pieces, term⟩ := read
      obtain ⟨rfl, back⟩ := here
      have first := run_member frames key starts back
      cases later with
      | nil => exact first
      | @cons next nextRead others reads nextHere more =>
          have goesOn : Machine.run ⟨.objectNext ((piecesOf key, term) :: done), frames⟩
              (',' :: lineBreak indent) =
                some ⟨.objectKey ((piecesOf key, term) :: done), frames⟩ :=
            run_token rfl (fun _ => rfl) indent
          have rest := ih (List.cons_ne_nil next others) (.later ((piecesOf key, term) :: done))
          have spelled : wideMembers indent ((key, item) :: next :: others) =
              (quoted key ++ ':' :: ' ' :: item.wide indent) ++
                ((',' :: lineBreak indent) ++ wideMembers indent (next :: others)) := by
            simp [wideMembers]
          rw [spelled, run_append_of first, run_append_of goesOn, rest]
          simp

theorem readsBack_object {indent : Nat} {members : List (String × Json)}
    {reads : List (List TextPiece × Term)} (agree : MembersRead (indent + 2) members reads) :
    ReadsBack indent (.object members) (.object reads) := by
  intro frames
  cases members with
  | nil =>
      cases agree
      rfl
  | cons member others =>
      have opens : Machine.run ⟨.value, frames⟩ ('\x7b' :: lineBreak (indent + 2)) =
          some ⟨.objectStart, frames⟩ := run_token rfl (fun _ => rfl) (indent + 2)
      have inside := run_members frames (List.cons_ne_nil member others) .first agree
      have closes : Machine.run ⟨.objectNext (reads.reverse ++ []), frames⟩
          (lineBreak indent ++ ['\x7d']) = some (deliver (.object reads) frames) := by
        have blanks : Machine.run ⟨.objectNext (reads.reverse ++ []), frames⟩ (lineBreak indent) =
            some ⟨.objectNext (reads.reverse ++ []), frames⟩ :=
          run_blanks (stays_between (fun _ => rfl)) (lineBreak indent) (blank_lineBreak indent)
        rw [run_append_of blanks]
        simp [Machine.run, step, stepBetween, isJsonBlank]
      have spelled : (Json.object (member :: others)).wide indent =
          ('\x7b' :: lineBreak (indent + 2)) ++ (wideMembers (indent + 2) (member :: others) ++
            (lineBreak indent ++ ['\x7d'])) := by
        simp [wide]
      rw [spelled, run_append_of opens, run_append_of inside, closes]

theorem readsBack_texts (indent : Nat) (entries : List (String × String)) :
    ReadsBack indent (.object (entries.map (fun entry => (entry.1, .string entry.2))))
      (.object (entries.map (fun entry => (piecesOf entry.1, .string (piecesOf entry.2))))) := by
  apply readsBack_object
  unfold MembersRead
  rw [List.forall₂_map_left_iff, List.forall₂_map_right_iff, List.forall₂_same]
  intro entry _
  exact ⟨rfl, readsBack_string _ entry.2⟩

theorem readsBack_ofMap (indent : Nat) (map : KeyMap String) :
    ReadsBack indent (Json.ofMap map) (.object (map.entries.map
      (fun entry => (piecesOf entry.1, .string (piecesOf entry.2))))) :=
  readsBack_texts indent map.entries

-- Behind an opening bracket a text is read like any other first item.
theorem run_strings (indent : Nat) (texts : List String) (filled : texts ≠ []) (done : List Term)
    (frames : List Frame) :
    Machine.run ⟨.value, .inArray done :: frames⟩ (wideItems indent (texts.map .string)) =
      some ⟨.arrayNext ((texts.map (fun text => .string (piecesOf text))).reverse ++ done),
        frames⟩ := by
  induction texts generalizing done with
  | nil => exact absurd rfl filled
  | cons text others ih =>
      have first := readsBack_string indent text (.inArray done :: frames)
      cases others with
      | nil => exact first
      | cons next others =>
          have goesOn : Machine.run ⟨.arrayNext (.string (piecesOf text) :: done), frames⟩
              (',' :: lineBreak indent) =
                some ⟨.value, .inArray (.string (piecesOf text) :: done) :: frames⟩ :=
            run_token rfl (fun _ => rfl) indent
          have rest := ih (List.cons_ne_nil next others) (.string (piecesOf text) :: done)
          have spelled : wideItems indent ((text :: next :: others).map .string) =
              (Json.string text).wide indent ++
                ((',' :: lineBreak indent) ++ wideItems indent ((next :: others).map .string)) := by
            simp [wideItems]
          rw [spelled, run_append_of first, deliver, run_append_of goesOn, rest]
          simp

theorem readsBack_ofStrings (indent : Nat) (texts : List String) :
    ReadsBack indent (Json.ofStrings texts)
      (.array (texts.map (fun text => .string (piecesOf text)))) := by
  intro frames
  cases texts with
  | nil => rfl
  | cons text others =>
      have opens : Machine.run ⟨.value, frames⟩ ('[' :: lineBreak (indent + 2)) =
          some ⟨.arrayStart, frames⟩ := run_token rfl (fun _ => rfl) (indent + 2)
      have starts (rest : List Char) : Machine.run ⟨.arrayStart, frames⟩ ('"' :: rest) =
          Machine.run ⟨.value, .inArray [] :: frames⟩ ('"' :: rest) := rfl
      have quotes : ∃ rest,
          wideItems (indent + 2) ((text :: others).map .string) = '"' :: rest := by
        cases others with
        | nil => exact ⟨_, rfl⟩
        | cons next others => exact ⟨_, rfl⟩
      have inside := run_strings (indent + 2) (text :: others) (List.cons_ne_nil text others) []
        frames
      obtain ⟨rest, begins⟩ := quotes
      rw [begins, ← starts, ← begins, List.append_nil] at inside
      have closes (terms : List Term) : Machine.run ⟨.arrayNext terms.reverse, frames⟩
          (lineBreak indent ++ [']']) = some (deliver (.array terms) frames) := by
        have blanks : Machine.run ⟨.arrayNext terms.reverse, frames⟩ (lineBreak indent) =
            some ⟨.arrayNext terms.reverse, frames⟩ :=
          run_blanks (stays_between (fun _ => rfl)) (lineBreak indent) (blank_lineBreak indent)
        rw [run_append_of blanks]
        simp [Machine.run, step, stepBetween, isJsonBlank]
      have spelled : (Json.ofStrings (text :: others)).wide indent =
          ('[' :: lineBreak (indent + 2)) ++
            (wideItems (indent + 2) ((text :: others).map .string) ++
              (lineBreak indent ++ [']'])) := by
        simp [Json.ofStrings, wide]
      rw [spelled, run_append_of opens, run_append_of inside, closes]

theorem readTerm_wide {indent : Nat} {value : Json} {term : Term}
    (reads : ReadsBack indent value term) (blanks : List Char)
    (blank : ∀ c ∈ blanks, isJsonBlank c = true) :
    readTerm (value.wide indent ++ blanks) = some term := by
  have whole : Machine.run Machine.start (value.wide indent ++ blanks) =
      some ⟨.ended term, []⟩ := by
    rw [Machine.start, run_append_of (reads [])]
    exact run_blanks (stays_between (fun _ => rfl)) blanks blank
  unfold readTerm
  unfold Machine.run at whole
  rw [whole]
  rfl

end Values

end PlatformBundle.Json
