import PlatformBundle.Proofs.JsonReading
import PlatformBundle.Proofs.StreamedOutput
import PlatformBundle.Report
/-!
Reports that come through the lines of a stream. Reading a stream line by line changes its line
ends only: carriage returns in front of a newline are lost, and a last line gets a newline. A
reader of JSON takes one line end and several, of either kind, alike: between tokens they are
blanks, everywhere else the first one is an error. So a report means the same before and after.
-/

namespace PlatformBundle

namespace Text

/-- Texts that differ in their line ends only: where one has some, the other has some too. -/
inductive SameLines : List Char → List Char → Prop where
  | nil : SameLines [] []
  | char (c : Char) {first second : List Char} :
      SameLines first second → SameLines (c :: first) (c :: second)
  | ends {ends others first second : List Char} : ends ≠ [] → others ≠ [] →
      (∀ c ∈ ends, isLineEnd c = true) → (∀ c ∈ others, isLineEnd c = true) →
      SameLines first second → SameLines (ends ++ first) (others ++ second)

namespace SameLines

variable {first second third fourth : List Char}

theorem refl (text : List Char) : SameLines text text := by
  induction text with
  | nil => exact .nil
  | cons c _ ih => exact .char c ih

theorem append (front : SameLines first second) (back : SameLines third fourth) :
    SameLines (first ++ third) (second ++ fourth) := by
  induction front with
  | nil => exact back
  | char c _ ih => exact .char c ih
  | ends one two oneEnds twoEnds _ ih =>
      rw [List.append_assoc, List.append_assoc]
      exact .ends one two oneEnds twoEnds ih

theorem reverse (same : SameLines first second) : SameLines first.reverse second.reverse := by
  induction same with
  | nil => exact .nil
  | char c _ ih =>
      rw [List.reverse_cons, List.reverse_cons]
      exact ih.append (refl [c])
  | @ends front back _ _ one two oneEnds twoEnds _ ih =>
      rw [List.reverse_append, List.reverse_append]
      refine ih.append ?_
      have alone := SameLines.ends (fun empty => one (List.reverse_eq_nil_iff.mp empty))
        (fun empty => two (List.reverse_eq_nil_iff.mp empty))
        (fun c inside => oneEnds c (List.mem_reverse.mp inside))
        (fun c inside => twoEnds c (List.mem_reverse.mp inside)) .nil
      rwa [List.append_nil, List.append_nil] at alone

theorem isBlank_of_isLineEnd {c : Char} (lineEnd : isLineEnd c = true) : isBlank c = true := by
  rcases isLineEnd_iff.mp lineEnd with rfl | rfl <;> rfl

theorem trimStart (same : SameLines first second) :
    SameLines (Text.trimStart first) (Text.trimStart second) := by
  unfold Text.trimStart
  induction same with
  | nil => exact .nil
  | char c here ih =>
      rw [List.dropWhile_cons, List.dropWhile_cons]
      split
      · exact ih
      · exact .char c here
  | ends _ _ oneEnds twoEnds _ ih =>
      rwa [List.dropWhile_append_of_pos (fun c inside => isBlank_of_isLineEnd (oneEnds c inside)),
        List.dropWhile_append_of_pos (fun c inside => isBlank_of_isLineEnd (twoEnds c inside))]

theorem trim (same : SameLines first second) : SameLines (Text.trim first) (Text.trim second) :=
  same.trimStart.reverse.trimStart.reverse

end SameLines

theorem trim_newline (text : List Char) : trim (text ++ ['\n']) = trim text := by
  have trimEnd_newline (text : List Char) : trimEnd (text ++ ['\n']) = trimEnd text := by
    rw [trimEnd, List.reverse_append]
    rfl
  rw [trim, trimStart, List.dropWhile_append]
  split
  · rename_i blank
    rw [trim, trimStart, List.isEmpty_iff.mp blank]
    rfl
  · exact trimEnd_newline (trimStart text)

section Capture

def linesText (lines : List String) : List Char :=
  (String.join (lines.map (fun line => line ++ "\n"))).toList

theorem linesText_cons (line : String) (lines : List String) :
    linesText (line :: lines) = line.toList ++ '\n' :: linesText lines := by
  rw [linesText, List.map_cons, String.join_cons, String.toList_append, String.toList_append,
    List.append_assoc]
  rfl

-- A piece and its line differ in what ends them.
theorem sameLines_line (piece : List UInt8) {others : List Char} (filled : others ≠ [])
    (lineEnds : ∀ c ∈ others, isLineEnd c = true) :
    SameLines (decodeLossy piece ++ ['\n']) ((lineText piece).toList ++ others) := by
  obtain ⟨ends, text, pieceEnds⟩ := exists_ends (decodeLossy piece)
  have back : SameLines (ends ++ ['\n']) others := by
    have allEnds : ∀ c ∈ ends ++ ['\n'], isLineEnd c = true := by
      intro c inside
      rcases List.mem_append.mp inside with own | added
      · exact pieceEnds c own
      · rw [List.mem_singleton.mp added]
        rfl
    have alone := SameLines.ends (List.concat_ne_nil '\n' ends) filled allEnds lineEnds .nil
    rwa [List.append_nil, List.append_nil] at alone
  rw [lineText, String.toList_ofList]
  generalize dropLineEnd (decodeLossy piece) = front at text
  rw [text, List.append_assoc]
  exact (SameLines.refl front).append back

theorem sameLines_pieces {bytes : List UInt8} {pieces : List (List UInt8)}
    (cut : StreamCut bytes pieces) :
    SameLines (decodeLossy bytes ++ ['\n']) (linesText (pieces.map lineText) ++ ['\n']) := by
  induction cut with
  | nothing => exact .refl ['\n']
  | @last piece _ _ =>
      have text : linesText [lineText piece] ++ ['\n'] =
          (lineText piece).toList ++ ['\n', '\n'] := by
        rw [linesText_cons, List.append_assoc]
        rfl
      rw [List.map_singleton, text]
      exact sameLines_line piece (List.cons_ne_nil '\n' ['\n'])
        (List.forall_mem_cons.mpr ⟨rfl, List.forall_mem_singleton.mpr rfl⟩)
  | @line piece rest pieces _ _ ih =>
      have text : linesText (lineText piece :: pieces.map lineText) ++ ['\n'] =
          ((lineText piece).toList ++ ['\n']) ++ (linesText (pieces.map lineText) ++ ['\n']) := by
        rw [linesText_cons, List.append_assoc, List.append_assoc]
        rfl
      have bytes : decodeLossy (piece ++ 10 :: rest) ++ ['\n'] =
          (decodeLossy piece ++ ['\n']) ++ (decodeLossy rest ++ ['\n']) := by
        rw [decodeLossy_newline, List.append_assoc, List.append_assoc]
        rfl
      rw [List.map_cons, text, bytes]
      exact (sameLines_line piece (List.cons_ne_nil '\n' [])
        (List.forall_mem_singleton.mpr rfl)).append ih

/-- What is collected of a stream differs from the text of the whole stream in its line ends only,
and at its end not even in these once it is trimmed. -/
theorem sameLines_trim (bytes : List UInt8) :
    SameLines (trim (decodeLossy bytes)) (trim (linesText (streamLines bytes))) := by
  have trimmed := (sameLines_pieces (streamCut_streamPieces bytes)).trim
  rwa [trim_newline, trim_newline] at trimmed

end Capture

end Text

namespace Json

open Text

namespace Machine

section LineEnds

variable {machine next : Machine}

/-- No word that is being read has a line end in it. Only there could the two line ends differ. -/
def Lettered (machine : Machine) : Prop :=
  ∀ left value, machine.mode = .word left value → ∀ c ∈ left, isLineEnd c = false

/-- What one or more line ends make of a machine: they end a number, they are blanks between
tokens, and they are not accepted inside of a text or a word. -/
def atLineEnd (machine : Machine) : Option Machine :=
  match machine.mode with
  | .text .. | .word .. => none
  | .number part text =>
      if part.isWhole then some (deliver (.number text) machine.frames) else none
  | _ => some machine

theorem step_lineEnd (lettered : machine.Lettered) {c : Char} (lineEnd : isLineEnd c = true) :
    machine.step c = machine.atLineEnd := by
  obtain ⟨mode, frames⟩ := machine
  cases mode with
  | word left value =>
      cases left with
      | nil => rfl
      | cons w rest =>
          have differ : c ≠ w := by
            rintro rfl
            rw [lettered (c :: rest) value rfl c List.mem_cons_self] at lineEnd
            cases lineEnd
          exact if_pos differ
  | text role read inside =>
      rcases isLineEnd_iff.mp lineEnd with rfl | rfl <;> cases inside <;> rfl
  | number part text =>
      rcases isLineEnd_iff.mp lineEnd with rfl | rfl <;> cases part <;> rfl
  | _ => rcases isLineEnd_iff.mp lineEnd with rfl | rfl <;> rfl

theorem lettered_deliver (value : Term) (frames : List Frame) :
    (deliver value frames).Lettered := by
  intro left other same
  rcases frames with _ | ⟨_ | _, _⟩ <;> cases same

theorem lettered_text (role : Role) (read : List TextPiece) (inside : InText)
    (frames : List Frame) : Lettered ⟨.text role read inside, frames⟩ :=
  fun _ _ word => by cases word

theorem atLineEnd_again (once : machine.atLineEnd = some next) : next.atLineEnd = some next := by
  obtain ⟨mode, frames⟩ := machine
  cases mode with
  | number part text =>
      simp only [atLineEnd] at once
      split at once
      · cases once
        rcases frames with _ | ⟨_ | _, _⟩ <;> rfl
      · cases once
  | _ => cases once <;> rfl

theorem lettered_startValue {frames : List Frame} {c : Char}
    (starts : startValue frames c = some next) : next.Lettered := by
  unfold startValue at starts
  repeat' split at starts
  all_goals cases starts
  all_goals intro left value same
  all_goals cases same
  all_goals simp [isLineEnd]

theorem lettered_stepBetween {mode : Mode} {frames : List Frame} {c : Char}
    (lettered : Lettered ⟨mode, frames⟩) (step : stepBetween mode frames c = some next) :
    next.Lettered := by
  unfold stepBetween at step
  split at step
  · cases step
    exact lettered
  · cases mode with
    | value => exact lettered_startValue step
    | arrayStart =>
        dsimp only at step
        split at step
        · cases step
          exact lettered_deliver _ _
        · exact lettered_startValue step
    | arrayNext done =>
        dsimp only at step
        repeat' split at step
        · cases step
          exact fun _ _ word => by cases word
        · cases step
          exact lettered_deliver _ _
        · cases step
    | objectStart =>
        dsimp only at step
        repeat' split at step
        · cases step
          exact lettered_text _ _ _ _
        · cases step
          exact lettered_deliver _ _
        · cases step
    | objectKey done =>
        dsimp only at step
        split at step
        · cases step
          exact lettered_text _ _ _ _
        · cases step
    | colon done key =>
        dsimp only at step
        split at step
        · cases step
          exact fun _ _ word => by cases word
        · cases step
    | objectNext done =>
        dsimp only at step
        repeat' split at step
        · cases step
          exact fun _ _ word => by cases word
        · cases step
          exact lettered_deliver _ _
        · cases step
    | _ => cases step

theorem lettered_stepText {role : Role} {read : List TextPiece} {inside : InText}
    {frames : List Frame} {c : Char} (step : stepText role read inside frames c = some next) :
    next.Lettered := by
  cases inside with
  | plain =>
      simp only [stepText] at step
      split at step
      · obtain rfl := Option.some.inj step
        cases role with
        | asValue => exact lettered_deliver _ _
        | asKey done => exact fun _ _ word => by cases word
      · repeat' split at step
        all_goals cases step
        all_goals exact lettered_text _ _ _ _
  | escaped =>
      simp only [stepText] at step
      split at step
      · obtain rfl := Option.some.inj step
        exact lettered_text _ _ _ _
      · obtain ⟨e, -, rfl⟩ := Option.map_eq_some_iff.mp step
        exact lettered_text _ _ _ _
  | hex digits code =>
      obtain ⟨value, -, goesOn⟩ := Option.bind_eq_some_iff.mp step
      dsimp only at goesOn
      split at goesOn
      all_goals cases goesOn
      all_goals exact lettered_text _ _ _ _

theorem lettered_step (lettered : machine.Lettered) {c : Char}
    (step : machine.step c = some next) : next.Lettered := by
  obtain ⟨mode, frames⟩ := machine
  cases mode with
  | text role read inside => exact lettered_stepText step
  | number part text =>
      simp only [Machine.step] at step
      split at step
      · cases step
        exact fun _ _ word => by cases word
      · split at step
        · exact lettered_stepBetween (lettered_deliver _ _) step
        · cases step
  | word left value =>
      cases left with
      | nil => cases step
      | cons w rest =>
          simp only [Machine.step] at step
          repeat' split at step
          · cases step
          · cases step
            exact lettered_deliver _ _
          · cases step
            rintro left other ⟨⟩ d inside
            exact lettered _ value rfl d (List.mem_cons_of_mem w inside)
  | _ => exact lettered_stepBetween lettered step

theorem run_lineEnds (lettered : machine.Lettered) {ends : List Char} (filled : ends ≠ [])
    (lineEnds : ∀ c ∈ ends, isLineEnd c = true) : machine.run ends = machine.atLineEnd := by
  induction ends generalizing machine with
  | nil => exact absurd rfl filled
  | cons c rest ih =>
      have first := step_lineEnd lettered (lineEnds c List.mem_cons_self)
      rw [run_cons, first]
      cases once : machine.atLineEnd with
      | none => rfl
      | some next =>
          cases rest with
          | nil => rfl
          | cons d others =>
              have later := ih (lettered_step lettered (first.trans once))
                (List.cons_ne_nil d others)
                (fun e inside => lineEnds e (List.mem_cons_of_mem c inside))
              rw [Option.bind_some, later, atLineEnd_again once]

theorem lettered_run (lettered : machine.Lettered) {text : List Char}
    (run : machine.run text = some next) : next.Lettered := by
  induction text generalizing machine with
  | nil =>
      cases run
      exact lettered
  | cons c rest ih =>
      rw [run_cons] at run
      obtain ⟨middle, step, later⟩ := Option.bind_eq_some_iff.mp run
      exact ih (lettered_step lettered step) later

theorem run_sameLines (lettered : machine.Lettered) {first second : List Char}
    (same : SameLines first second) : machine.run first = machine.run second := by
  induction same generalizing machine with
  | nil => rfl
  | char c _ ih =>
      rw [run_cons, run_cons]
      cases step : machine.step c with
      | none => rfl
      | some next => exact ih (lettered_step lettered step)
  | ends one two oneEnds twoEnds _ ih =>
      have front := run_lineEnds lettered one oneEnds
      rw [run_append, run_append, front, run_lineEnds lettered two twoEnds]
      cases once : machine.atLineEnd with
      | none => rfl
      | some next => exact ih (lettered_run lettered (front.trans once))

end LineEnds

end Machine

theorem read_sameLines {first second : List Char} (same : SameLines first second) :
    read first = read second := by
  have lettered : Machine.start.Lettered := fun _ _ word => by cases word
  have runs := Machine.run_sameLines lettered same
  unfold Machine.run at runs
  rw [read, read, readTerm, readTerm, runs]

end Json

/-- The report that was collected line by line says what the whole output says, and cannot be read
exactly when that cannot be read. -/
theorem Report.messages_captured (child : Child) :
    messages (child.output true).stdout =
      messages (String.ofList (Text.decodeLossy child.stdout)) := by
  have captured : (child.output true).stdout.toList =
      Text.linesText (Text.streamLines child.stdout) :=
    congrArg String.toList (Reading.kept_of_atEnd (Reading.atEnd_read child true)).captured
  rw [messages, messages, captured, String.toList_ofList,
    Json.read_sameLines (Text.sameLines_trim child.stdout)]

end PlatformBundle
