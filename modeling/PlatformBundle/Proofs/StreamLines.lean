import Mathlib.Data.List.Forall2
import Mathlib.Data.List.TakeWhile
import PlatformBundle.Text.Lines
/-!
The lines of a byte stream. A stream has one cut at its newlines: what stands in front of each of
them, and what stands behind the last one, if that is anything. Each piece gives one line, and the
lines that are read from the stream, one after the other, are these.
-/

namespace PlatformBundle.Text

/-- The pieces of a stream: each is ended by a newline, but the last one may go without. -/
inductive StreamCut : List UInt8 → List (List UInt8) → Prop where
  | nothing : StreamCut [] []
  | last {piece : List UInt8} : 10 ∉ piece → piece ≠ [] → StreamCut piece [piece]
  | line {piece rest : List UInt8} {pieces : List (List UInt8)} :
      10 ∉ piece → StreamCut rest pieces → StreamCut (piece ++ 10 :: rest) (piece :: pieces)

/-- The line of a piece: its text without the carriage returns and newlines at its end. -/
structure IsLine (piece : List UInt8) (line : String) : Prop where
  text : ∃ ends, decodeLossy piece = line.toList ++ ends ∧ ∀ c ∈ ends, c = '\n' ∨ c = '\r'
  ends : ∀ c, line.toList.getLast? = some c → c ≠ '\n' ∧ c ≠ '\r'

def LinesOf (bytes : List UInt8) (lines : List String) : Prop :=
  ∃ pieces, StreamCut bytes pieces ∧ List.Forall₂ IsLine pieces lines

section Cuts

variable {piece rest : List UInt8}

theorem streamPieces_line (plain : 10 ∉ piece) (rest : List UInt8) :
    streamPieces (piece ++ 10 :: rest) = piece :: streamPieces rest := by
  induction piece with
  | nil => rfl
  | cons b others ih =>
      obtain ⟨here, later⟩ := not_or.mp (fun there => plain (List.mem_cons.mpr there))
      rw [List.cons_append, streamPieces, if_neg (Ne.symm here), ih later]

theorem streamPieces_last (plain : 10 ∉ piece) (filled : piece ≠ []) :
    streamPieces piece = [piece] := by
  induction piece with
  | nil => exact absurd rfl filled
  | cons b others ih =>
      obtain ⟨here, later⟩ := not_or.mp (fun there => plain (List.mem_cons.mpr there))
      rw [streamPieces, if_neg (Ne.symm here)]
      cases others with
      | nil => rfl
      | cons next others => rw [ih later (List.cons_ne_nil next others)]

theorem streamCut_streamPieces (bytes : List UInt8) : StreamCut bytes (streamPieces bytes) := by
  by_cases newline : 10 ∈ bytes
  · obtain ⟨piece, rest, same, plain⟩ := List.eq_append_cons_of_mem newline
    rw [same, streamPieces_line plain]
    exact .line plain (streamCut_streamPieces rest)
  · by_cases empty : bytes = []
    · rw [empty]
      exact .nothing
    · rw [streamPieces_last newline empty]
      exact .last newline empty
termination_by bytes.length
decreasing_by
  rw [same, List.length_append, List.length_cons]
  omega

theorem streamCut_iff {bytes : List UInt8} {pieces : List (List UInt8)} :
    StreamCut bytes pieces ↔ pieces = streamPieces bytes := by
  constructor
  · intro cut
    induction cut with
    | nothing => rfl
    | last plain filled => rw [streamPieces_last plain filled]
    | line plain _ ih => rw [streamPieces_line plain, ih]
  · rintro rfl
    exact streamCut_streamPieces bytes

end Cuts

section Lines

theorem isLineEnd_iff {c : Char} : isLineEnd c = true ↔ c = '\n' ∨ c = '\r' := by
  rw [isLineEnd, Bool.or_eq_true, beq_iff_eq, beq_iff_eq]

theorem dropLineEnd_append {text ends : List Char} (lineEnds : ∀ c ∈ ends, isLineEnd c = true) :
    dropLineEnd (text ++ ends) = dropLineEnd text := by
  rw [dropLineEnd, List.reverse_append, List.dropWhile_append_of_pos]
  · rfl
  · exact fun c inside => lineEnds c (List.mem_reverse.mp inside)

theorem exists_ends (text : List Char) :
    ∃ ends, text = dropLineEnd text ++ ends ∧ ∀ c ∈ ends, isLineEnd c = true := by
  refine ⟨(text.reverse.takeWhile isLineEnd).reverse, ?_, fun c inside => ?_⟩
  · rw [dropLineEnd, ← List.reverse_append, List.takeWhile_append_dropWhile, List.reverse_reverse]
  · exact List.mem_takeWhile_imp (List.mem_reverse.mp inside)

theorem dropLineEnd_ends {text : List Char} {c : Char}
    (last : (dropLineEnd text).getLast? = some c) : isLineEnd c = false := by
  rw [dropLineEnd, List.getLast?_reverse] at last
  have stays := List.head?_dropWhile_not isLineEnd text.reverse
  rw [last] at stays
  simpa using stays

theorem dropLineEnd_eq_self {text : List Char}
    (ends : ∀ c, text.getLast? = some c → isLineEnd c = false) : dropLineEnd text = text := by
  have stays : text.reverse.dropWhile isLineEnd = text.reverse := by
    cases back : text.reverse with
    | nil => rfl
    | cons c rest =>
        have last : text.getLast? = some c := by
          rw [← List.head?_reverse, back]
          rfl
        rw [List.dropWhile_cons, ends c last]
        rfl
  rw [dropLineEnd, stays, List.reverse_reverse]

theorem isLine_iff {piece : List UInt8} {line : String} :
    IsLine piece line ↔ lineText piece = line := by
  constructor
  · rintro ⟨⟨ends, text, lineEnds⟩, last⟩
    have same : dropLineEnd line.toList = line.toList :=
      dropLineEnd_eq_self (fun c here => Bool.eq_false_iff.mpr (fun isEnd =>
        (isLineEnd_iff.mp isEnd).elim (last c here).1 (last c here).2))
    rw [lineText, text, dropLineEnd_append (fun c inside => isLineEnd_iff.mpr (lineEnds c inside)),
      same, String.ofList_toList]
  · rintro rfl
    obtain ⟨ends, text, lineEnds⟩ := exists_ends (decodeLossy piece)
    refine ⟨⟨ends, ?_, fun c inside => isLineEnd_iff.mp (lineEnds c inside)⟩, fun c last => ?_⟩
    · rw [lineText, String.toList_ofList]
      exact text
    · rw [lineText, String.toList_ofList] at last
      have plain := dropLineEnd_ends last
      exact not_or.mp (fun isEnd => Bool.eq_false_iff.mp plain (isLineEnd_iff.mpr isEnd))

def streamLines (bytes : List UInt8) : List String := (streamPieces bytes).map lineText

theorem linesOf_iff {bytes : List UInt8} {lines : List String} :
    LinesOf bytes lines ↔ lines = streamLines bytes := by
  have each {pieces : List (List UInt8)} :
      List.Forall₂ IsLine pieces lines ↔ pieces.map lineText = lines := by
    have agree : IsLine = fun piece line => lineText piece = line := by
      funext piece line
      exact propext isLine_iff
    rw [agree, ← List.forall₂_eq_eq_eq, List.forall₂_map_left_iff]
  constructor
  · rintro ⟨pieces, cut, agree⟩
    rw [← each.mp agree, streamCut_iff.mp cut, streamLines]
  · rintro rfl
    exact ⟨streamPieces bytes, streamCut_streamPieces bytes, each.mpr rfl⟩

end Lines

section Reading

variable {piece rest left : List UInt8} {line : String}

theorem takeLine_line (plain : 10 ∉ piece) (rest : List UInt8) :
    takeLine (piece ++ 10 :: rest) = (piece ++ [10], rest) := by
  induction piece with
  | nil => rfl
  | cons b others ih =>
      obtain ⟨here, later⟩ := not_or.mp (fun there => plain (List.mem_cons.mpr there))
      rw [List.cons_append, takeLine, if_neg (Ne.symm here), ih later]
      rfl

theorem takeLine_last (plain : 10 ∉ piece) : takeLine piece = (piece, []) := by
  induction piece with
  | nil => rfl
  | cons b others ih =>
      obtain ⟨here, later⟩ := not_or.mp (fun there => plain (List.mem_cons.mpr there))
      rw [takeLine, if_neg (Ne.symm here), ih later]

theorem lineText_newline (piece : List UInt8) : lineText (piece ++ [10]) = lineText piece := by
  rw [lineText, decodeLossy_newline, dropLineEnd_append (fun c inside => ?_)]
  · rfl
  · rw [List.mem_singleton.mp inside]
    rfl

theorem nextLine_line (plain : 10 ∉ piece) (rest : List UInt8) :
    nextLine (piece ++ 10 :: rest) = some (lineText piece, rest) := by
  rw [nextLine, takeLine_line plain]
  cases piece with
  | nil => rfl
  | cons b others =>
      rw [← lineText_newline (b :: others)]
      rfl

theorem nextLine_last (plain : 10 ∉ piece) (filled : piece ≠ []) :
    nextLine piece = some (lineText piece, []) := by
  rw [nextLine, takeLine_last plain]
  cases piece with
  | nil => exact absurd rfl filled
  | cons b others => rfl

theorem streamLines_of_nextLine {bytes : List UInt8} (read : nextLine bytes = some (line, left)) :
    streamLines bytes = line :: streamLines left ∧ left.length < bytes.length := by
  obtain ⟨pieces, cut⟩ : ∃ pieces, StreamCut bytes pieces := ⟨_, streamCut_streamPieces bytes⟩
  cases cut with
  | nothing => cases read
  | last plain filled =>
      rw [nextLine_last plain filled] at read
      obtain ⟨rfl, rfl⟩ := Prod.mk.inj (Option.some.inj read)
      refine ⟨?_, List.length_pos_iff.mpr filled⟩
      rw [streamLines, streamPieces_last plain filled]
      rfl
  | line plain _ =>
      rw [nextLine_line plain] at read
      obtain ⟨rfl, rfl⟩ := Prod.mk.inj (Option.some.inj read)
      constructor
      · rw [streamLines, streamPieces_line plain]
        rfl
      · rw [List.length_append, List.length_cons]
        omega

theorem nextLine_eq_none_iff {bytes : List UInt8} : nextLine bytes = none ↔ bytes = [] := by
  obtain ⟨pieces, cut⟩ : ∃ pieces, StreamCut bytes pieces := ⟨_, streamCut_streamPieces bytes⟩
  cases cut with
  | nothing => exact ⟨fun _ => rfl, fun _ => rfl⟩
  | last plain filled =>
      rw [nextLine_last plain filled]
      exact ⟨fun read => (by cases read), fun empty => absurd empty filled⟩
  | line plain _ =>
      rw [nextLine_line plain]
      exact ⟨fun read => (by cases read), fun empty => (by simp at empty)⟩

end Reading

end PlatformBundle.Text
