import Mathlib.Data.List.TakeDrop
import Mathlib.Data.List.TakeWhile
import PlatformBundle.Text.Pieces
/-!
Pieces of a text and the text glued from them. Pieces without the separator and the glued text
determine each other, and what is looked for in a text of two pieces is found in one of them if it
begins with a mark that the separator is not in. A text that is put together around its first or its
last separator is cut there again.
-/

namespace PlatformBundle

namespace Text

variable {sep : Char}

theorem pieces_of_not_mem {text : List Char} (absent : sep ∉ text) : pieces sep text = [text] := by
  induction text with
  | nil => rfl
  | cons c rest ih =>
      obtain ⟨other, absent⟩ := not_or.mp (fun there => absent (List.mem_cons.mpr there))
      rw [pieces, if_neg (fun same => other same.symm), ih absent]

theorem pieces_append {part : List Char} (absent : sep ∉ part) (rest : List Char) :
    pieces sep (part ++ sep :: rest) = part :: pieces sep rest := by
  induction part with
  | nil => rw [List.nil_append, pieces, if_pos rfl]
  | cons c part ih =>
      obtain ⟨other, absent⟩ := not_or.mp (fun there => absent (List.mem_cons.mpr there))
      rw [List.cons_append, pieces, if_neg (fun same => other same.symm), ih absent]

theorem pieces_join (first second : List Char) :
    pieces sep (first ++ sep :: second) = pieces sep first ++ pieces sep second := by
  induction first with
  | nil => simp [pieces]
  | cons c rest ih =>
      rw [List.cons_append, pieces, pieces, ih]
      split
      · rfl
      · obtain ⟨head, tail, cut⟩ := List.exists_cons_of_ne_nil (pieces_ne_nil sep rest)
        rw [cut]
        rfl

theorem pieces_glue (parts : List (List Char)) (filled : parts ≠ [])
    (apart : ∀ part ∈ parts, sep ∉ part) : pieces sep (glue sep parts) = parts := by
  induction parts with
  | nil => exact absurd rfl filled
  | cons part others ih =>
      cases others with
      | nil => exact pieces_of_not_mem (apart part List.mem_cons_self)
      | cons next others =>
          rw [glue, pieces_append (apart part List.mem_cons_self),
            ih (by simp) (fun part later => apart part (List.mem_cons_of_mem _ later))]

theorem mem_of_mem_pieces (text : List Char) {part : List Char}
    (member : part ∈ pieces sep text) {c : Char} (inside : c ∈ part) : c ∈ text := by
  induction text generalizing part with
  | nil =>
      rw [pieces, List.mem_singleton] at member
      rw [member] at inside
      exact inside
  | cons d rest ih =>
      unfold pieces at member
      split at member
      · rcases List.mem_cons.mp member with rfl | later
        · cases inside
        · exact List.mem_cons_of_mem _ (ih later inside)
      · cases cut : pieces sep rest with
        | nil => exact absurd cut (pieces_ne_nil sep rest)
        | cons first others =>
            rw [cut] at member ih
            rcases List.mem_cons.mp member with rfl | later
            · rcases List.mem_cons.mp inside with rfl | inside
              · exact List.mem_cons_self
              · exact List.mem_cons_of_mem _ (ih List.mem_cons_self inside)
            · exact List.mem_cons_of_mem _ (ih (List.mem_cons_of_mem _ later) inside)

theorem glue_append {first second : List (List Char)} (left : first ≠ []) (right : second ≠ []) :
    glue sep (first ++ second) = glue sep first ++ sep :: glue sep second := by
  induction first with
  | nil => exact absurd rfl left
  | cons part others ih =>
      cases others with
      | nil =>
          obtain ⟨next, rest, rfl⟩ := List.exists_cons_of_ne_nil right
          rfl
      | cons next others =>
          rw [List.cons_append, List.cons_append, glue, glue, ← List.cons_append, ih (by simp)]
          simp

theorem mem_glue (parts : List (List Char)) {c : Char} (member : c ∈ glue sep parts) :
    c = sep ∧ 1 < parts.length ∨ ∃ part ∈ parts, c ∈ part := by
  induction parts with
  | nil => cases member
  | cons part others ih =>
      cases others with
      | nil => exact Or.inr ⟨part, List.mem_cons_self, member⟩
      | cons next others =>
          rw [glue] at member
          rcases List.mem_append.mp member with here | later
          · exact Or.inr ⟨part, List.mem_cons_self, here⟩
          · rcases List.mem_cons.mp later with rfl | there
            · exact Or.inl ⟨rfl, by simp⟩
            · rcases ih there with ⟨same, -⟩ | ⟨other, listed, held⟩
              · exact Or.inl ⟨same, by simp⟩
              · exact Or.inr ⟨other, List.mem_cons_of_mem _ listed, held⟩

theorem differs_of_not_mem {text : List Char} (absent : sep ∉ text) :
    ∀ c ∈ text, (c != sep) = true := by
  intro c member
  exact bne_iff_ne.mpr (fun same => absent (same ▸ member))

theorem cutFirst_append {before : List Char} (absent : sep ∉ before) (after : List Char) :
    cutFirst sep (before ++ sep :: after) = some (before, after) := by
  have passed := differs_of_not_mem absent
  have spanned : (before ++ sep :: after).span (· != sep) = (before, sep :: after) := by
    rw [List.span_eq_takeWhile_dropWhile, List.takeWhile_append_of_pos passed,
      List.dropWhile_append_of_pos passed]
    simp
  rw [cutFirst, spanned]

theorem exists_last_sep {text : List Char} (present : sep ∈ text) :
    ∃ before after, text = before ++ sep :: after ∧ sep ∉ after := by
  induction text with
  | nil => cases present
  | cons c rest ih =>
      by_cases later : sep ∈ rest
      · obtain ⟨before, after, cut, last⟩ := ih later
        exact ⟨c :: before, after, by rw [cut, List.cons_append], last⟩
      · have here : sep = c := (List.mem_cons.mp present).resolve_right later
        exact ⟨[], rest, by rw [here, List.nil_append], later⟩

theorem cutLast_append {after : List Char} (last : sep ∉ after) (before : List Char) :
    cutLast sep (before ++ sep :: after) = some (before, after) := by
  have backwards : (before ++ sep :: after).reverse = after.reverse ++ sep :: before.reverse := by
    simp
  have passed := differs_of_not_mem (fun there => last (List.mem_reverse.mp there))
  have spanned : (before ++ sep :: after).reverse.span (· != sep) =
      (after.reverse, sep :: before.reverse) := by
    rw [backwards, List.span_eq_takeWhile_dropWhile, List.takeWhile_append_of_pos passed,
      List.dropWhile_append_of_pos passed]
    simp
  rw [cutLast, spanned]
  simp only [List.reverse_reverse]

theorem cutLast_of_not_mem {text : List Char} (absent : sep ∉ text) : cutLast sep text = none := by
  have passed := differs_of_not_mem (fun there => absent (List.mem_reverse.mp there))
  rw [cutLast, List.span_eq_takeWhile_dropWhile, List.dropWhile_eq_nil_iff.mpr passed]

theorem infix_skip {c : Char} {front : List Char} (absent : c ∉ front) (rest text : List Char) :
    c :: rest <:+: front ++ text ↔ c :: rest <:+: text := by
  induction front with
  | nil => rfl
  | cons d front ih =>
      obtain ⟨other, absent⟩ := not_or.mp (fun there => absent (List.mem_cons.mpr there))
      rw [List.cons_append, List.infix_cons_iff, ih absent]
      exact or_iff_right (fun ahead => other (List.cons_prefix_cons.mp ahead).1)

/-- A mark without the separator that stands in two texts joined by one stands in one of them. -/
theorem mark_in_line {mark line text front back : List Char} (whole : sep ∉ mark)
    (plain : ¬ mark <:+: text) (cut : line ++ sep :: text = front ++ (mark ++ back)) :
    ∃ rest, line = front ++ (mark ++ rest) ∧ back = rest ++ sep :: text := by
  induction front generalizing line with
  | nil =>
      rw [List.nil_append] at cut
      rcases List.append_eq_append_iff.mp cut with ⟨beyond, crossing, after⟩ | inside
      · cases beyond with
        | nil => exact ⟨[], by simpa using crossing.symm, by simpa using after.symm⟩
        | cons c beyond =>
            obtain ⟨rfl, -⟩ := List.cons.inj after
            exact absurd (by simp [crossing]) whole
      · exact inside
  | cons c front ih =>
      cases line with
      | nil =>
          obtain ⟨-, later⟩ := List.cons.inj cut
          exact absurd ⟨front, back, (List.append_assoc ..).trans later.symm⟩ plain
      | cons d line =>
          obtain ⟨rfl, later⟩ := List.cons.inj cut
          obtain ⟨rest, rfl, after⟩ := ih later
          exact ⟨rest, rfl, after⟩

theorem infix_line_iff {mark line text : List Char} (whole : sep ∉ mark)
    (plain : ¬ mark <:+: text) (needle : List Char) :
    mark ++ needle <:+: line ++ sep :: text ↔
      ∃ front back, line = front ++ (mark ++ back) ∧ needle <+: back ++ sep :: text := by
  constructor
  · rintro ⟨front, after, cut⟩
    rw [List.append_assoc, List.append_assoc] at cut
    obtain ⟨back, here, rest⟩ := mark_in_line whole plain cut.symm
    exact ⟨front, back, here, after, rest⟩
  · rintro ⟨front, back, rfl, after, rest⟩
    exact ⟨front, after, by simp [← rest]⟩

end Text

theorem toList_joinWith (between : String) (sep : Char) (one : between = String.singleton sep)
    (texts : List String) :
    (joinWith between texts).toList = Text.glue sep (texts.map String.toList) := by
  induction texts with
  | nil => rfl
  | cons text others ih =>
      cases others with
      | nil => rfl
      | cons next others =>
          rw [joinWith, String.toList_append, String.toList_append, ih, one]
          simp [Text.glue]

end PlatformBundle
