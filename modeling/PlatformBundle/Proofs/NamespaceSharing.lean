import PlatformBundle.Proofs.BuiltSettings
import PlatformBundle.Proofs.TextPieces
import PlatformBundle.Proofs.WordRuns
import PlatformBundle.Stitch
/-!
The browser global in the code of a platform that has none. The shared chunk is redirected to the
sharing namespace, so the global can come back only out of the namespace itself. The settings refuse
a namespace that is the global, but a `$` belongs to no word: a namespace that holds the global
between its `$` puts it into every shared artifact, and any other namespace into none.
-/

namespace PlatformBundle

open Text

namespace Text

variable {word : List Char}

theorem not_hasWord_of_no_word {text : List Char} (plain : IsPlainWord word)
    (outside : ∀ c ∈ text, isWord c = false) : ¬ HasWord word text := by
  intro found
  obtain ⟨before, after, rfl, -, -⟩ := (hasWord_iff plain text).mp found
  obtain ⟨filled, all⟩ := plain
  obtain ⟨c, rest, rfl⟩ := List.exists_cons_of_ne_nil filled
  have inside := all c (by simp)
  rw [outside c (by simp)] at inside
  cases inside

theorem seam_of_head {first second : List Char} (outside : ∀ b ∈ second.head?, isWord b = false) :
    Seam first second := by
  intro a _ b head _ inside
  rw [outside b head] at inside
  cases inside

theorem seam_of_last {first second : List Char} (outside : ∀ a ∈ first.getLast?, isWord a = false) :
    Seam first second := by
  intro a last b _ inside _
  rw [outside a last] at inside
  cases inside

theorem seams_of_sep {sep : Char} (apart : isWord sep = false) (first second : List Char) :
    Seam first (sep :: second) ∧ Seam [sep] second :=
  ⟨seam_of_head (by simpa using apart), seam_of_last (by simpa using apart)⟩

theorem hasWord_glue_iff (plain : IsPlainWord word) {sep : Char} (apart : isWord sep = false)
    (parts : List (List Char)) (inside : ∀ part ∈ parts, ∀ c ∈ part, isWord c = true) :
    HasWord word (glue sep parts) ↔ word ∈ parts := by
  induction parts with
  | nil =>
      have nothing : ¬ HasWord word [] := not_hasWord_of_no_word plain (by simp)
      simpa [glue] using nothing
  | cons part others ih =>
      have uniform : Uniform part := by
        intro a left b right
        rw [inside part (by simp) a left, inside part (by simp) b right]
      have alone : HasWord word part ↔ word = part := by
        rw [hasWord_uniform_iff plain uniform, eq_comm]
      cases others with
      | nil => simpa [glue] using alone
      | cons next others =>
          have onlySep : ¬ HasWord word [sep] := not_hasWord_of_no_word plain (by simpa using apart)
          have rest := ih (fun part member => inside part (List.mem_cons_of_mem _ member))
          obtain ⟨before, after⟩ := seams_of_sep apart part (glue sep (next :: others))
          rw [glue, hasWord_append_iff plain before, ← List.singleton_append,
            hasWord_append_iff plain after, rest, alone]
          simp only [onlySep, false_or, List.mem_cons]

-- An ASCII character needs no look at the ranges of the others.
theorem not_isWord_of_ascii {c : Char} (ascii : c.toNat < 128) (outside : isAsciiWord c = false) :
    isWord c = false := by
  have small : ¬ 128 ≤ c.toNat := by omega
  simp [isWord, outside, small]

end Text

namespace Settings

theorem isWord_dollar : isWord '$' = false := not_isWord_of_ascii (by decide) (by decide)

theorem isWord_of_isIdentifierChar {c : Char} (allowed : isIdentifierChar c = true)
    (other : c ≠ '$') : isWord c = true := by
  apply isWord_of_isAsciiWord
  simpa [isIdentifierChar, isAsciiWord, other] using allowed

theorem isIdentifierChar_of_mem {text : String} (identifier : isIdentifier text = true) :
    ∀ c ∈ text.toList, isIdentifierChar c = true := by
  unfold isIdentifier at identifier
  split at identifier
  · cases identifier
  · rename_i c rest chars
    rw [chars]
    obtain ⟨start, others⟩ := Bool.and_eq_true_iff.mp identifier
    intro d member
    rcases List.mem_cons.mp member with rfl | later
    · have begins : d.isAlphanum = true ∨ d = '_' ∨ d = '$' := by
        simp only [isIdentifierStart, Bool.or_eq_true, beq_iff_eq] at start
        rcases start with (letter | other) | other
        · exact Or.inl (by simp [Char.isAlphanum, letter])
        · exact Or.inr (Or.inl other)
        · exact Or.inr (Or.inr other)
      simpa [isIdentifierChar, or_assoc] using begins
    · exact List.all_eq_true.mp others d later

theorem isIdentifier_ne_nil {text : String} (identifier : isIdentifier text = true) :
    text.toList ≠ [] := by
  intro empty
  rw [isIdentifier, empty] at identifier
  cases identifier

namespace Accepted

variable {workdir : RealPath} {settings : Settings}

theorem plainGlobal (accepted : Accepted workdir settings) :
    IsPlainWord settings.browserGlobal.toList := by
  refine ⟨isIdentifier_ne_nil accepted.globalIdentifier, ?_⟩
  intro c member
  apply isWord_of_isIdentifierChar (isIdentifierChar_of_mem accepted.globalIdentifier c member)
  rintro rfl
  exact accepted.globalPlain member

theorem hasWord_namespace_iff (accepted : Accepted workdir settings) {word : List Char}
    (plain : IsPlainWord word) :
    HasWord word settings.sharedNamespace.toList ↔
      word ∈ pieces '$' settings.sharedNamespace.toList := by
  have inside : ∀ part ∈ pieces '$' settings.sharedNamespace.toList, ∀ c ∈ part,
      isWord c = true := by
    intro part member c within
    have listed := mem_of_mem_pieces _ member within
    apply isWord_of_isIdentifierChar
      (isIdentifierChar_of_mem accepted.namespaceIdentifier c listed)
    rintro rfl
    exact sep_not_mem_pieces '$' _ part member within
  have glued := hasWord_glue_iff plain isWord_dollar _ inside
  rwa [glue_pieces] at glued

end Accepted

end Settings

namespace Stitcher

variable {stitcher : Stitcher}

theorem sharedText_eq (noGlobal : stitcher.capabilities.ambientGlobal = false) (chunk : String) :
    stitcher.sharedText chunk = stitcher.declaration ++ stitcher.redirected chunk := by
  simp [sharedText, noGlobal]

theorem toList_redirected (chunk : String) :
    (stitcher.redirected chunk).toList =
      replaceWord stitcher.browserGlobal.toList stitcher.sharedNamespace.toList chunk.toList := by
  rw [redirected, String.toList_ofList]

theorem toList_declaration (stitcher : Stitcher) :
    stitcher.declaration.toList = stitcher.sharedNamespace.toList ++ " = \x7b\x7d;\n".toList := by
  rw [declaration, String.toList_append]

theorem declarationEnd_outside : ∀ c ∈ " = \x7b\x7d;\n".toList, isWord c = false := by
  have ascii : " = \x7b\x7d;\n".toList.all (fun c => c.toNat < 128 && !isAsciiWord c) = true := by
    decide
  intro c member
  have plain := List.all_eq_true.mp ascii c member
  rw [Bool.and_eq_true, decide_eq_true_iff, Bool.not_eq_true'] at plain
  exact not_isWord_of_ascii plain.1 plain.2

theorem hasWord_declaration_iff (stitcher : Stitcher) {word : List Char}
    (plain : IsPlainWord word) :
    HasWord word stitcher.declaration.toList ↔ HasWord word stitcher.sharedNamespace.toList := by
  have seam : Seam stitcher.sharedNamespace.toList " = \x7b\x7d;\n".toList :=
    seam_of_head (fun b head => declarationEnd_outside b (List.mem_of_mem_head? head))
  rw [toList_declaration, hasWord_append_iff plain seam]
  constructor
  · rintro (here | outside)
    · exact here
    · exact absurd outside (not_hasWord_of_no_word plain declarationEnd_outside)
  · exact Or.inl

theorem hasWord_sharedText_iff (noGlobal : stitcher.capabilities.ambientGlobal = false)
    {word : List Char} (plain : IsPlainWord word) (chunk : String) :
    HasWord word (stitcher.sharedText chunk).toList ↔
      HasWord word stitcher.declaration.toList ∨
        HasWord word (stitcher.redirected chunk).toList := by
  have seam : Seam stitcher.declaration.toList (stitcher.redirected chunk).toList := by
    apply seam_of_last
    intro a last
    rw [toList_declaration] at last
    have ending : (" = \x7b\x7d;\n".toList).getLast? = some '\n' := by decide
    rw [List.getLast?_append, ending, Option.some_or] at last
    cases last
    exact not_isWord_of_ascii (by decide) (by decide)
  rw [sharedText_eq noGlobal, String.toList_append, hasWord_append_iff plain seam]

theorem hasWord_redirected_iff {workdir : RealPath} {settings : Settings}
    (accepted : settings.Accepted workdir) (capabilities : Capabilities) (chunk : String) :
    HasWord settings.browserGlobal.toList
        ((ofSettings settings capabilities).redirected chunk).toList ↔
      HasWord settings.browserGlobal.toList chunk.toList ∧
        settings.browserGlobal.toList ∈ pieces '$' settings.sharedNamespace.toList := by
  rw [toList_redirected, ← accepted.hasWord_namespace_iff accepted.plainGlobal]
  exact hasWord_replaceWord_iff _ accepted.plainGlobal chunk.toList

theorem global_in_sharedText_iff {workdir : RealPath} {settings : Settings}
    (accepted : settings.Accepted workdir) {capabilities : Capabilities}
    (noGlobal : capabilities.ambientGlobal = false) (chunk : String) :
    HasWord settings.browserGlobal.toList
        ((ofSettings settings capabilities).sharedText chunk).toList ↔
      settings.browserGlobal.toList ∈ pieces '$' settings.sharedNamespace.toList := by
  have plain := accepted.plainGlobal
  have declared := hasWord_declaration_iff (ofSettings settings capabilities) plain
  rw [hasWord_sharedText_iff noGlobal plain, declared, hasWord_redirected_iff accepted]
  constructor
  · rintro (named | ⟨-, held⟩)
    · exact (accepted.hasWord_namespace_iff plain).mp named
    · exact held
  · intro held
    exact Or.inl ((accepted.hasWord_namespace_iff plain).mpr held)

end Stitcher

open Stitcher Settings in
/-- The global is in the shared artifact of a platform without one exactly when it is one of the
parts between the `$` of the namespace. Then the declaration holds it, whatever the chunk is. -/
theorem shared_artifact_holds_global_iff {workdir : RealPath} {draft : Draft}
    {settings : Settings} (built : draft.build workdir = .ok settings) (platform : Platform)
    (noGlobal : (settings.capabilities platform).ambientGlobal = false) (chunk : String) :
    let stitcher := ofSettings settings (settings.capabilities platform)
    let global := settings.browserGlobal.toList
    let held := global ∈ pieces '$' settings.sharedNamespace.toList
    (HasWord global (stitcher.sharedText chunk).toList ↔ held) ∧
      (HasWord global stitcher.declaration.toList ↔ held) ∧
      (HasWord global (stitcher.redirected chunk).toList ↔ HasWord global chunk.toList ∧ held) := by
  have accepted := build_accepted built
  intro stitcher global held
  refine ⟨global_in_sharedText_iff accepted noGlobal chunk, ?_, ?_⟩
  · rw [hasWord_declaration_iff stitcher accepted.plainGlobal]
    exact accepted.hasWord_namespace_iff accepted.plainGlobal
  · exact hasWord_redirected_iff accepted _ chunk

def dollarDraft : Settings.Draft :=
  { Settings.Draft.blank with appRoot := some ⟨"/app"⟩, sharedNamespace := some "$window" }

/-- With the namespace `$window` the global is in every shared artifact. -/
theorem dollar_namespace_holds_global :
    ∃ settings : Settings, dollarDraft.build [] = .ok settings ∧
      (settings.capabilities ⟨"os"⟩).ambientGlobal = false ∧
      ∀ chunk, HasWord settings.browserGlobal.toList
        ((Stitcher.ofSettings settings
          (settings.capabilities ⟨"os"⟩)).sharedText chunk).toList := by
  have built : dollarDraft.build [] = .ok _ := rfl
  refine ⟨_, built, by decide, fun chunk => ?_⟩
  apply (shared_artifact_holds_global_iff built ⟨"os"⟩ (by decide) chunk).1.mpr
  decide

end PlatformBundle
