import PlatformBundle.Proofs.NamespaceSharing
/-!
What becomes of the words and of the variables of a chunk that is redirected to the sharing
namespace. Of the words the browser global alone is exchanged. The name of a variable can also hold
a `$`, which is no word character, so it may be made of several words: it is kept exactly when the
global is none of them.
-/

namespace PlatformBundle

open Text

namespace Text

def isVariableChar (c : Char) : Bool := isWord c || c == '$'

/-- The names in a text, each as long as can be, and what stands between them. -/
def variableRuns (text : List Char) : List (List Char) := runsBy isVariableChar text

def exchange (word new part : List Char) : List Char := if part = word then new else part

/-- A name with each of its parts between `$` exchanged. -/
def renamed (word new name : List Char) : List Char :=
  glue '$' ((pieces '$' name).map (exchange word new))

section Glued

variable {sep : Char} {word new : List Char}

theorem exchange_word (word new : List Char) : exchange word new word = new := if_pos rfl

theorem exchange_other {part : List Char} (other : part ≠ word) : exchange word new part = part :=
  if_neg other

theorem exchange_eq_self_iff (differ : new ≠ word) (part : List Char) :
    exchange word new part = part ↔ part ≠ word := by
  constructor
  · rintro same rfl
    exact differ ((exchange_word part new).symm.trans same)
  · exact exchange_other

theorem replaceWord_glue (new : List Char) (plain : IsPlainWord word) (apart : isWord sep = false)
    (parts : List (List Char)) (uniform : ∀ part ∈ parts, Uniform part) :
    replaceWord word new (glue sep parts) = glue sep (parts.map (exchange word new)) := by
  induction parts with
  | nil => rfl
  | cons part others ih =>
      have first := replaceWord_uniform new plain (uniform part List.mem_cons_self)
      cases others with
      | nil => exact first
      | cons next others =>
          have rest := ih (fun part member => uniform part (List.mem_cons_of_mem _ member))
          obtain ⟨before, after⟩ := seams_of_sep apart part (glue sep (next :: others))
          have kept : replaceWord word new [sep] = [sep] := by
            rw [replaceWord_uniform new plain (by simp [Uniform]), if_neg]
            rintro rfl
            rw [plain.2 sep List.mem_cons_self] at apart
            cases apart
          rw [glue, replaceWord_append new plain before, ← List.singleton_append,
            replaceWord_append new plain after, first, kept, rest]
          rfl

theorem length_glue_cons (sep : Char) (part next : List Char) (others : List (List Char)) :
    (glue sep (part :: next :: others)).length =
      part.length + 1 + (glue sep (next :: others)).length := by
  rw [glue, List.length_append, List.length_cons]
  omega

-- Each exchange changes the length by the same amount, whatever the other parts are.
theorem length_glue_exchanged (sep : Char) (word new : List Char) (parts : List (List Char)) :
    (glue sep (parts.map (exchange word new))).length + parts.count word * word.length =
      (glue sep parts).length + parts.count word * new.length := by
  induction parts with
  | nil => simp [glue]
  | cons part others ih =>
      cases others with
      | nil =>
          by_cases whole : part = word
          · simp [glue, exchange, whole, Nat.add_comm]
          · simp [glue, exchange, whole]
      | cons next others =>
          have lengths := length_glue_cons sep (exchange word new part) (exchange word new next)
            (others.map (exchange word new))
          simp only [List.map_cons] at ih ⊢
          rw [lengths, length_glue_cons]
          by_cases whole : part = word
          · rw [whole, exchange_word, List.count_cons_self, Nat.add_mul, Nat.add_mul]
            omega
          · rw [exchange_other whole, List.count_cons_of_ne whole]
            omega

theorem glue_exchanged_of_same_length (differ : new ≠ word) (length : new.length = word.length)
    (parts : List (List Char))
    (same : glue sep (parts.map (exchange word new)) = glue sep parts) : word ∉ parts := by
  induction parts with
  | nil => simp
  | cons part others ih =>
      have kept := (exchange_eq_self_iff differ part).mp
      cases others with
      | nil => simpa [eq_comm] using kept same
      | cons next others =>
          have level : (exchange word new part).length = part.length := by
            by_cases whole : part = word
            · rw [whole, exchange_word, length]
            · rw [exchange_other whole]
          obtain ⟨first, rest⟩ := List.append_inj same level
          have later := ih (List.cons.inj rest).2
          intro member
          rcases List.mem_cons.mp member with whole | further
          · exact kept first whole.symm
          · exact later further

theorem glue_exchanged_iff (sep : Char) (differ : new ≠ word) (parts : List (List Char)) :
    glue sep (parts.map (exchange word new)) = glue sep parts ↔ word ∉ parts := by
  constructor
  · intro same
    have lengths := length_glue_exchanged sep word new parts
    rw [same, Nat.add_left_cancel_iff] at lengths
    rcases Nat.eq_zero_or_pos (parts.count word) with none | some
    · exact List.count_eq_zero.mp none
    · exact glue_exchanged_of_same_length differ (Nat.eq_of_mul_eq_mul_left some lengths).symm
        parts same
  · intro absent
    have same : parts.map (exchange word new) = parts := by
      refine (List.map_congr_left ?_).trans (List.map_id parts)
      intro part member
      refine exchange_other ?_
      rintro rfl
      exact absent member
    rw [same]

end Glued

section Variables

variable {word new run : List Char}

theorem isVariableChar_of_isWord {c : Char} (inside : isWord c = true) :
    isVariableChar c = true := by
  rw [isVariableChar, inside, Bool.true_or]

theorem isVariableChar_of_ne {c : Char} (other : c ≠ '$') : isVariableChar c = isWord c := by
  simp [isVariableChar, other]

-- A `$` aside, the two classes of characters are one.
theorem uniform_of_mem_pieces (uniform : UniformBy isVariableChar run) :
    ∀ part ∈ pieces '$' run, Uniform part := by
  intro part listed a left b right
  have whole := sep_not_mem_pieces '$' run part listed
  rw [← isVariableChar_of_ne (fun same => whole (same ▸ left)),
    ← isVariableChar_of_ne (fun same => whole (same ▸ right))]
  exact uniform a (mem_of_mem_pieces run listed left) b (mem_of_mem_pieces run listed right)

theorem replaceWord_run (new : List Char) (plain : IsPlainWord word)
    (uniform : UniformBy isVariableChar run) :
    replaceWord word new run = renamed word new run := by
  have glued := replaceWord_glue new plain Settings.isWord_dollar (pieces '$' run)
    (uniform_of_mem_pieces uniform)
  rwa [glue_pieces] at glued

-- Two characters of a word are both of a variable, so a word does not reach into the next run.
theorem seam_after_run {rest : List (List Char)}
    (isRuns : IsRunsBy isVariableChar (run :: rest)) : Seam run rest.flatten := by
  intro a last b head left right
  have change := isRuns.changes_after a (List.mem_of_getLast? last) b head
  rw [isVariableChar_of_isWord left, isVariableChar_of_isWord right] at change
  exact change rfl

theorem replaceWord_runs (new : List Char) (plain : IsPlainWord word) (parts : List (List Char))
    (isRuns : IsRunsBy isVariableChar parts) :
    replaceWord word new parts.flatten = (parts.map (renamed word new)).flatten := by
  induction parts with
  | nil => rfl
  | cons run rest ih =>
      have first := replaceWord_run new plain (isRuns.uniform run List.mem_cons_self)
      rw [List.flatten_cons, replaceWord_append new plain (seam_after_run isRuns), first,
        ih isRuns.tail]
      rfl

theorem renamed_ne_nil (filled : new ≠ []) (some : run ≠ []) : renamed word new run ≠ [] := by
  intro empty
  have listed := pieces_ne_nil '$' run
  have spelled := glue_pieces '$' run
  rw [renamed] at empty
  cases cut : pieces '$' run with
  | nil => exact listed cut
  | cons part others =>
      rw [cut] at empty spelled
      cases others with
      | nil =>
          have same : exchange word new part = [] := empty
          by_cases whole : part = word
          · rw [whole, exchange_word] at same
            exact filled same
          · rw [exchange_other whole] at same
            exact some (spelled.symm.trans same)
      | cons next others => simp [glue] at empty

theorem class_renamed (plain : IsPlainWord word) (named : ∀ c ∈ new, isVariableChar c = true)
    (uniform : UniformBy isVariableChar run) (c : Char) (member : c ∈ renamed word new run)
    (d : Char) (held : d ∈ run) : isVariableChar c = isVariableChar d := by
  rcases mem_glue _ member with ⟨rfl, several⟩ | ⟨part, listed, inside⟩
  · have dollar : '$' ∈ run := by
      by_contra absent
      simp [pieces_of_not_mem absent] at several
    exact uniform '$' dollar d held
  · obtain ⟨piece, cut, rfl⟩ := List.mem_map.mp listed
    by_cases whole : piece = word
    · rw [whole, exchange_word] at inside
      obtain ⟨e, rest, spelled⟩ := List.exists_cons_of_ne_nil plain.1
      have first : e ∈ piece := by simp [whole, spelled]
      have ofName : isVariableChar e = true :=
        isVariableChar_of_isWord (plain.2 e (whole ▸ first))
      rw [named c inside, ← uniform e (mem_of_mem_pieces run cut first) d held, ofName]
    · rw [exchange_other whole] at inside
      exact uniform c (mem_of_mem_pieces run cut inside) d held

theorem variableRuns_replaceWord (plain : IsPlainWord word) (filled : new ≠ [])
    (named : ∀ c ∈ new, isVariableChar c = true) (text : List Char) :
    variableRuns (replaceWord word new text) = (variableRuns text).map (renamed word new) := by
  have isRuns : IsRunsBy isVariableChar (variableRuns text) := runsBy_isRunsBy text
  have whole := replaceWord_runs new plain _ isRuns
  rw [variableRuns, flatten_runsBy] at whole
  have kept : ∀ run ∈ variableRuns text, ∃ d ∈ run, ∀ c ∈ renamed word new run,
      isVariableChar c = isVariableChar d := by
    intro run listed
    obtain ⟨d, rest, rfl⟩ := List.exists_cons_of_ne_nil
      (fun none : run = [] => isRuns.filled (none ▸ listed))
    exact ⟨d, List.mem_cons_self, fun c member =>
      class_renamed plain named (isRuns.uniform _ listed) c member d List.mem_cons_self⟩
  refine runsBy_eq_iff.mpr ⟨whole, ?_, ?_, ?_⟩
  · intro empty
    obtain ⟨run, listed, same⟩ := List.mem_map.mp empty
    exact renamed_ne_nil filled (fun none => isRuns.filled (none ▸ listed)) same
  · intro part member a left b right
    obtain ⟨run, listed, rfl⟩ := List.mem_map.mp member
    obtain ⟨d, -, same⟩ := kept run listed
    exact (same a left).trans (same b right).symm
  · refine (List.isChain_map _).mpr (isRuns.alternating.imp_of_mem_imp ?_)
    intro first second here there differ a left b right
    obtain ⟨c, inFirst, sameFirst⟩ := kept first here
    obtain ⟨d, inSecond, sameSecond⟩ := kept second there
    rw [sameFirst a left, sameSecond b right]
    exact differ c inFirst d inSecond

theorem renamed_eq_self_iff (differ : new ≠ word) (name : List Char) :
    renamed word new name = name ↔ word ∉ pieces '$' name := by
  have glued := glue_exchanged_iff '$' differ (pieces '$' name)
  rwa [glue_pieces] at glued

end Variables

end Text

namespace Settings.Accepted

variable {workdir : RealPath} {settings : Settings}

theorem isVariableChar_namespace (accepted : Accepted workdir settings) :
    ∀ c ∈ settings.sharedNamespace.toList, isVariableChar c = true := by
  intro c member
  have allowed := isIdentifierChar_of_mem accepted.namespaceIdentifier c member
  by_cases dollar : c = '$'
  · simp [isVariableChar, dollar]
  · exact isVariableChar_of_isWord (isWord_of_isIdentifierChar allowed dollar)

theorem namesDiffer_toList (accepted : Accepted workdir settings) :
    settings.sharedNamespace.toList ≠ settings.browserGlobal.toList :=
  fun same => accepted.namesDiffer (String.toList_inj.mp same)

end Settings.Accepted

open Stitcher Settings in
/-- The shared artifact of a platform without a global is the declaration and then the runs of the
chunk in their order, the runs that are the global exchanged for the namespace and the others as
they are. -/
theorem shared_artifact_by_words {workdir : RealPath} {draft : Draft} {settings : Settings}
    (built : draft.build workdir = .ok settings) {capabilities : Capabilities}
    (noGlobal : capabilities.ambientGlobal = false) (chunk : String) :
    let global := settings.browserGlobal.toList
    let sharing := settings.sharedNamespace.toList
    (∀ parts, runs chunk.toList = parts ↔ chunk.toList = parts.flatten ∧ IsRuns parts) ∧
      ((ofSettings settings capabilities).sharedText chunk).toList =
        sharing ++ " = \x7b\x7d;\n".toList ++
          (runs chunk.toList).flatMap (fun run => if run = global then sharing else run) := by
  intro global sharing
  refine ⟨fun parts => runs_eq_iff, ?_⟩
  rw [sharedText_eq noGlobal, String.toList_append, toList_declaration, toList_redirected]
  congr 1
  exact replaceWord_eq_flatMap sharing (build_accepted built).plainGlobal chunk.toList

def rootedDraft : Settings.Draft :=
  { Settings.Draft.blank with appRoot := some ⟨"/app"⟩ }

def sharedDraft : Settings.Draft := { rootedDraft with sharedNamespace := some "$shared" }

/-- The global at both ends, on both sides of a `$`, and in a longer word. -/
theorem shared_artifact_beside_dollars :
    ∃ settings : Settings, sharedDraft.build [] = .ok settings ∧
      (settings.capabilities ⟨"os"⟩).ambientGlobal = false ∧
      ((Stitcher.ofSettings settings (settings.capabilities ⟨"os"⟩)).sharedText
          "window$window;\u00e9window.window").toList =
        "$shared = \x7b\x7d;\n$shared$$shared;\u00e9window.$shared".toList := by
  have built : sharedDraft.build [] = .ok _ := rfl
  refine ⟨_, built, by decide, ?_⟩
  rw [(shared_artifact_by_words built (by decide) _).2]
  decide

open Stitcher Settings in
/-- The names of the redirected chunk are, one for one and in their order, those of the chunk, with
the namespace in place of each part between `$` that is the global; a name is kept exactly when
none of its parts is. -/
theorem other_variables_kept {workdir : RealPath} {draft : Draft} {settings : Settings}
    (built : draft.build workdir = .ok settings) {capabilities : Capabilities}
    (noGlobal : capabilities.ambientGlobal = false) (chunk : String) :
    let stitcher := ofSettings settings capabilities
    let global := settings.browserGlobal.toList
    let rename := renamed global settings.sharedNamespace.toList
    stitcher.sharedText chunk = stitcher.declaration ++ stitcher.redirected chunk ∧
      variableRuns (stitcher.redirected chunk).toList = (variableRuns chunk.toList).map rename ∧
      ∀ name, rename name = name ↔ global ∉ pieces '$' name := by
  have accepted := build_accepted built
  intro stitcher global rename
  refine ⟨sharedText_eq noGlobal chunk, ?_, ?_⟩
  · rw [toList_redirected]
    exact variableRuns_replaceWord accepted.plainGlobal
      (isIdentifier_ne_nil accepted.namespaceIdentifier) accepted.isVariableChar_namespace
      chunk.toList
  · exact renamed_eq_self_iff accepted.namesDiffer_toList

/-- Longer words and names with a `$` of their own are kept beside the global. -/
theorem other_variables_beside_global :
    ∃ settings : Settings, rootedDraft.build [] = .ok settings ∧
      (settings.capabilities ⟨"os"⟩).ambientGlobal = false ∧
      variableRuns ((Stitcher.ofSettings settings (settings.capabilities ⟨"os"⟩)).redirected
          "windowed=$jquery(window)").toList =
        ["windowed", "=", "$jquery", "(", "RocketModule", ")"].map String.toList := by
  have built : rootedDraft.build [] = .ok _ := rfl
  refine ⟨_, built, by decide, ?_⟩
  rw [(other_variables_kept built (by decide) _).2.1]
  decide

/-- A `$` in front of the global makes another variable of it, which is renamed all the same. -/
theorem dollar_variable_is_renamed :
    ∃ settings : Settings, rootedDraft.build [] = .ok settings ∧
      (settings.capabilities ⟨"os"⟩).ambientGlobal = false ∧
      "$window".toList ∈ variableRuns "$window = 1;".toList ∧
      "$window".toList ≠ settings.browserGlobal.toList ∧
      ¬ "$window".toList <:+: ((Stitcher.ofSettings settings
        (settings.capabilities ⟨"os"⟩)).sharedText "$window = 1;").toList := by
  have built : rootedDraft.build [] = .ok _ := rfl
  refine ⟨_, built, by decide, by decide, by decide, ?_⟩
  rw [← occursIn_iff]
  decide

end PlatformBundle
