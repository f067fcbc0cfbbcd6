import PlatformBundle.Proofs.ClassRuns
import PlatformBundle.Text.Replace
/-!
Words and the runs of a text. A run is a longest stretch of word characters, or of other
characters. A plain word stands in a text exactly where it is one of the text's runs, and replacing
the word exchanges these runs and no other: `replaceWord_eq_flatMap`. The same holds of every way
to cut a text that cuts no word, so texts that meet at such a place can be rewritten one by one:
`replaceWord_append`. What was put in can hold the word again, but never together with its
surroundings: `hasWord_replaceWord_iff`.
-/

namespace PlatformBundle.Text

def HasWord (word text : List Char) : Prop :=
  ∃ before after, text = before ++ word ++ after ∧
    isBoundary before.getLast? word.head? = true ∧ isBoundary word.getLast? after.head? = true

def IsPlainWord (word : List Char) : Prop := word ≠ [] ∧ ∀ c ∈ word, isWord c = true

def sameClass (a b : Char) : Bool := isWord a == isWord b

def runs (text : List Char) : List (List Char) := text.splitBy sameClass

def Uniform (run : List Char) : Prop := ∀ a ∈ run, ∀ b ∈ run, isWord a = isWord b

/-- No word reaches across the place where the two texts meet. -/
def Seam (first second : List Char) : Prop :=
  ∀ a ∈ first.getLast?, ∀ b ∈ second.head?, isWord a = true → isWord b = true → False

theorem any_isWord_head? {word : List Char} (plain : IsPlainWord word) :
    word.head?.any isWord = true := by
  obtain ⟨filled, all⟩ := plain
  cases word with
  | nil => exact absurd rfl filled
  | cons c rest => exact all c (by simp)

theorem any_isWord_getLast? {word : List Char} (plain : IsPlainWord word) :
    word.getLast?.any isWord = true := by
  obtain ⟨filled, all⟩ := plain
  rw [List.getLast?_eq_some_getLast filled]
  exact all _ (List.getLast_mem filled)

theorem isBoundary_before_iff {word : List Char} (plain : IsPlainWord word) (before : Option Char) :
    isBoundary before word.head? = true ↔ before.any isWord = false := by
  simp [isBoundary, any_isWord_head? plain]

theorem isBoundary_after_iff {word : List Char} (plain : IsPlainWord word) (after : Option Char) :
    isBoundary word.getLast? after = true ↔ after.any isWord = false := by
  simp [isBoundary, any_isWord_getLast? plain]

-- For a plain word a boundary says no more than that the neighbour is no word character.
theorem hasWord_iff {word : List Char} (plain : IsPlainWord word) (text : List Char) :
    HasWord word text ↔ ∃ before after, text = before ++ word ++ after ∧
      before.getLast?.any isWord = false ∧ after.head?.any isWord = false := by
  simp only [HasWord, isBoundary_before_iff plain, isBoundary_after_iff plain]

theorem hasWord_append_left {word first : List Char} (plain : IsPlainWord word)
    (second : List Char) (seam : Seam first second) (here : HasWord word first) :
    HasWord word (first ++ second) := by
  obtain ⟨before, after, rfl, left, right⟩ := (hasWord_iff plain first).mp here
  refine (hasWord_iff plain _).mpr ⟨before, after ++ second, by simp, left, ?_⟩
  cases after with
  | cons c rest => simpa using right
  | nil =>
      cases second with
      | nil => rfl
      | cons d rest =>
          obtain ⟨filled, all⟩ := plain
          have last : (before ++ word ++ []).getLast? = some (word.getLast filled) := by
            simp [List.getLast?_append, List.getLast?_eq_some_getLast filled]
          have outside := seam _ last d rfl (all _ (List.getLast_mem filled))
          simpa using outside

theorem hasWord_append_right {word second : List Char} (plain : IsPlainWord word)
    (first : List Char) (seam : Seam first second) (there : HasWord word second) :
    HasWord word (first ++ second) := by
  obtain ⟨before, after, rfl, left, right⟩ := (hasWord_iff plain second).mp there
  refine (hasWord_iff plain _).mpr ⟨first ++ before, after, by simp, ?_, right⟩
  rcases before.eq_nil_or_concat with rfl | ⟨rest, c, rfl⟩
  · rcases first.eq_nil_or_concat with rfl | ⟨rest, c, rfl⟩
    · rfl
    · obtain ⟨filled, all⟩ := plain
      cases word with
      | nil => exact absurd rfl filled
      | cons d word =>
          have outside := fun inside => seam c (by simp) d (by simp) inside (all d (by simp))
          simpa using outside
  · simpa using left

-- An occurrence either lies on one side of the seam or has a character on each side of it.
theorem hasWord_append_iff {word first second : List Char} (plain : IsPlainWord word)
    (seam : Seam first second) :
    HasWord word (first ++ second) ↔ HasWord word first ∨ HasWord word second := by
  constructor
  · intro found
    obtain ⟨before, after, whole, left, right⟩ := (hasWord_iff plain _).mp found
    rcases List.append_eq_append_iff.mp whole with ⟨middle, reach, rest⟩ | ⟨middle, reach, rest⟩
    · rcases List.append_eq_append_iff.mp reach with ⟨cut, front, parts⟩ | ⟨cut, front, parts⟩
      · subst front rest
        rcases cut.eq_nil_or_concat with rfl | ⟨_, c, rfl⟩
        · simp only [List.nil_append] at parts
          subst parts
          exact Or.inr ((hasWord_iff plain _).mpr ⟨[], after, rfl, rfl, right⟩)
        · cases middle with
          | nil =>
              simp only [List.append_nil] at parts
              subst parts
              exact Or.inl ((hasWord_iff plain _).mpr ⟨before, [], by simp, left, rfl⟩)
          | cons d _ =>
              have onLeft := plain.2 c (by simp [parts])
              have onRight := plain.2 d (by simp [parts])
              exact absurd onRight (fun inside => seam c (by simp) d (by simp) onLeft inside)
      · subst front parts rest
        refine Or.inr ((hasWord_iff plain _).mpr ⟨cut, after, by simp, ?_, right⟩)
        rcases cut.eq_nil_or_concat with rfl | ⟨_, c, rfl⟩
        · rfl
        · simpa using left
    · subst rest
      refine Or.inl ((hasWord_iff plain _).mpr ⟨before, middle, reach, left, ?_⟩)
      cases middle with
      | nil => rfl
      | cons c _ => simpa using right
  · rintro (here | there)
    · exact hasWord_append_left plain second seam here
    · exact hasWord_append_right plain first seam there

/-- In a text of one class of characters a plain word stands only when it is the whole text. -/
theorem hasWord_uniform_iff {word run : List Char} (plain : IsPlainWord word)
    (uniform : Uniform run) : HasWord word run ↔ run = word := by
  constructor
  · intro found
    obtain ⟨before, after, rfl, left, right⟩ := (hasWord_iff plain _).mp found
    obtain ⟨filled, all⟩ := plain
    obtain ⟨c, rest, rfl⟩ := List.exists_cons_of_ne_nil filled
    have inside := all c (by simp)
    have noneBefore : before = [] := by
      rcases before.eq_nil_or_concat with empty | ⟨front, d, rfl⟩
      · exact empty
      · have same := uniform d (by simp) c (by simp)
        simp [same, inside] at left
    have noneAfter : after = [] := by
      cases after with
      | nil => rfl
      | cons d _ =>
          have same := uniform d (by simp) c (by simp)
          simp [same, inside] at right
    simp [noneBefore, noneAfter]
  · rintro rfl
    exact (hasWord_iff plain _).mpr ⟨[], [], by simp, rfl, rfl⟩

theorem hasWord_self {word : List Char} (plain : IsPlainWord word) : HasWord word word :=
  (hasWord_iff plain _).mpr ⟨[], [], by simp, rfl, rfl⟩

/-- What there is to know of the runs of a text: each is of one class, and the classes alternate. -/
structure IsRuns (parts : List (List Char)) : Prop where
  filled : [] ∉ parts
  uniform : ∀ run ∈ parts, Uniform run
  alternating : parts.IsChain (fun first second => ∀ a ∈ first, ∀ b ∈ second, isWord a ≠ isWord b)

theorem isRuns_iff {parts : List (List Char)} : IsRuns parts ↔ IsRunsBy isWord parts :=
  ⟨fun isRuns => ⟨isRuns.filled, isRuns.uniform, isRuns.alternating⟩,
    fun isRuns => ⟨isRuns.filled, isRuns.uniform, isRuns.alternating⟩⟩

theorem runs_eq_iff {text : List Char} {parts : List (List Char)} :
    runs text = parts ↔ text = parts.flatten ∧ IsRuns parts := by
  rw [isRuns_iff]
  exact runsBy_eq_iff

theorem runs_isRuns (text : List Char) : IsRuns (runs text) := (runs_eq_iff.mp rfl).2

theorem flatten_runs (text : List Char) : (runs text).flatten = text :=
  (runs_eq_iff.mp rfl).1.symm

theorem isRuns_tail {run : List Char} {rest : List (List Char)} (isRuns : IsRuns (run :: rest)) :
    IsRuns rest :=
  isRuns_iff.mpr (isRuns_iff.mp isRuns).tail

/-- A text cut into parts of one class each, with no word across two of them. -/
structure IsCut (parts : List (List Char)) : Prop where
  filled : [] ∉ parts
  uniform : ∀ part ∈ parts, Uniform part
  seams : parts.IsChain Seam

theorem IsRuns.isCut {parts : List (List Char)} (isRuns : IsRuns parts) : IsCut parts where
  filled := isRuns.filled
  uniform := isRuns.uniform
  seams := by
    refine isRuns.alternating.imp ?_
    intro first second differ a last b head left right
    have change := differ a (List.mem_of_getLast? last) b (List.mem_of_mem_head? head)
    exact change (left.trans right.symm)

namespace IsCut

variable {part : List Char} {parts rest : List (List Char)}

theorem tail (isCut : IsCut (part :: rest)) : IsCut rest where
  filled := fun empty => isCut.filled (List.mem_cons_of_mem _ empty)
  uniform := fun other member => isCut.uniform other (List.mem_cons_of_mem _ member)
  seams := (List.isChain_cons.mp isCut.seams).2

-- The head of the joined parts belongs to the first of them, which is not empty.
theorem seam_after (isCut : IsCut (part :: rest)) : Seam part rest.flatten := by
  cases rest with
  | nil => exact fun _ _ _ head => by cases head
  | cons next others =>
      have filled : next ≠ [] := fun empty => isCut.filled (by simp [empty])
      obtain ⟨c, more, rfl⟩ := List.exists_cons_of_ne_nil filled
      exact (List.isChain_cons.mp isCut.seams).1 (c :: more) rfl

theorem append {first second : List (List Char)} (left : IsCut first) (right : IsCut second)
    (seam : Seam first.flatten second.flatten) : IsCut (first ++ second) where
  filled := by
    intro empty
    rcases List.mem_append.mp empty with before | after
    · exact left.filled before
    · exact right.filled after
  uniform := by
    intro part member
    rcases List.mem_append.mp member with before | after
    · exact left.uniform part before
    · exact right.uniform part after
  seams := by
    refine List.isChain_append.mpr ⟨left.seams, right.seams, ?_⟩
    intro before last after head a ending b start
    obtain ⟨front, rfl⟩ := List.getLast?_eq_some_iff.mp last
    obtain ⟨back, rfl⟩ := List.head?_eq_some_iff.mp head
    refine seam a ?_ b ?_
    · rw [List.flatten_append, List.getLast?_append]
      simp [show before.getLast? = some a from ending]
    · rw [List.flatten_cons, List.head?_append]
      simp [show after.head? = some b from start]

end IsCut

section Replacing

variable {word : List Char} (new : List Char)

theorem getLast?_cons_or (c : Char) (rest : List Char) (before : Option Char) :
    (c :: rest).getLast?.or before = rest.getLast?.or (some c) := by
  rw [List.getLast?_cons]
  cases rest.getLast? <;> rfl

theorem replaceFrom_skip (skipped text : List Char) (before : Option Char) :
    replaceFrom word new skipped.length before (skipped ++ text) =
      replaceFrom word new 0 (skipped.getLast?.or before) text := by
  induction skipped generalizing before with
  | nil => rfl
  | cons c rest ih =>
      rw [List.length_cons, List.cons_append, replaceFrom, ih, getLast?_cons_or]

theorem not_standsHere_inside (plain : IsPlainWord word) (before c : Char) (text : List Char)
    (same : isWord before = isWord c) : standsHere word (some before) (c :: text) = false := by
  obtain ⟨filled, all⟩ := plain
  obtain ⟨first, rest, rfl⟩ := List.exists_cons_of_ne_nil filled
  by_cases inside : isWord c = true
  · simp [standsHere, isBoundary, same, inside]
  · have differ : first ≠ c := fun equal => inside (equal ▸ all first (by simp))
    simp [standsHere, differ]

theorem replaceFrom_inside (plain : IsPlainWord word) (run text : List Char) (before : Char)
    (same : ∀ c ∈ run, isWord before = isWord c) :
    replaceFrom word new 0 (some before) (run ++ text) =
      run ++ replaceFrom word new 0 (run.getLast?.or (some before)) text := by
  induction run generalizing before with
  | nil => rfl
  | cons c rest ih =>
      have outside := not_standsHere_inside plain before c (rest ++ text) (same c (by simp))
      have next := ih c (fun d member =>
        (same c (by simp)).symm.trans (same d (List.mem_cons_of_mem _ member)))
      simp only [List.cons_append, replaceFrom, outside, next, getLast?_cons_or,
        Bool.false_eq_true, if_false]

theorem standsHere_run (plain : IsPlainWord word) (before : Option Char) (c : Char)
    (run text : List Char) (uniform : Uniform (c :: run))
    (apart : ∀ b ∈ before, isWord b = true → isWord c = true → False)
    (ends : ∀ b ∈ text.head?, ∀ a ∈ c :: run, isWord a = true → isWord b = true → False) :
    standsHere word before (c :: run ++ text) = decide (c :: run = word) := by
  by_cases whole : c :: run = word
  · subst whole
    have inside := plain.2 c (by simp)
    have left : isBoundary before (c :: run).head? = true := by
      refine (isBoundary_before_iff plain before).mpr ?_
      cases before with
      | none => rfl
      | some b => simpa [inside] using apart b rfl
    have right : isBoundary (c :: run).getLast? text.head? = true := by
      refine (isBoundary_after_iff plain text.head?).mpr ?_
      cases text with
      | nil => rfl
      | cons b _ => simpa [inside] using ends b rfl c (by simp)
    simpa [standsHere] using ⟨left, right⟩
  · rw [decide_eq_false whole, Bool.eq_false_iff]
    intro stands
    simp only [standsHere, Bool.and_eq_true, List.isPrefixOf_iff_prefix] at stands
    obtain ⟨⟨⟨more, front⟩, _⟩, right⟩ := stands
    rw [isBoundary_after_iff plain] at right
    have inside : isWord c = true := by
      obtain ⟨d, rest, rfl⟩ := List.exists_cons_of_ne_nil plain.1
      obtain ⟨rfl, _⟩ := List.cons.inj front
      exact plain.2 d (by simp)
    rcases List.append_eq_append_iff.mp front with ⟨left, reach, rest⟩ | ⟨left, reach, rest⟩
    · cases left with
      | nil => exact whole (by simpa using reach)
      | cons d _ =>
          have same := uniform d (by simp [reach]) c (by simp)
          rw [← front] at right
          simp [rest, same, inside] at right
    · cases left with
      | nil => exact whole (by simpa using reach.symm)
      | cons d _ =>
          have member := plain.2 d (by simp [reach])
          exact ends d (by simp [rest]) c (by simp) inside member

-- The induction is on the parts; what it needs of `before` is that no word goes on behind it.
theorem replaceFrom_flatten (plain : IsPlainWord word) (parts : List (List Char))
    (isCut : IsCut parts) (before : Option Char)
    (apart : ∀ b ∈ before, ∀ a ∈ parts.flatten.head?, isWord b = true → isWord a = true → False) :
    replaceFrom word new 0 before parts.flatten =
      parts.flatMap (fun part => if part = word then new else part) := by
  induction parts generalizing before with
  | nil => rfl
  | cons part rest ih =>
      have filled : part ≠ [] := fun empty => isCut.filled (by simp [empty])
      obtain ⟨c, part, rfl⟩ := List.exists_cons_of_ne_nil filled
      have uniform := isCut.uniform (c :: part) (by simp)
      have lastOf : part.getLast?.or (some c) = (c :: part).getLast? := by
        rw [← getLast?_cons_or c part none, Option.or_none]
      have next := ih isCut.tail (part.getLast?.or (some c)) (by
        rw [lastOf]
        exact isCut.seam_after)
      -- All characters of the part are of one class, so what holds of its last holds of each.
      have ends : ∀ b ∈ rest.flatten.head?, ∀ a ∈ c :: part,
          isWord a = true → isWord b = true → False := by
        intro b head a member left right
        obtain ⟨last, ending⟩ := Option.ne_none_iff_exists'.mp
          (fun none => filled (List.getLast?_eq_none_iff.mp none))
        have same := uniform a member last (List.mem_of_getLast? ending)
        exact isCut.seam_after last ending b head (same ▸ left) right
      have stands := standsHere_run plain before c part rest.flatten uniform
        (fun b here => apart b here c (by simp)) ends
      simp only [List.flatten_cons, List.flatMap_cons]
      by_cases whole : c :: part = word
      · have length : word.length - 1 = part.length := by simp [← whole]
        simp only [List.cons_append] at stands ⊢
        rw [replaceFrom, stands]
        simp only [whole, decide_true, if_true, length, replaceFrom_skip, next]
      · have inside := replaceFrom_inside new plain part rest.flatten c
          (fun d member => uniform c (by simp) d (List.mem_cons_of_mem _ member))
        simp only [List.cons_append] at stands ⊢
        rw [replaceFrom, stands]
        simp only [whole, decide_false, Bool.false_eq_true, if_false, inside, next,
          List.cons_append]

theorem replaceWord_flatten (plain : IsPlainWord word) {parts : List (List Char)}
    (isCut : IsCut parts) : replaceWord word new parts.flatten =
      parts.flatMap (fun part => if part = word then new else part) :=
  replaceFrom_flatten new plain parts isCut none (by simp)

theorem replaceWord_eq_flatMap (plain : IsPlainWord word) (text : List Char) :
    replaceWord word new text =
      (runs text).flatMap (fun run => if run = word then new else run) := by
  have whole := replaceWord_flatten new plain (runs_isRuns text).isCut
  rwa [flatten_runs] at whole

/-- Two texts with no word across the place where they meet are rewritten one by one. -/
theorem replaceWord_append (plain : IsPlainWord word) {first second : List Char}
    (seam : Seam first second) :
    replaceWord word new (first ++ second) =
      replaceWord word new first ++ replaceWord word new second := by
  have isCut : IsCut (runs first ++ runs second) := by
    refine (runs_isRuns first).isCut.append (runs_isRuns second).isCut ?_
    rwa [flatten_runs, flatten_runs]
  have whole := replaceWord_flatten new plain isCut
  rw [List.flatten_append, flatten_runs, flatten_runs, List.flatMap_append] at whole
  rw [whole, replaceWord_eq_flatMap new plain first, replaceWord_eq_flatMap new plain second]

theorem replaceWord_uniform (plain : IsPlainWord word) {run : List Char} (uniform : Uniform run) :
    replaceWord word new run = if run = word then new else run := by
  cases run with
  | nil =>
      have other : [] ≠ word := plain.1.symm
      rw [if_neg other]
      rfl
  | cons c rest =>
      have isCut : IsCut [c :: rest] := ⟨by simp, by simpa using uniform, by simp⟩
      simpa using replaceWord_flatten new plain isCut

end Replacing

section Redirected

variable {word : List Char} (new : List Char)

-- At a seam between two runs one side is no word character, whatever was put in on the other.
theorem seam_exchanged (plain : IsPlainWord word) (run : List Char) (rest : List (List Char))
    (isRuns : IsRuns (run :: rest)) :
    Seam (if run = word then new else run)
      (rest.flatMap (fun run => if run = word then new else run)) := by
  intro a last b first left right
  have filled : run ≠ [] := fun empty => isRuns.filled (by simp [empty])
  obtain ⟨c, more, rfl⟩ := List.exists_cons_of_ne_nil filled
  by_cases inside : isWord c = true
  · cases rest with
    | nil => simp at first
    | cons next others =>
        have filled' : next ≠ [] := fun empty => isRuns.filled (by simp [empty])
        obtain ⟨d, tail, rfl⟩ := List.exists_cons_of_ne_nil filled'
        have outside := (isRuns_iff.mp isRuns).changes_after c (by simp) d (by simp)
        have kept : ¬ d :: tail = word := fun same =>
          outside (inside.trans (plain.2 d (by simp [← same])).symm)
        rw [List.flatMap_cons, if_neg kept] at first
        have same : d = b := by simpa using first
        exact outside (inside.trans (same ▸ right).symm)
  · have kept : ¬ c :: more = word := fun same => inside (plain.2 c (by simp [← same]))
    rw [if_neg kept] at last
    have same := isRuns.uniform (c :: more) (by simp) a (List.mem_of_getLast? last) c (by simp)
    exact inside (same ▸ left)

theorem hasWord_flatMap_iff (plain : IsPlainWord word) (parts : List (List Char))
    (isRuns : IsRuns parts) :
    HasWord word (parts.flatMap (fun run => if run = word then new else run)) ↔
      word ∈ parts ∧ HasWord word new := by
  induction parts with
  | nil =>
      have nowhere : ¬ HasWord word [] := by
        rintro ⟨before, after, whole, _⟩
        exact plain.1 (by simp_all)
      simp [nowhere]
  | cons run rest ih =>
      rw [List.flatMap_cons, hasWord_append_iff plain (seam_exchanged new plain run rest isRuns),
        ih (isRuns_tail isRuns)]
      by_cases whole : run = word
      · subst whole
        simp only [if_true, List.mem_cons, true_or, true_and, or_iff_left_iff_imp]
        exact And.right
      · have other : ¬ HasWord word run := fun found =>
          whole ((hasWord_uniform_iff plain (isRuns.uniform run (by simp))).mp found)
        simp [whole, other, Ne.symm whole]

/-- A plain word stands in a text exactly where it is a run. -/
theorem hasWord_iff_mem_runs (plain : IsPlainWord word) (text : List Char) :
    HasWord word text ↔ word ∈ runs text := by
  have exchanged := hasWord_flatMap_iff word plain (runs text) (runs_isRuns text)
  have same (run : List Char) : (if run = word then word else run) = run := by
    split
    · rename_i whole
      exact whole.symm
    · rfl
  simp only [same, List.flatMap_id', flatten_runs] at exchanged
  simpa [hasWord_self plain] using exchanged

theorem hasWord_replaceWord_iff (plain : IsPlainWord word) (text : List Char) :
    HasWord word (replaceWord word new text) ↔ HasWord word text ∧ HasWord word new := by
  rw [replaceWord_eq_flatMap new plain, hasWord_iff_mem_runs plain text]
  exact hasWord_flatMap_iff new plain (runs text) (runs_isRuns text)

end Redirected

end PlatformBundle.Text
