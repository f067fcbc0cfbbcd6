import Mathlib.Data.List.SplitBy
/-!
The runs of a text under a class of characters: its longest stretches that lie within the class or
outside of it. Every text has exactly one division into such stretches, `runsBy_eq_iff`.
-/

namespace PlatformBundle.Text

variable (inside : Char → Bool)

def runsBy (text : List Char) : List (List Char) := text.splitBy (fun a b => inside a == inside b)

def UniformBy (run : List Char) : Prop := ∀ a ∈ run, ∀ b ∈ run, inside a = inside b

/-- What there is to know of the runs: each is of one class, and the classes alternate. -/
structure IsRunsBy (parts : List (List Char)) : Prop where
  filled : [] ∉ parts
  uniform : ∀ run ∈ parts, UniformBy inside run
  alternating : parts.IsChain
    (fun first second => ∀ a ∈ first, ∀ b ∈ second, inside a ≠ inside b)

variable {inside} {run : List Char} {parts : List (List Char)}

theorem uniformBy_iff :
    UniformBy inside run ↔ run.IsChain (fun a b => (inside a == inside b) = true) := by
  have symmetric : Std.Symm (fun a b : Char => inside a = inside b) := ⟨fun _ _ => Eq.symm⟩
  have transitive : Trans (fun a b : Char => inside a = inside b)
    (fun a b => inside a = inside b) (fun a b => inside a = inside b) := ⟨Eq.trans⟩
  simp only [beq_iff_eq, List.isChain_iff_pairwise]
  constructor
  · intro uniform
    exact List.pairwise_of_forall_mem_list uniform
  · intro pairs a left b right
    exact pairs.forall_of_forall (R := fun a b => inside a = inside b) (fun _ _ => rfl) left right

-- Between two runs it is enough to look at the two characters where they meet.
theorem alternate_iff {first second : List Char} (left : first ≠ []) (right : second ≠ [])
    (before : UniformBy inside first) (after : UniformBy inside second) :
    (∀ a ∈ first, ∀ b ∈ second, inside a ≠ inside b) ↔
      inside (first.getLast left) ≠ inside (second.head right) := by
  constructor
  · intro differ
    exact differ _ (List.getLast_mem left) _ (List.head_mem right)
  · intro differ a here b there
    rwa [before a here _ (List.getLast_mem left), after b there _ (List.head_mem right)]

/-- The runs of a text are its only division into stretches of alternating class. -/
theorem runsBy_eq_iff {text : List Char} :
    runsBy inside text = parts ↔ text = parts.flatten ∧ IsRunsBy inside parts := by
  rw [runsBy, List.splitBy_eq_iff]
  constructor
  · rintro ⟨whole, filled, chains, ends⟩
    have uniform : ∀ run ∈ parts, UniformBy inside run :=
      fun run member => uniformBy_iff.mpr (chains run member)
    refine ⟨whole, filled, uniform, ends.imp_of_mem_imp ?_⟩
    rintro first second here there ⟨left, right, differ⟩
    exact (alternate_iff left right (uniform first here) (uniform second there)).mpr
      (by simpa using differ)
  · rintro ⟨whole, filled, uniform, alternating⟩
    refine ⟨whole, filled, fun run member => uniformBy_iff.mp (uniform run member),
      alternating.imp_of_mem_imp ?_⟩
    intro first second here there differ
    have left : first ≠ [] := fun empty => filled (empty ▸ here)
    have right : second ≠ [] := fun empty => filled (empty ▸ there)
    have ends := (alternate_iff left right (uniform first here) (uniform second there)).mp differ
    exact ⟨left, right, by simpa using ends⟩

theorem runsBy_isRunsBy (text : List Char) : IsRunsBy inside (runsBy inside text) :=
  (runsBy_eq_iff.mp rfl).2

theorem flatten_runsBy (text : List Char) : (runsBy inside text).flatten = text :=
  (runsBy_eq_iff.mp rfl).1.symm

theorem IsRunsBy.tail (isRuns : IsRunsBy inside (run :: parts)) : IsRunsBy inside parts where
  filled := fun empty => isRuns.filled (List.mem_cons_of_mem _ empty)
  uniform := fun part member => isRuns.uniform part (List.mem_cons_of_mem _ member)
  alternating := (List.isChain_cons.mp isRuns.alternating).2

-- The head of the joined runs belongs to the first of them, which is not empty.
theorem IsRunsBy.changes_after (isRuns : IsRunsBy inside (run :: parts)) (a : Char)
    (left : a ∈ run) (b : Char) (right : b ∈ parts.flatten.head?) : inside a ≠ inside b := by
  cases parts with
  | nil => simp at right
  | cons next others =>
      have filled : next ≠ [] := fun empty => isRuns.filled (by simp [empty])
      obtain ⟨c, more, rfl⟩ := List.exists_cons_of_ne_nil filled
      have same : c = b := by simpa using right
      have change := (List.isChain_cons.mp isRuns.alternating).1 (c :: more) rfl
      exact change a left b (by simp [same])

end PlatformBundle.Text
