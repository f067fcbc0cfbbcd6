import PlatformBundle.Disk.Lookup
/-!
Walks over a file tree that come to an end without a fault, as a relation with one rule for each
kind of step. What is said of walks is said by induction on these rules: `walk_ok_iff`.
-/

namespace PlatformBundle.Disk

structure IsEntryName (name : String) : Prop where
  notHere : name ≠ "."
  notUp : name ≠ ".."
  short : name.utf8ByteSize ≤ longestName

inductive Walks (tree : FileTree) (follow : Bool) :
    Nat → RealPath → List String → Place → Prop where
  | done {budget : Nat} {directory : RealPath} :
      Walks tree follow budget directory [] (.present directory .directory)
  | here {budget : Nat} {directory : RealPath} {rest : List String} {place : Place}
      (onward : Walks tree follow budget directory rest place) :
      Walks tree follow budget directory ("." :: rest) place
  | up {budget : Nat} {directory : RealPath} {rest : List String} {place : Place}
      (onward : Walks tree follow budget directory.dropLast rest place) :
      Walks tree follow budget directory (".." :: rest) place
  | vacant {budget : Nat} {directory : RealPath} {name : String} (entry : IsEntryName name)
      (free : tree.get? (directory ++ [name]) = none) :
      Walks tree follow budget directory [name] (.vacant directory name)
  | file {budget : Nat} {directory : RealPath} {name : String} {content : ByteArray}
      {executable : Bool} (entry : IsEntryName name)
      (found : tree.get? (directory ++ [name]) = some (.file content executable)) :
      Walks tree follow budget directory [name]
        (.present (directory ++ [name]) (.file content executable))
  | link {budget : Nat} {directory : RealPath} {name target : String} (entry : IsEntryName name)
      (found : tree.get? (directory ++ [name]) = some (.link target)) (ends : follow = false) :
      Walks tree follow budget directory [name] (.present (directory ++ [name]) (.link target))
  | enter {budget : Nat} {directory : RealPath} {name : String} {rest : List String}
      {place : Place} (entry : IsEntryName name)
      (found : tree.get? (directory ++ [name]) = some .directory)
      (onward : Walks tree follow budget (directory ++ [name]) rest place) :
      Walks tree follow budget directory (name :: rest) place
  | jump {budget : Nat} {directory : RealPath} {name target : String} {rest : List String}
      {place : Place} (entry : IsEntryName name)
      (found : tree.get? (directory ++ [name]) = some (.link target))
      (goes : rest ≠ [] ∨ follow = true)
      (onward : Walks tree follow budget (startOf directory target) (stepsOf target ++ rest)
        place) :
      Walks tree follow (budget + 1) directory (name :: rest) place

section Steps

variable (tree : FileTree) (follow : Bool) (budget : Nat) (directory : RealPath)

theorem walk_nil : walk tree follow budget directory [] = .ok (.present directory .directory) := by
  cases budget <;> rfl

theorem walk_here (rest : List String) :
    walk tree follow budget directory ("." :: rest) = walk tree follow budget directory rest := by
  cases budget <;> simp [walk, walkNames]

theorem walk_up (rest : List String) :
    walk tree follow budget directory (".." :: rest) =
      walk tree follow budget directory.dropLast rest := by
  cases budget <;> simp [walk, walkNames]

def walkName (name : String) (rest : List String) : Except IoCause Place :=
  match tree.get? (directory ++ [name]) with
  | none => if rest.isEmpty then .ok (.vacant directory name) else .error .notFound
  | some .directory => walk tree follow budget (directory ++ [name]) rest
  | some (.file content executable) =>
      if rest.isEmpty then .ok (.present (directory ++ [name]) (.file content executable))
      else .error .notDirectory
  | some (.link target) =>
      if rest.isEmpty && !follow then .ok (.present (directory ++ [name]) (.link target))
      else match budget with
        | 0 => .error .tooManyLinks
        | left + 1 => walk tree follow left (startOf directory target) (stepsOf target ++ rest)

theorem walk_name {name : String} (entry : IsEntryName name) (rest : List String) :
    walk tree follow budget directory (name :: rest) =
      walkName tree follow budget directory name rest := by
  obtain ⟨notHere, notUp, short⟩ := entry
  have fits : ¬ longestName < name.utf8ByteSize := by omega
  cases budget with
  | zero =>
      rcases found : tree.get? (directory ++ [name]) with _ | _ | _ | _ <;>
        simp [walk, walkNames, notHere, notUp, fits, walkName, found]
  | succ left =>
      rcases found : tree.get? (directory ++ [name]) with _ | _ | _ | _ <;>
        simp [walk, walkNames, notHere, notUp, fits, walkName, found]

theorem walk_longName {name : String} (notHere : name ≠ ".") (notUp : name ≠ "..")
    (long : longestName < name.utf8ByteSize) (rest : List String) :
    walk tree follow budget directory (name :: rest) = .error .nameTooLong := by
  cases budget with
  | zero => simp only [walk, walkNames, notHere, notUp, long, if_false, if_true]
  | succ left => simp only [walk, walkNames, notHere, notUp, long, if_false, if_true]

end Steps

variable {tree : FileTree} {follow : Bool} {budget : Nat} {directory : RealPath}
  {steps : List String} {place : Place}

theorem walk_of_walks (walks : Walks tree follow budget directory steps place) :
    walk tree follow budget directory steps = .ok place := by
  induction walks with
  | done => exact walk_nil tree follow _ _
  | here onward ih => rw [walk_here, ih]
  | up onward ih => rw [walk_up, ih]
  | vacant entry free => rw [walk_name _ _ _ _ entry, walkName, free]; rfl
  | file entry found => rw [walk_name _ _ _ _ entry, walkName, found]; rfl
  | link entry found ends =>
      subst ends
      rw [walk_name _ _ _ _ entry, walkName, found]
      rfl
  | enter entry found onward ih => rw [walk_name _ _ _ _ entry, walkName, found, ih]
  | @jump _ _ _ _ rest _ entry found goes onward ih =>
      have leaves : (rest.isEmpty && !follow) = false := by
        rcases goes with more | followed
        · simp [more]
        · simp [followed]
      rw [walk_name _ _ _ _ entry, walkName, found]
      simp only [leaves, Bool.false_eq_true, if_false, ih]

-- `deeper` and `jumps` are what the induction below knows of the walks that a name leads to.
theorem walks_of_walkName {name : String} {rest : List String} (entry : IsEntryName name)
    (deeper : walk tree follow budget (directory ++ [name]) rest = .ok place →
      Walks tree follow budget (directory ++ [name]) rest place)
    (jumps : ∀ left target, budget = left + 1 →
      walk tree follow left (startOf directory target) (stepsOf target ++ rest) = .ok place →
      Walks tree follow left (startOf directory target) (stepsOf target ++ rest) place)
    (ends : walkName tree follow budget directory name rest = .ok place) :
    Walks tree follow budget directory (name :: rest) place := by
  unfold walkName at ends
  split at ends
  · rename_i free
    split at ends
    · rename_i last
      rw [List.isEmpty_iff.mp last]
      cases ends
      exact .vacant entry free
    · cases ends
  · rename_i found
    exact .enter entry found (deeper ends)
  · rename_i found
    split at ends
    · rename_i last
      rw [List.isEmpty_iff.mp last]
      cases ends
      exact .file entry found
    · cases ends
  · rename_i target found
    split at ends
    · rename_i last
      obtain ⟨last, stays⟩ := Bool.and_eq_true_iff.mp last
      rw [List.isEmpty_iff.mp last]
      cases ends
      exact .link entry found (by simpa using stays)
    · rename_i goes
      have more : rest ≠ [] ∨ follow = true := by
        cases follow with
        | true => exact Or.inr rfl
        | false =>
            left
            intro last
            exact goes (by simp [last])
      cases budget with
      | zero => cases ends
      | succ left => exact .jump entry found more (jumps left target rfl ends)

-- The outer induction is on the budget, because a link starts a walk of its own.
theorem walks_of_walk (ends : walk tree follow budget directory steps = .ok place) :
    Walks tree follow budget directory steps place := by
  induction budget using Nat.strongRecOn generalizing directory steps with
  | ind budget fewer =>
      induction steps generalizing directory with
      | nil =>
          rw [walk_nil] at ends
          cases ends
          exact .done
      | cons name rest ih =>
          by_cases here : name = "."
          · subst here
            rw [walk_here] at ends
            exact .here (ih ends)
          by_cases up : name = ".."
          · subst up
            rw [walk_up] at ends
            exact .up (ih ends)
          by_cases long : longestName < name.utf8ByteSize
          · rw [walk_longName _ _ _ _ here up long] at ends
            cases ends
          have entry : IsEntryName name := ⟨here, up, by omega⟩
          rw [walk_name _ _ _ _ entry] at ends
          exact walks_of_walkName entry ih (fun left target less => fewer left (by omega)) ends

theorem walk_ok_iff : walk tree follow budget directory steps = .ok place ↔
    Walks tree follow budget directory steps place :=
  ⟨walks_of_walk, walk_of_walks⟩

theorem Walks.unique {other : Place} (first : Walks tree follow budget directory steps place)
    (second : Walks tree follow budget directory steps other) : place = other := by
  have same := (walk_of_walks first).symm.trans (walk_of_walks second)
  cases same
  rfl

end PlatformBundle.Disk
