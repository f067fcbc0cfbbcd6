import PlatformBundle.Proofs.TreeChanges
/-!
Walks that keep to a place of their own. A fence marks a home and the places that are foreign to
it; a walk strays when it may look up a foreign place or end outside the home. Whatever stands at
home counts as something that a walk may pass, because it can change: so a tree whose links do not
stray stays such a tree when some of them are removed. A walk that does not stray goes the same way
in all trees that differ at foreign places only.
-/

namespace PlatformBundle

/-- A home and what is foreign to it; other places belong to nobody. -/
structure Fence where
  home : RealPath
  foreign : RealPath → Prop

namespace Disk

/-- A walk may come to look up a foreign place, or to end outside the home. -/
inductive Strays (tree : FileTree) (fence : Fence) : RealPath → List String → Prop where
  | ends {directory : RealPath} (outside : ¬ fence.home <+: directory) :
      Strays tree fence directory []
  | stops {directory : RealPath} {name : String} (entry : IsEntryName name)
      (outside : ¬ fence.home <+: directory ++ [name])
      (noLink : ∀ target, tree.get? (directory ++ [name]) ≠ some (.link target)) :
      Strays tree fence directory [name]
  | meets {directory : RealPath} {name : String} {rest : List String} (entry : IsEntryName name)
      (foreign : fence.foreign (directory ++ [name])) : Strays tree fence directory (name :: rest)
  | here {directory : RealPath} {rest : List String} (onward : Strays tree fence directory rest) :
      Strays tree fence directory ("." :: rest)
  | up {directory : RealPath} {rest : List String}
      (onward : Strays tree fence directory.dropLast rest) :
      Strays tree fence directory (".." :: rest)
  | enter {directory : RealPath} {name : String} {rest : List String} (entry : IsEntryName name)
      (passes : tree.get? (directory ++ [name]) = some .directory ∨
        fence.home <+: directory ++ [name])
      (onward : Strays tree fence (directory ++ [name]) rest) :
      Strays tree fence directory (name :: rest)
  | jump {directory : RealPath} {name target : String} {rest : List String}
      (entry : IsEntryName name) (found : tree.get? (directory ++ [name]) = some (.link target))
      (onward : Strays tree fence (startOf directory target) (stepsOf target ++ rest)) :
      Strays tree fence directory (name :: rest)

def Enclosed (tree : FileTree) (fence : Fence) : Prop :=
  ∀ place target, fence.home <+: place → tree.get? place = some (.link target) →
    ¬ Strays tree fence (startOf place.dropLast target) (stepsOf target)

section Straying

variable {tree other : FileTree} {fence : Fence} {directory : RealPath} {steps names : List String}

theorem Strays.mono (links : ∀ place target, ¬ fence.foreign place →
      other.get? place = some (.link target) → tree.get? place = some (.link target))
    (directories : ∀ place, ¬ fence.foreign place → ¬ fence.home <+: place →
      (other.get? place = tree.get? place))
    (strays : Strays other fence directory steps) : Strays tree fence directory steps := by
  induction strays with
  | ends outside => exact .ends outside
  | @stops directory name entry outside noLink =>
      by_cases foreign : fence.foreign (directory ++ [name])
      · exact .meets entry foreign
      · refine .stops entry outside (fun target => ?_)
        rw [← directories _ foreign outside]
        exact noLink target
  | meets entry foreign => exact .meets entry foreign
  | here onward ih => exact .here ih
  | up onward ih => exact .up ih
  | @enter directory name rest entry passes onward ih =>
      by_cases foreign : fence.foreign (directory ++ [name])
      · exact .meets entry foreign
      by_cases home : fence.home <+: directory ++ [name]
      · exact .enter entry (Or.inr home) ih
      · rcases passes with found | inside
        · exact .enter entry (Or.inl (directories _ foreign home ▸ found)) ih
        · exact absurd inside home
  | @jump directory name target rest entry found onward ih =>
      by_cases foreign : fence.foreign (directory ++ [name])
      · exact .meets entry foreign
      · exact .jump entry (links _ _ foreign found) ih

theorem Enclosed.mono (enclosed : Enclosed tree fence)
    (links : ∀ place target, ¬ fence.foreign place →
      other.get? place = some (.link target) → tree.get? place = some (.link target))
    (directories : ∀ place, ¬ fence.foreign place → ¬ fence.home <+: place →
      (other.get? place = tree.get? place))
    (apart : ∀ place, fence.home <+: place → ¬ fence.foreign place) : Enclosed other fence := by
  intro place target inside found strays
  exact enclosed place target inside (links place target (apart place inside) found)
    (strays.mono links directories)

-- The names that come after a walk are walked from a directory at home.
theorem Strays.of_append (enclosed : Enclosed tree fence)
    (apart : ∀ place, fence.home <+: place → ¬ fence.foreign place) (down : ".." ∉ names)
    (strays : Strays tree fence directory (steps ++ names)) :
    Strays tree fence directory steps := by
  generalize whole : steps ++ names = walked at strays
  induction strays generalizing steps names with
  | ends outside =>
      rw [(List.append_eq_nil_iff.mp whole).1]
      exact .ends outside
  | @stops directory name entry outside noLink =>
      cases steps with
      | nil =>
          refine .ends (fun inside => outside (inside.trans (List.prefix_append _ _)))
      | cons first rest =>
          obtain ⟨rfl, after⟩ := List.cons.inj whole
          rw [(List.append_eq_nil_iff.mp after).1]
          exact .stops entry outside noLink
  | @meets directory name rest entry foreign =>
      cases steps with
      | nil =>
          refine .ends (fun inside => ?_)
          exact apart _ (inside.trans (List.prefix_append _ _)) foreign
      | cons first others =>
          obtain ⟨rfl, -⟩ := List.cons.inj whole
          exact .meets entry foreign
  | here onward ih =>
      cases steps with
      | nil =>
          subst whole
          exact ih (List.not_mem_of_not_mem_cons down) (List.nil_append _)
      | cons first others =>
          obtain ⟨rfl, after⟩ := List.cons.inj whole
          exact .here (ih down after)
  | up onward ih =>
      cases steps with
      | nil =>
          subst whole
          exact absurd List.mem_cons_self down
      | cons first others =>
          obtain ⟨rfl, after⟩ := List.cons.inj whole
          exact .up (ih down after)
  | @enter directory name rest entry passes onward ih =>
      cases steps with
      | nil =>
          subst whole
          refine .ends (fun inside => ?_)
          cases ih (List.not_mem_of_not_mem_cons down) (List.nil_append _) with
          | ends outside => exact outside (inside.trans (List.prefix_append _ _))
      | cons first others =>
          obtain ⟨rfl, after⟩ := List.cons.inj whole
          exact .enter entry passes (ih down after)
  | @jump directory name target rest entry found onward ih =>
      cases steps with
      | nil =>
          subst whole
          refine .ends (fun inside => ?_)
          have strays := ih (List.not_mem_of_not_mem_cons down) rfl
          refine enclosed _ target (inside.trans (List.prefix_append _ _)) found ?_
          rwa [List.dropLast_concat]
      | cons first others =>
          obtain ⟨rfl, after⟩ := List.cons.inj whole
          refine .jump entry found (ih down ?_)
          rw [List.append_assoc]
          exact congrArg (stepsOf target ++ ·) after

/-- A walk that does not stray goes the same way in trees that differ at foreign places only. -/
theorem walk_congr (agree : ∀ place, ¬ fence.foreign place → other.get? place = tree.get? place)
    (follow : Bool) {budget : Nat} (keeps : ¬ Strays tree fence directory steps) :
    walk other follow budget directory steps = walk tree follow budget directory steps := by
  induction budget using Nat.strongRecOn generalizing directory steps with
  | ind budget fewer =>
      induction steps generalizing directory with
      | nil => rw [walk_nil, walk_nil]
      | cons name rest ih =>
          by_cases here : name = "."
          · subst here
            rw [walk_here, walk_here]
            exact ih (fun strays => keeps (.here strays))
          by_cases up : name = ".."
          · subst up
            rw [walk_up, walk_up]
            exact ih (fun strays => keeps (.up strays))
          by_cases long : longestName < name.utf8ByteSize
          · rw [walk_longName _ _ _ _ here up long, walk_longName _ _ _ _ here up long]
          have entry : IsEntryName name := ⟨here, up, Nat.le_of_not_lt long⟩
          have same := agree (directory ++ [name]) (fun foreign => keeps (.meets entry foreign))
          rw [walk_name _ _ _ _ entry, walk_name _ _ _ _ entry, walkName, walkName, same]
          split
          · rfl
          · rename_i found
            exact ih (fun strays => keeps (.enter entry (Or.inl found) strays))
          · rfl
          · rename_i target found
            split
            · rfl
            · cases budget with
              | zero => rfl
              | succ left =>
                  exact fewer left (Nat.lt_succ_self left)
                    (fun strays => keeps (.jump entry found strays))

theorem home_of_last {name : String} (entry : IsEntryName name)
    (keeps : ¬ Strays tree fence directory steps) (whole : steps ++ names = [name])
    (noLink : steps ≠ [] → ∀ target, tree.get? (directory ++ [name]) ≠ some (.link target)) :
    fence.home <+: directory ++ [name] := by
  by_contra outside
  cases steps with
  | nil => exact keeps (.ends (fun inside => outside (inside.trans (List.prefix_append _ _))))
  | cons first others =>
      obtain ⟨rfl, after⟩ := List.cons.inj whole
      rw [(List.append_eq_nil_iff.mp after).1] at keeps
      exact keeps (.stops entry outside (noLink (List.cons_ne_nil _ _)))

/-- A walk that goes on by names that lead down, after steps that do not stray, ends at home. -/
theorem Walks.ends_home (enclosed : Enclosed tree fence) {follow : Bool} {budget : Nat}
    {place : Place} (walks : Walks tree follow budget directory (steps ++ names) place)
    (keeps : ¬ Strays tree fence directory steps) (down : ".." ∉ names)
    (ending : steps ≠ [] → follow = true ∨ names ≠ []) : fence.home <+: place.spot := by
  generalize whole : steps ++ names = walked at walks
  induction walks generalizing steps names with
  | done =>
      rw [(List.append_eq_nil_iff.mp whole).1] at keeps
      exact not_not.mp (fun outside => keeps (.ends outside))
  | here onward ih =>
      cases steps with
      | nil =>
          subst whole
          exact ih keeps (List.not_mem_of_not_mem_cons down) (fun more => absurd rfl more)
            (List.nil_append _)
      | cons first others =>
          obtain ⟨rfl, after⟩ := List.cons.inj whole
          exact ih (fun strays => keeps (.here strays)) down
            (fun _ => ending (List.cons_ne_nil _ _)) after
  | up onward ih =>
      cases steps with
      | nil =>
          subst whole
          exact absurd List.mem_cons_self down
      | cons first others =>
          obtain ⟨rfl, after⟩ := List.cons.inj whole
          exact ih (fun strays => keeps (.up strays)) down
            (fun _ => ending (List.cons_ne_nil _ _)) after
  | vacant entry free => exact home_of_last entry keeps whole (fun _ _ => by simp [free])
  | file entry found => exact home_of_last entry keeps whole (fun _ _ => by simp [found])
  | link entry found stays =>
      refine home_of_last entry keeps whole (fun more => ?_)
      rcases ending more with follows | filled
      · rw [stays] at follows
        cases follows
      · cases steps with
        | nil => exact absurd rfl more
        | cons first others =>
            exact absurd (List.append_eq_nil_iff.mp (List.cons.inj whole).2).2 filled
  | enter entry found onward ih =>
      cases steps with
      | nil =>
          subst whole
          refine ih (fun strays => ?_) (List.not_mem_of_not_mem_cons down)
            (fun more => absurd rfl more) (List.nil_append _)
          cases strays with
          | ends outside =>
              exact keeps (.ends (fun inside => outside (inside.trans (List.prefix_append _ _))))
      | cons first others =>
          obtain ⟨rfl, after⟩ := List.cons.inj whole
          exact ih (fun strays => keeps (.enter entry (Or.inl found) strays)) down
            (fun _ => ending (List.cons_ne_nil _ _)) after
  | @jump _ directory name target rest place entry found goes onward ih =>
      cases steps with
      | nil =>
          subst whole
          refine ih (fun strays => ?_) (List.not_mem_of_not_mem_cons down)
            (fun _ => goes.symm) rfl
          have home : fence.home <+: directory := not_not.mp (fun outside => keeps (.ends outside))
          refine enclosed _ target (home.trans (List.prefix_append _ _)) found ?_
          rwa [List.dropLast_concat]
      | cons first others =>
          obtain ⟨rfl, after⟩ := List.cons.inj whole
          refine ih (fun strays => keeps (.jump entry found strays)) down
            (fun _ => ending (List.cons_ne_nil _ _)) ?_
          rw [List.append_assoc]
          exact congrArg (stepsOf target ++ ·) after

theorem keeps_home (enclosed : Enclosed tree fence)
    (apart : ∀ place, fence.home <+: place → ¬ fence.foreign place) {name : String}
    (notHere : name ≠ ".") (notUp : name ≠ "..") (home : fence.home = directory ++ [name]) :
    ¬ Strays tree fence directory [name] := by
  have inside : fence.home <+: directory ++ [name] := home ▸ List.prefix_rfl
  intro strays
  cases strays with
  | stops entry outside noLink => exact outside inside
  | meets entry foreign => exact apart _ inside foreign
  | here onward => exact notHere rfl
  | up onward => exact notUp rfl
  | enter entry passes onward =>
      cases onward with
      | ends outside => exact outside inside
  | jump entry found onward =>
      rw [List.append_nil] at onward
      exact enclosed _ _ inside found (by rwa [List.dropLast_concat])

end Straying

inductive Meets (tree : FileTree) (kind : RealPath → Prop) : RealPath → List String → Prop where
  | now {directory : RealPath} {name : String} {rest : List String} (entry : IsEntryName name)
      (met : kind (directory ++ [name])) : Meets tree kind directory (name :: rest)
  | here {directory : RealPath} {rest : List String} (onward : Meets tree kind directory rest) :
      Meets tree kind directory ("." :: rest)
  | up {directory : RealPath} {rest : List String}
      (onward : Meets tree kind directory.dropLast rest) : Meets tree kind directory (".." :: rest)
  | enter {directory : RealPath} {name : String} {rest : List String} (entry : IsEntryName name)
      (found : tree.get? (directory ++ [name]) = some .directory)
      (onward : Meets tree kind (directory ++ [name]) rest) :
      Meets tree kind directory (name :: rest)
  | jump {directory : RealPath} {name target : String} {rest : List String}
      (entry : IsEntryName name) (found : tree.get? (directory ++ [name]) = some (.link target))
      (onward : Meets tree kind (startOf directory target) (stepsOf target ++ rest)) :
      Meets tree kind directory (name :: rest)

section Meeting

variable {tree : FileTree} {kind : RealPath → Prop} {budget : Nat} {directory place : RealPath}
  {steps : List String}

theorem Walks.leads_alike
    (walks : Walks tree true budget directory steps (.present place .directory))
    (clear : ¬ Meets tree kind directory steps) :
    ∃ left, ∀ other : FileTree, (∀ place, ¬ kind place → other.get? place = tree.get? place) →
      Walks other true budget directory steps (.present place .directory) ∧
      ∀ follow rest, rest ≠ [] → walk other follow budget directory (steps ++ rest) =
        walk other follow left place rest := by
  generalize ends : Place.present place .directory = found at walks
  induction walks with
  | done =>
      cases ends
      exact ⟨_, fun _ _ => ⟨.done, fun _ _ _ => rfl⟩⟩
  | here onward ih =>
      obtain ⟨left, alike⟩ := ih (fun meets => clear (.here meets)) ends
      refine ⟨left, fun other agree => ?_⟩
      obtain ⟨walks, same⟩ := alike other agree
      refine ⟨.here walks, fun follow rest filled => ?_⟩
      rw [List.cons_append, walk_here, same follow rest filled]
  | up onward ih =>
      obtain ⟨left, alike⟩ := ih (fun meets => clear (.up meets)) ends
      refine ⟨left, fun other agree => ?_⟩
      obtain ⟨walks, same⟩ := alike other agree
      refine ⟨.up walks, fun follow rest filled => ?_⟩
      rw [List.cons_append, walk_up, same follow rest filled]
  | vacant entry free => cases ends
  | file entry found => cases ends
  | link entry found stays => cases stays
  | enter entry found onward ih =>
      obtain ⟨left, alike⟩ := ih (fun meets => clear (.enter entry found meets)) ends
      refine ⟨left, fun other agree => ?_⟩
      obtain ⟨walks, same⟩ := alike other agree
      have there := (agree _ (fun met => clear (.now entry met))).trans found
      refine ⟨.enter entry there walks, fun follow rest filled => ?_⟩
      rw [List.cons_append, walk_name _ _ _ _ entry, walkName, there]
      exact same follow rest filled
  | @jump _ _ _ _ others _ entry found more onward ih =>
      obtain ⟨left, alike⟩ := ih (fun meets => clear (.jump entry found meets)) ends
      refine ⟨left, fun other agree => ?_⟩
      obtain ⟨walks, same⟩ := alike other agree
      have there := (agree _ (fun met => clear (.now entry met))).trans found
      refine ⟨.jump entry there more walks, fun follow rest filled => ?_⟩
      have leaves : ((others ++ rest).isEmpty && !follow) = false := by simp [filled]
      rw [List.cons_append, walk_name _ _ _ _ entry, walkName, there]
      simp only [leaves, Bool.false_eq_true, if_false]
      rw [← List.append_assoc, same follow rest filled]

theorem Meets.of_here (meets : Meets tree kind directory ("." :: steps)) :
    Meets tree kind directory steps := by
  generalize whole : "." :: steps = walked at meets
  cases meets with
  | here onward =>
      cases whole
      exact onward
  | up onward => exact absurd (List.cons.inj whole).1 (by decide)
  | now entry met | enter entry found onward | jump entry found onward =>
      exact absurd (List.cons.inj whole).1.symm entry.notHere

theorem Meets.of_up (meets : Meets tree kind directory (".." :: steps)) :
    Meets tree kind directory.dropLast steps := by
  generalize whole : ".." :: steps = walked at meets
  cases meets with
  | here onward => exact absurd (List.cons.inj whole).1 (by decide)
  | up onward =>
      cases whole
      exact onward
  | now entry met | enter entry found onward | jump entry found onward =>
      exact absurd (List.cons.inj whole).1.symm entry.notUp

theorem Meets.or {other : RealPath → Prop}
    (meets : Meets tree (fun place => kind place ∨ other place) directory steps) :
    Meets tree kind directory steps ∨ Meets tree other directory steps := by
  induction meets with
  | now entry met => exact met.imp (.now entry) (.now entry)
  | here onward ih => exact ih.imp .here .here
  | up onward ih => exact ih.imp .up .up
  | enter entry found onward ih => exact ih.imp (.enter entry found) (.enter entry found)
  | jump entry found onward ih => exact ih.imp (.jump entry found) (.jump entry found)

theorem Meets.mono {other : RealPath → Prop} (meets : Meets tree kind directory steps)
    (implies : ∀ place, kind place → other place) : Meets tree other directory steps := by
  induction meets with
  | now entry met => exact .now entry (implies _ met)
  | here onward ih => exact .here ih
  | up onward ih => exact .up ih
  | enter entry found onward ih => exact .enter entry found ih
  | jump entry found onward ih => exact .jump entry found ih

-- Up to the first place of the kind, a walk goes the same way in both trees.
theorem Meets.of_agree {other : FileTree} (meets : Meets other kind directory steps)
    (agree : ∀ place, ¬ kind place → other.get? place = tree.get? place) :
    Meets tree kind directory steps := by
  induction meets with
  | now entry met => exact .now entry met
  | here onward ih => exact .here ih
  | up onward ih => exact .up ih
  | @enter directory name rest entry found onward ih =>
      by_cases met : kind (directory ++ [name])
      · exact .now entry met
      · exact .enter entry ((agree _ met).symm.trans found) ih
  | @jump directory name target rest entry found onward ih =>
      by_cases met : kind (directory ++ [name])
      · exact .now entry met
      · exact .jump entry ((agree _ met).symm.trans found) ih

theorem Meets.front (meets : Meets tree kind directory steps) (linkless : tree.Linkless [])
    (names : ∀ name ∈ steps, name ≠ "." ∧ name ≠ "..") :
    ∃ front, front <+: steps ∧ kind (directory ++ front) := by
  induction meets with
  | @now directory name rest entry met => exact ⟨[name], by simp, met⟩
  | here onward ih => exact absurd rfl (names "." (by simp)).1
  | up onward ih => exact absurd rfl (names ".." (by simp)).2
  | @enter directory name rest entry found onward ih =>
      obtain ⟨front, inside, met⟩ :=
        ih (fun name listed => names name (List.mem_cons_of_mem _ listed))
      exact ⟨name :: front, by simpa using inside, by simpa using met⟩
  | jump entry found onward ih => exact absurd found (linkless _ _)

theorem Walks.meets_found {follow : Bool}
    (walks : Walks tree follow budget directory steps (.present place .directory))
    (meets : Meets tree kind directory steps) : ∃ met, kind met ∧ tree.get? met ≠ none ∧
      ∀ content executable, tree.get? met ≠ some (.file content executable) := by
  generalize ends : Place.present place .directory = found at walks
  induction walks with
  | done => cases meets
  | here onward ih => exact ih meets.of_here ends
  | up onward ih => exact ih meets.of_up ends
  | vacant entry free => cases ends
  | file entry found => cases ends
  | link entry found stays => cases ends
  | enter entry found onward ih =>
      cases meets with
      | now _ met => exact ⟨_, met, by simp [found], by simp [found]⟩
      | here meets => exact absurd rfl entry.notHere
      | up meets => exact absurd rfl entry.notUp
      | enter _ _ meets => exact ih meets ends
      | jump _ other meets =>
          rw [found] at other
          cases other
  | jump entry found goes onward ih =>
      cases meets with
      | now _ met => exact ⟨_, met, by simp [found], by simp [found]⟩
      | here meets => exact absurd rfl entry.notHere
      | up meets => exact absurd rfl entry.notUp
      | enter _ other meets =>
          rw [found] at other
          cases other
      | jump _ other meets =>
          rw [found] at other
          cases other
          exact ih meets ends

end Meeting

end Disk

end PlatformBundle
