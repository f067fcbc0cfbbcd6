/-!
Finite maps from texts to values, kept in ascending order of their keys. The order is the order of
code points, which is also the order of the UTF-8 bytes. The list of entries is unique for its
contents, so two maps with the same look-ups are equal: `KeyMap.ext_get?`.
-/

namespace PlatformBundle

structure KeyMap (β : Type) where
  entries : List (String × β)
  ascending : entries.Pairwise (fun a b => a.1 < b.1)
  deriving DecidableEq

namespace KeyMap

variable {β γ : Type}

def empty : KeyMap β := ⟨[], List.Pairwise.nil⟩

instance : Inhabited (KeyMap β) := ⟨empty⟩

def lookup (key : String) : List (String × β) → Option β
  | [] => none
  | (k, v) :: rest => if k = key then some v else lookup key rest

def put (key : String) (value : β) : List (String × β) → List (String × β)
  | [] => [(key, value)]
  | (k, v) :: rest =>
      if key < k then (key, value) :: (k, v) :: rest
      else if k < key then (k, v) :: put key value rest
      else (key, value) :: rest

theorem key_mem_put (key : String) (value : β) (entries : List (String × β))
    (entry : String × β) (member : entry ∈ put key value entries) :
    entry.1 = key ∨ entry ∈ entries := by
  induction entries with
  | nil => simp_all [put]
  | cons head rest ih =>
      unfold put at member
      split at member
      · rcases List.mem_cons.mp member with rfl | old
        · exact Or.inl rfl
        · exact Or.inr old
      · split at member
        · rcases List.mem_cons.mp member with rfl | later
          · exact Or.inr (by simp)
          · exact (ih later).imp id (List.mem_cons_of_mem _)
        · rcases List.mem_cons.mp member with rfl | later
          · exact Or.inl rfl
          · exact Or.inr (List.mem_cons_of_mem _ later)

theorem put_ascending (key : String) (value : β) (entries : List (String × β))
    (ascending : entries.Pairwise (fun a b => a.1 < b.1)) :
    (put key value entries).Pairwise (fun a b => a.1 < b.1) := by
  induction entries with
  | nil => simp [put]
  | cons head rest ih =>
      obtain ⟨above, restAscending⟩ := List.pairwise_cons.mp ascending
      unfold put
      split
      · rename_i below
        refine List.pairwise_cons.mpr ⟨fun entry member => ?_, ascending⟩
        rcases List.mem_cons.mp member with rfl | later
        · exact below
        · exact String.lt_trans below (above entry later)
      · rename_i notBelow
        split
        · rename_i before
          refine List.pairwise_cons.mpr ⟨fun entry member => ?_, ih restAscending⟩
          rcases key_mem_put key value rest entry member with same | old
          · exact same ▸ before
          · exact above entry old
        · rename_i notAbove
          have same : key = head.1 :=
            String.le_antisymm (String.not_lt.mp notAbove) (String.not_lt.mp notBelow)
          exact List.pairwise_cons.mpr
            ⟨fun entry member => same ▸ above entry member, restAscending⟩

def get? (map : KeyMap β) (key : String) : Option β := lookup key map.entries

def contains (map : KeyMap β) (key : String) : Bool := (map.get? key).isSome

def insert (map : KeyMap β) (key : String) (value : β) : KeyMap β :=
  ⟨put key value map.entries, put_ascending key value map.entries map.ascending⟩

/-- The map of a list of entries; of two entries with one key the later stands. -/
def ofList (entries : List (String × β)) : KeyMap β :=
  entries.foldl (fun map entry => map.insert entry.1 entry.2) empty

def keys (map : KeyMap β) : List String := map.entries.map Prod.fst

def isEmpty (map : KeyMap β) : Bool := map.entries.isEmpty

def size (map : KeyMap β) : Nat := map.entries.length

def mapValues (f : β → γ) (map : KeyMap β) : KeyMap γ :=
  ⟨map.entries.map (fun entry => (entry.1, f entry.2)),
    List.pairwise_map.mpr map.ascending⟩

theorem lookup_put (key other : String) (value : β) (entries : List (String × β))
    (ascending : entries.Pairwise (fun a b => a.1 < b.1)) :
    lookup other (put key value entries) =
      if key = other then some value else lookup other entries := by
  induction entries with
  | nil => simp [put, lookup]
  | cons head rest ih =>
      obtain ⟨above, restAscending⟩ := List.pairwise_cons.mp ascending
      obtain ⟨k, v⟩ := head
      unfold put
      split
      · simp [lookup]
      · rename_i notBelow
        split
        · rename_i before
          have differ : key ≠ k := fun same => String.lt_irrefl k (same ▸ before)
          simp only [lookup, ih restAscending]
          by_cases hk : k = other
          · have : key ≠ other := fun same => differ (same.trans hk.symm)
            simp [hk, this]
          · simp [hk]
        · rename_i notAbove
          have same : key = k :=
            String.le_antisymm (String.not_lt.mp notAbove) (String.not_lt.mp notBelow)
          subst same
          simp only [lookup]
          by_cases hk : key = other <;> simp [hk]

@[simp] theorem get?_empty (key : String) : (empty : KeyMap β).get? key = none := rfl

@[simp] theorem get?_insert (map : KeyMap β) (key other : String) (value : β) :
    (map.insert key value).get? other = if key = other then some value else map.get? other :=
  lookup_put key other value map.entries map.ascending

theorem mem_of_get? {map : KeyMap β} {key : String} {value : β}
    (found : map.get? key = some value) : (key, value) ∈ map.entries := by
  unfold get? at found
  generalize map.entries = entries at found ⊢
  induction entries with
  | nil => cases found
  | cons head rest ih =>
      unfold lookup at found
      split at found
      · rename_i same
        cases found
        rw [← same]
        exact List.mem_cons_self
      · exact List.mem_cons_of_mem _ (ih found)

theorem lookup_mapValues (f : β → γ) (key : String) (entries : List (String × β)) :
    lookup key (entries.map (fun entry => (entry.1, f entry.2))) = (lookup key entries).map f := by
  induction entries with
  | nil => rfl
  | cons head rest ih =>
      simp only [List.map_cons, lookup]
      split <;> simp [ih]

@[simp] theorem get?_mapValues (f : β → γ) (map : KeyMap β) (key : String) :
    (map.mapValues f).get? key = (map.get? key).map f :=
  lookup_mapValues f key map.entries

theorem lookup_eq_none_of_above (key : String) (entries : List (String × β))
    (above : ∀ entry ∈ entries, key < entry.1) : lookup key entries = none := by
  induction entries with
  | nil => rfl
  | cons head rest ih =>
      have here := above head (by simp)
      have differ : head.1 ≠ key := fun same => String.lt_irrefl key (same ▸ here)
      obtain ⟨k, v⟩ := head
      simp only [lookup, differ, if_false]
      exact ih (fun entry member => above entry (List.mem_cons_of_mem _ member))

theorem entries_eq_of_lookup (first second : List (String × β))
    (ascending₁ : first.Pairwise (fun a b => a.1 < b.1))
    (ascending₂ : second.Pairwise (fun a b => a.1 < b.1))
    (same : ∀ key, lookup key first = lookup key second) : first = second := by
  induction first generalizing second with
  | nil =>
      cases second with
      | nil => rfl
      | cons head rest => have := same head.1; simp [lookup] at this
  | cons head₁ rest₁ ih =>
      obtain ⟨above₁, tail₁⟩ := List.pairwise_cons.mp ascending₁
      cases second with
      | nil => have := same head₁.1; simp [lookup] at this
      | cons head₂ rest₂ =>
          obtain ⟨above₂, tail₂⟩ := List.pairwise_cons.mp ascending₂
          have keysEqual : head₁.1 = head₂.1 := by
            apply String.le_antisymm
            · apply String.not_lt.mp
              intro below
              have missing : lookup head₂.1 (head₁ :: rest₁) = none :=
                lookup_eq_none_of_above head₂.1 _ (fun entry member => by
                  rcases List.mem_cons.mp member with rfl | later
                  · exact below
                  · exact String.lt_trans below (above₁ entry later))
              have := (same head₂.1).symm.trans missing
              simp [lookup] at this
            · apply String.not_lt.mp
              intro below
              have missing : lookup head₁.1 (head₂ :: rest₂) = none :=
                lookup_eq_none_of_above head₁.1 _ (fun entry member => by
                  rcases List.mem_cons.mp member with rfl | later
                  · exact below
                  · exact String.lt_trans below (above₂ entry later))
              have := (same head₁.1).trans missing
              simp [lookup] at this
          have valuesEqual : head₁.2 = head₂.2 := by
            have := same head₁.1
            simpa [lookup, keysEqual] using this
          have headsEqual : head₁ = head₂ := Prod.ext keysEqual valuesEqual
          subst headsEqual
          congr 1
          apply ih rest₂ tail₁ tail₂
          intro key
          by_cases here : head₁.1 = key
          · rw [← here, lookup_eq_none_of_above _ _ above₁, lookup_eq_none_of_above _ _ above₂]
          · simpa [lookup, here] using same key

theorem ext_get? (first second : KeyMap β) (same : ∀ key, first.get? key = second.get? key) :
    first = second := by
  obtain ⟨entries₁, ascending₁⟩ := first
  obtain ⟨entries₂, ascending₂⟩ := second
  simp only [mk.injEq]
  exact entries_eq_of_lookup entries₁ entries₂ ascending₁ ascending₂ same

end KeyMap

abbrev KeySet := KeyMap Unit

namespace KeySet

def add (set : KeySet) (key : String) : KeySet := set.insert key ()

def ofKeys (keys : List String) : KeySet := keys.foldl add KeyMap.empty

end KeySet

end PlatformBundle
