import Mathlib.Data.List.Induction
import PlatformBundle.KeyMap
/-!
Key maps and their lists of entries. A map holds what its list holds, and a list in ascending order
of its keys is the list of the map that is made of it. Lists make the same map when they give every
key the same last value. A set is determined by its members.
-/

namespace PlatformBundle.KeyMap

variable {β γ : Type} {map : KeyMap β} {key : String} {value : β}

theorem lookup_of_mem {entries : List (String × β)}
    (ascending : entries.Pairwise (fun a b => a.1 < b.1)) (member : (key, value) ∈ entries) :
    lookup key entries = some value := by
  induction entries with
  | nil => cases member
  | cons head rest ih =>
      obtain ⟨above, ascendingRest⟩ := List.pairwise_cons.mp ascending
      rcases List.mem_cons.mp member with rfl | later
      · simp [lookup]
      · have differ : head.1 ≠ key := by
          intro same
          exact String.lt_irrefl key (same ▸ above (key, value) later)
        rw [lookup, if_neg differ]
        exact ih ascendingRest later

theorem lookup_mapMembers (change : String → β → γ) (key : String) (entries : List (String × β)) :
    lookup key (entries.map (fun entry => (entry.1, change entry.1 entry.2))) =
      (lookup key entries).map (change key) := by
  induction entries with
  | nil => rfl
  | cons head rest ih =>
      simp only [List.map_cons, lookup]
      split
      · rename_i here
        rw [here, Option.map_some]
      · exact ih

theorem lookup_filter (keep : String → Bool) (kept : keep key = true)
    (entries : List (String × β)) :
    lookup key (entries.filter (fun entry => keep entry.1)) = lookup key entries := by
  induction entries with
  | nil => rfl
  | cons head rest ih =>
      rw [List.filter_cons, lookup, ← ih]
      split
      · rw [lookup]
      · rename_i dropped
        rw [if_neg]
        rintro rfl
        exact dropped kept

theorem get?_eq_some_iff : map.get? key = some value ↔ (key, value) ∈ map.entries :=
  ⟨mem_of_get?, lookup_of_mem map.ascending⟩

theorem contains_iff : map.contains key = true ↔ ∃ value, map.get? key = some value := by
  rw [contains, Option.isSome_iff_exists]

theorem isEmpty_eq_false_iff : map.isEmpty = false ↔ ∃ key value, map.get? key = some value := by
  rw [isEmpty, List.isEmpty_eq_false_iff_exists_mem]
  simp only [get?_eq_some_iff, Prod.exists]

theorem mem_keys_iff : key ∈ map.keys ↔ map.contains key = true := by
  rw [contains_iff, keys, List.mem_map]
  constructor
  · rintro ⟨⟨_, value⟩, member, rfl⟩
    exact ⟨value, get?_eq_some_iff.mpr member⟩
  · rintro ⟨value, found⟩
    exact ⟨(key, value), get?_eq_some_iff.mp found, rfl⟩

theorem keys_ascending (map : KeyMap β) : map.keys.Pairwise (· < ·) :=
  List.pairwise_map.mpr map.ascending

theorem find?_eq_some_iff_least {keys : List String} (ascending : keys.Pairwise (· < ·))
    (p : String → Bool) (key : String) : keys.find? p = some key ↔
      key ∈ keys ∧ p key = true ∧ ∀ other ∈ keys, p other = true → ¬ other < key := by
  induction keys with
  | nil => simp
  | cons head rest ih =>
      obtain ⟨above, ascendingRest⟩ := List.pairwise_cons.mp ascending
      rw [List.find?_cons]
      by_cases holds : p head = true
      · simp only [holds]
        constructor
        · rintro ⟨⟩
          refine ⟨List.mem_cons_self, holds, fun other member _ below => ?_⟩
          rcases List.mem_cons.mp member with rfl | later
          · exact String.lt_irrefl _ below
          · exact String.lt_asymm below (above other later)
        · rintro ⟨member, -, least⟩
          rcases List.mem_cons.mp member with rfl | later
          · rfl
          · exact absurd (above key later) (least head List.mem_cons_self holds)
      · simp only [holds]
        rw [ih ascendingRest]
        constructor
        · rintro ⟨member, found, least⟩
          refine ⟨List.mem_cons_of_mem _ member, found, fun other listed satisfied => ?_⟩
          rcases List.mem_cons.mp listed with rfl | later
          · exact absurd satisfied holds
          · exact least other later satisfied
        · rintro ⟨member, found, least⟩
          rcases List.mem_cons.mp member with rfl | later
          · exact absurd found holds
          · exact ⟨later, found, fun other listed => least other (List.mem_cons_of_mem _ listed)⟩

theorem find?_keys_iff (map : KeyMap β) (p : String → Bool) (key : String) :
    map.keys.find? p = some key ↔ map.contains key = true ∧ p key = true ∧
      ∀ other, map.contains other = true → p other = true → ¬ other < key := by
  rw [find?_eq_some_iff_least map.keys_ascending]
  simp only [mem_keys_iff]

theorem put_above {entries : List (String × β)} (below : ∀ entry ∈ entries, entry.1 < key) :
    put key value entries = entries ++ [(key, value)] := by
  induction entries with
  | nil => rfl
  | cons head rest ih =>
      have first := below head List.mem_cons_self
      rw [put, if_neg (fun above => String.lt_irrefl key (String.lt_trans above first)),
        if_pos first, ih (fun entry later => below entry (List.mem_cons_of_mem _ later)),
        List.cons_append]

theorem foldl_insert_entries (entries : List (String × β)) (map : KeyMap β)
    (ascending : (map.entries ++ entries).Pairwise (fun a b => a.1 < b.1)) :
    (entries.foldl (fun map entry => map.insert entry.1 entry.2) map).entries =
      map.entries ++ entries := by
  induction entries generalizing map with
  | nil => simp
  | cons entry rest ih =>
      have below : ∀ other ∈ map.entries, other.1 < entry.1 := fun other member =>
        (List.pairwise_append.mp ascending).2.2 other member entry List.mem_cons_self
      have added : (map.insert entry.1 entry.2).entries = map.entries ++ [entry] := put_above below
      rw [List.foldl_cons, ih, added, List.append_assoc]
      · rfl
      · rwa [added, List.append_assoc]

theorem entries_ofList {entries : List (String × β)}
    (ascending : entries.Pairwise (fun a b => a.1 < b.1)) : (ofList entries).entries = entries :=
  foldl_insert_entries entries empty ascending

theorem get?_ofList {entries : List (String × β)}
    (ascending : entries.Pairwise (fun a b => a.1 < b.1)) :
    (ofList entries).get? key = some value ↔ (key, value) ∈ entries := by
  rw [get?_eq_some_iff, entries_ofList ascending]

theorem get?_ofList_reverse (entries : List (String × β)) (key : String) :
    (ofList entries).get? key = lookup key entries.reverse := by
  induction entries using List.reverseRecOn with
  | nil => rfl
  | append_singleton front last ih =>
      have added : ofList (front ++ [last]) = (ofList front).insert last.1 last.2 := by
        rw [ofList, List.foldl_append]
        rfl
      rw [added, get?_insert, ih, List.reverse_append, List.reverse_singleton,
        List.singleton_append]
      rfl

theorem ofList_eq_iff {entries others : List (String × β)} : ofList entries = ofList others ↔
    ∀ key, lookup key entries.reverse = lookup key others.reverse := by
  constructor
  · intro same key
    rw [← get?_ofList_reverse, same, get?_ofList_reverse]
  · intro same
    refine ext_get? _ _ (fun key => ?_)
    rw [get?_ofList_reverse, get?_ofList_reverse, same]

end PlatformBundle.KeyMap

namespace PlatformBundle.KeySet

@[simp] theorem contains_add (set : KeySet) (key other : String) :
    (set.add key).contains other = (decide (key = other) || set.contains other) := by
  by_cases same : key = other
  · simp [add, KeyMap.contains, same]
  · simp [add, KeyMap.contains, same]

theorem contains_ofKeys {keys : List String} {key : String} :
    (KeySet.ofKeys keys).contains key = true ↔ key ∈ keys := by
  have folded (set : KeySet) : (keys.foldl KeySet.add set).contains key = true ↔
      key ∈ keys ∨ set.contains key = true := by
    induction keys generalizing set with
    | nil => simp
    | cons first rest ih =>
        rw [List.foldl_cons, ih, contains_add, List.mem_cons, Bool.or_eq_true, decide_eq_true_iff,
          or_left_comm, or_assoc, @eq_comm _ first key]
  refine (folded KeyMap.empty).trans (or_iff_left ?_)
  simp [KeyMap.contains]

theorem ext_contains {first second : KeySet}
    (same : ∀ key, first.contains key = true ↔ second.contains key = true) : first = second := by
  refine KeyMap.ext_get? first second (fun key => ?_)
  have members := same key
  unfold KeyMap.contains at members
  rcases left : first.get? key with _ | ⟨⟨⟩⟩ <;> rcases right : second.get? key with _ | ⟨⟨⟩⟩
  · rfl
  · simp [left, right] at members
  · simp [left, right] at members
  · rfl

end PlatformBundle.KeySet
