import PlatformBundle.Disk.Operations
import PlatformBundle.Proofs.TextPieces
/-!
Absolute paths that are spelled out name by name. The text of such a path and its names determine
each other, so joining, going up and the steps of a walk are operations on lists of names.
-/

namespace PlatformBundle

open Text

/-- A text that is one piece of a path; it may be `.` or `..`. -/
structure IsSegment (name : String) : Prop where
  filled : name.toList ≠ []
  whole : '/' ∉ name.toList

structure IsProper (name : String) : Prop extends IsSegment name where
  notHere : name ≠ "."
  notUp : name ≠ ".."

instance (name : String) : Decidable (IsSegment name) :=
  decidable_of_iff (name.toList ≠ [] ∧ '/' ∉ name.toList)
    ⟨fun ⟨filled, whole⟩ => ⟨filled, whole⟩, fun ⟨filled, whole⟩ => ⟨filled, whole⟩⟩

instance (name : String) : Decidable (IsProper name) :=
  decidable_of_iff (IsSegment name ∧ name ≠ "." ∧ name ≠ "..")
    ⟨fun ⟨segment, notHere, notUp⟩ => ⟨segment, notHere, notUp⟩,
      fun ⟨segment, notHere, notUp⟩ => ⟨segment, notHere, notUp⟩⟩

theorem segments_of_proper {names : List String} (proper : ∀ name ∈ names, IsProper name) :
    ∀ name ∈ names, IsSegment name :=
  fun name listed => (proper name listed).toIsSegment

theorem segments_append_one {names : List String} {last : String}
    (segments : ∀ name ∈ names, IsSegment name) (segment : IsSegment last) :
    ∀ name ∈ names ++ [last], IsSegment name := by
  intro name listed
  rcases List.mem_append.mp listed with above | own
  · exact segments name above
  · rwa [List.mem_singleton.mp own]

theorem proper_append_one {names : List String} {last : String}
    (proper : ∀ name ∈ names, IsProper name) (properLast : IsProper last) :
    ∀ name ∈ names ++ [last], IsProper name := by
  intro name listed
  rcases List.mem_append.mp listed with above | own
  · exact proper name above
  · rwa [List.mem_singleton.mp own]

theorem IsProper.notSilent {name : String} (proper : IsProper name) :
    Path.silent name.toList = false := by
  have notDot : name.toList ≠ ['.'] := by
    intro same
    exact proper.notHere (String.toList_inj.mp same)
  simp [Path.silent, proper.filled, notDot]

namespace Path

theorem bodyComponent_of_proper {name : String} (proper : IsProper name) :
    bodyComponent name.toList = some (.name name) := by
  have notUp : name.toList ≠ ['.', '.'] := fun same => proper.notUp (String.toList_inj.mp same)
  simp [bodyComponent, proper.notSilent, notUp]

theorem components_of_name {name : String} (proper : IsProper name) :
    components ⟨name⟩ = [.name name] := by
  have notHere : name.toList ≠ ['.'] := fun same => proper.notHere (String.toList_inj.mp same)
  have relative : isAbsolute ⟨name⟩ = false := by
    rw [isAbsolute, beq_eq_false_iff_ne]
    exact fun first => proper.whole (List.mem_of_mem_head? first)
  rw [components, Text.pieces_of_not_mem proper.whole, relative]
  simp [leadComponent, notHere, bodyComponent_of_proper proper]

variable {names : List String}

theorem eq_of_toList {first second : Path} (same : first.text.toList = second.text.toList) :
    first = second := by
  obtain ⟨first⟩ := first
  obtain ⟨second⟩ := second
  rw [Path.mk.injEq]
  exact String.toList_inj.mp same

theorem apart_of_segments (segments : ∀ name ∈ names, IsSegment name) :
    ∀ part ∈ names.map String.toList, '/' ∉ part := by
  intro part member
  obtain ⟨name, listed, rfl⟩ := List.mem_map.mp member
  exact (segments name listed).whole

theorem toList_ofReal (names : List String) :
    (ofReal names).text.toList = '/' :: glue '/' (names.map String.toList) := by
  rw [ofReal, String.toList_append, toList_joinWith "/" '/' rfl]
  rfl

theorem pieces_ofReal (filled : names ≠ []) (segments : ∀ name ∈ names, IsSegment name) :
    pieces '/' (ofReal names).text.toList = [] :: names.map String.toList := by
  rw [toList_ofReal, pieces, if_pos rfl, pieces_glue _ (by simpa using filled)
    (apart_of_segments segments)]

theorem pieces_ofReal_nil : pieces '/' (ofReal []).text.toList = [[], []] := by decide

theorem isAbsolute_ofReal (names : List String) :
    ((ofReal names).text.toList.head? == some '/') = true := by
  rw [toList_ofReal]
  rfl

theorem ofReal_append {more : List String} (left : names ≠ []) (right : more ≠ []) :
    (ofReal (names ++ more)).text.toList =
      (ofReal names).text.toList ++ '/' :: glue '/' (more.map String.toList) := by
  rw [toList_ofReal, toList_ofReal, List.map_append, glue_append (by simpa using left)
    (by simpa using right), List.cons_append]

theorem getLast?_ofReal (filled : names ≠ []) (segments : ∀ name ∈ names, IsSegment name) :
    (ofReal names).text.toList.getLast? ≠ some '/' := by
  rcases names.eq_nil_or_concat with rfl | ⟨front, last, rfl⟩
  · exact absurd rfl filled
  · rw [List.concat_eq_append] at segments ⊢
    obtain ⟨inside, whole⟩ := segments last (by simp)
    have ends : ∃ before, (ofReal (front ++ [last])).text.toList = before ++ last.toList := by
      cases front with
      | nil => exact ⟨['/'], toList_ofReal [last]⟩
      | cons first rest =>
          refine ⟨(ofReal (first :: rest)).text.toList ++ ['/'], ?_⟩
          rw [ofReal_append (by simp) (by simp)]
          simp [glue]
    obtain ⟨before, whole'⟩ := ends
    rw [whole', List.getLast?_append, List.getLast?_eq_some_getLast inside, Option.some_or]
    intro same
    exact whole (Option.some.inj same ▸ List.getLast_mem inside)

theorem stepsOf_ofReal (segments : ∀ name ∈ names, IsSegment name) :
    Disk.stepsOf (ofReal names).text = names := by
  cases names with
  | nil =>
      rw [Disk.stepsOf, pieces_ofReal_nil]
      rfl
  | cons first rest =>
      have kept : ([] :: (first :: rest).map String.toList).filter (fun piece => !piece.isEmpty) =
          (first :: rest).map String.toList := by
        rw [List.filter_cons_of_neg (by simp), List.filter_eq_self]
        intro part member
        obtain ⟨name, listed, rfl⟩ := List.mem_map.mp member
        simpa using (segments name listed).filled
      have open_end : ((ofReal (first :: rest)).text.toList.getLast? == some '/') = false := by
        simpa using getLast?_ofReal (by simp) segments
      rw [Disk.stepsOf, pieces_ofReal (by simp) segments]
      simp only [kept, open_end, Bool.and_false, Bool.false_eq_true, if_false, List.append_nil,
        List.map_map]
      simp [Function.comp_def]

theorem startOf_ofReal (directory : RealPath) (names : List String) :
    Disk.startOf directory (ofReal names).text = [] := by
  rw [Disk.startOf, isAbsolute_ofReal, if_pos rfl]

-- What is joined on holds at least one name and does not start at the root.
theorem ofReal_div {more : List String} (filled : more ≠ [])
    (segments : ∀ name ∈ names, IsSegment name) (others : ∀ name ∈ more, IsSegment name) :
    ofReal names / joinWith "/" more = ofReal (names ++ more) := by
  have text := toList_joinWith "/" '/' rfl more
  have relative : ((joinWith "/" more).toList.head? == some '/') = false := by
    obtain ⟨first, rest, rfl⟩ := List.exists_cons_of_ne_nil filled
    obtain ⟨inside, whole⟩ := others first (by simp)
    obtain ⟨c, chars, spelled⟩ := List.exists_cons_of_ne_nil inside
    have notSlash : c ≠ '/' := by
      rintro rfl
      exact whole (by simp [spelled])
    rw [text]
    cases rest with
    | nil => simp [glue, spelled, notSlash]
    | cons next rest => simp [glue, spelled, notSlash]
  have joined : ofReal names / joinWith "/" more = join (ofReal names) (joinWith "/" more) := rfl
  rw [joined, join, relative, if_neg Bool.false_ne_true]
  cases names with
  | nil =>
      have atRoot : ((ofReal []).text.toList.getLast? == some '/') = true := by decide
      rw [atRoot, Bool.true_or, if_pos rfl]
      rfl
  | cons first rest =>
      have open_end : ((ofReal (first :: rest)).text.toList.getLast? == some '/') = false := by
        simpa using getLast?_ofReal (by simp) segments
      have nonempty : (ofReal (first :: rest)).text.isEmpty = false := by
        rw [← Bool.not_eq_true, String.isEmpty_iff, ← String.toList_inj, toList_ofReal]
        simp
      rw [open_end, nonempty, if_neg (by simp)]
      apply eq_of_toList
      rw [String.toList_append, String.toList_append, text, ofReal_append (by simp) filled]
      simp

theorem ofReal_div_name {name : String} (segments : ∀ name ∈ names, IsSegment name)
    (segment : IsSegment name) : ofReal names / name = ofReal (names ++ [name]) := by
  have joined := ofReal_div (List.cons_ne_nil name []) segments (by simpa using segment)
  have alone : joinWith "/" [name] = name := rfl
  rwa [alone] at joined

theorem parent_ofReal_nil : (ofReal []).parent = none := by decide

-- The last name may be the one that leads up.
theorem parent_ofReal_of_speaks {last : String} (proper : ∀ name ∈ names, IsProper name)
    (segment : IsSegment last) (lastSpeaks : silent last.toList = false) :
    (ofReal (names ++ [last])).parent = some (ofReal names) := by
  have segments := segments_append_one (segments_of_proper proper) segment
  have backwards : ((names ++ [last]).map String.toList).reverse =
      last.toList :: (names.map String.toList).reverse := by simp
  rw [parent, pieces_ofReal (by simp) segments]
  simp only [backwards, List.dropWhile_cons, lastSpeaks, Bool.false_eq_true, if_false]
  rcases names.eq_nil_or_concat with rfl | ⟨front, next, rfl⟩
  · rfl
  · rw [List.concat_eq_append] at proper ⊢
    have nextSpeaks := (proper next (by simp)).notSilent
    have above : ((front ++ [next]).map String.toList).reverse =
        next.toList :: (front.map String.toList).reverse := by simp
    simp only [above, List.dropWhile_cons, nextSpeaks, Bool.false_eq_true, if_false]
    refine congrArg some (eq_of_toList ?_)
    rw [toList_ofReal, String.toList_ofList, ← above, List.reverse_reverse]
    cases named : (front ++ [next]).map String.toList with
    | nil => simp at named
    | cons part others => rfl

theorem parent_ofReal {last : String} (proper : ∀ name ∈ names ++ [last], IsProper name) :
    (ofReal (names ++ [last])).parent = some (ofReal names) :=
  parent_ofReal_of_speaks (fun name listed => proper name (List.mem_append_left _ listed))
    (proper last (by simp)).toIsSegment (proper last (by simp)).notSilent

/-- The paths to a place and to the places above it, nearest first; `up` is the place backwards. -/
def upwards : List String → List Path
  | [] => []
  | last :: up => ofReal (last :: up).reverse :: upwards up

theorem ancestorsUpTo_ofReal (up : List String) (proper : ∀ name ∈ up, IsProper name) {fuel : Nat}
    (enough : up.length < fuel) : Disk.ancestorsUpTo fuel (ofReal up.reverse) = upwards up := by
  induction up generalizing fuel with
  | nil =>
      cases fuel with
      | zero => rfl
      | succ fuel =>
          rw [Disk.ancestorsUpTo, List.reverse_nil, parent_ofReal_nil]
          rfl
  | cons last up ih =>
      cases fuel with
      | zero => omega
      | succ fuel =>
          have nonempty : (ofReal (last :: up).reverse).text.isEmpty = false := by
            rw [← Bool.not_eq_true, String.isEmpty_iff, ← String.toList_inj, toList_ofReal]
            simp
          have above : (ofReal (last :: up).reverse).parent = some (ofReal up.reverse) := by
            rw [List.reverse_cons]
            exact parent_ofReal (fun name listed => proper name (by simpa [or_comm] using listed))
          rw [Disk.ancestorsUpTo, nonempty, above]
          simp only [Bool.false_eq_true, if_false, upwards]
          rw [ih (fun name later => proper name (List.mem_cons_of_mem _ later))
            (by simpa using Nat.lt_of_succ_lt_succ enough)]

theorem length_lt_text (names : List String) : names.length < (ofReal names).text.length + 1 := by
  have spread : ∀ parts : List (List Char), parts.length ≤ (glue '/' parts).length + 1 := by
    intro parts
    induction parts with
    | nil => simp
    | cons part others ih =>
        cases others with
        | nil => simp
        | cons next others =>
            simp only [glue, List.length_append, List.length_cons] at ih ⊢
            omega
  have bound := spread (names.map String.toList)
  rw [List.length_map] at bound
  have length := congrArg List.length (toList_ofReal names)
  rw [String.length_toList, List.length_cons] at length
  omega

theorem ancestors_ofReal (up : List String) (proper : ∀ name ∈ up, IsProper name) :
    Disk.ancestors (ofReal up.reverse) = upwards up := by
  refine ancestorsUpTo_ofReal up proper ?_
  have bound := length_lt_text up.reverse
  rwa [List.length_reverse] at bound

end Path

end PlatformBundle
