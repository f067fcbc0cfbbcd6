import PlatformBundle.Package
/-!
The names of packages as a grammar, and what their staging names keep of them. A name passes the
check exactly when it is one part, or two parts with a `:` between them. No part holds an `_`, so
the staging name, which writes `_` for the `:`, gives the identity back. The way back accepts one
kind of text more than there are staging names: it leaves a `:` as it is, so a name in two parts is
read as the identity that it names already.
-/

namespace PlatformBundle

theorem toList_replaceChar (old new : Char) (text : String) :
    (replaceChar old new text).toList = text.toList.map (fun c => if c = old then new else c) := by
  rw [replaceChar, String.toList_ofList]

theorem replaceChar_of_not_mem {old new : Char} {text : String} (absent : old ∉ text.toList) :
    replaceChar old new text = text := by
  rw [← String.toList_inj, toList_replaceChar]
  refine (List.map_congr_left ?_).trans (List.map_id text.toList)
  intro c member
  have other : c ≠ old := fun same => absent (same ▸ member)
  simp [other]

theorem replaceChar_back {old new : Char} {text : String} (free : new ∉ text.toList) :
    replaceChar new old (replaceChar old new text) = text := by
  rw [← String.toList_inj, toList_replaceChar, toList_replaceChar, List.map_map]
  refine (List.map_congr_left ?_).trans (List.map_id text.toList)
  intro c member
  have other : c ≠ new := fun same => free (same ▸ member)
  by_cases replaced : c = old
  · simp [replaced]
  · simp [replaced, other]

theorem count_replaceChar {old new : Char} (differ : old ≠ new) (text : String) :
    (replaceChar old new text).toList.count new =
      text.toList.count old + text.toList.count new := by
  rw [toList_replaceChar]
  generalize text.toList = chars
  induction chars with
  | nil => rfl
  | cons c rest ih =>
      simp only [List.map_cons, List.count_cons, ih, beq_iff_eq]
      by_cases replaced : c = old
      · have other : c ≠ new := fun same => differ (replaced.symm.trans same)
        simp only [replaced, differ, if_true, if_false]
        omega
      · simp only [replaced, if_false]
        omega

namespace PackageId

def nameAlphabet : List Char := "abcdefghijklmnopqrstuvwxyz0123456789.-".toList

def IsPart (part : List Char) : Prop := part ≠ [] ∧ ∀ c ∈ part, c ∈ nameAlphabet

/-- The name of a package, with or without an author in front of it. -/
inductive IsPackageName : List Char → Prop where
  | plain {part : List Char} (named : IsPart part) : IsPackageName part
  | authored {author part : List Char} (written : IsPart author) (named : IsPart part) :
      IsPackageName (author ++ ':' :: part)

/-- The application, or a package whose name has passed the check. -/
def Valid (package : PackageId) : Prop :=
  ∀ name, package = .package name → parse name = .ok package

theorem nameAlphabet_plain : ∀ c ∈ nameAlphabet, c.toNat < 128 ∧ c ≠ ':' ∧ c ≠ '_' := by
  have listed : nameAlphabet.all (fun c => decide (c.toNat < 128 ∧ c ≠ ':' ∧ c ≠ '_')) = true := by
    decide
  intro c member
  exact of_decide_eq_true (List.all_eq_true.mp listed c member)

theorem ascii_of_isNameChar {c : Char} (allowed : isNameChar c = true) : c.toNat < 128 := by
  simp only [isNameChar, Bool.or_eq_true, Bool.and_eq_true, decide_eq_true_eq, beq_iff_eq]
    at allowed
  rcases allowed with ((⟨-, letter⟩ | ⟨-, digit⟩) | rfl) | rfl
  · have bound : c.toNat ≤ 'z'.toNat := letter
    exact Nat.lt_of_le_of_lt bound (by decide)
  · have bound : c.toNat ≤ '9'.toNat := digit
    exact Nat.lt_of_le_of_lt bound (by decide)
  · decide
  · decide

theorem isNameChar_iff (c : Char) : isNameChar c = true ↔ c ∈ nameAlphabet := by
  have table : ∀ n < 128, (isNameChar (Char.ofNat n) = true ↔ Char.ofNat n ∈ nameAlphabet) := by
    decide +kernel
  have small (ascii : c.toNat < 128) : isNameChar c = true ↔ c ∈ nameAlphabet := by
    have here := table c.toNat ascii
    rwa [Char.ofNat_toNat] at here
  constructor
  · intro allowed
    exact (small (ascii_of_isNameChar allowed)).mp allowed
  · intro member
    exact (small (nameAlphabet_plain c member).1).mpr member

theorem IsPart.no_colon {part : List Char} (named : IsPart part) : ':' ∉ part :=
  fun member => (nameAlphabet_plain ':' (named.2 ':' member)).2.1 rfl

namespace IsPackageName

variable {name : List Char}

theorem chars (named : IsPackageName name) : ∀ c ∈ name, c ∈ nameAlphabet ∨ c = ':' := by
  cases named with
  | plain named => exact fun c member => Or.inl (named.2 c member)
  | authored written named =>
      intro c member
      rcases List.mem_append.mp member with before | rest
      · exact Or.inl (written.2 c before)
      · rcases List.mem_cons.mp rest with colon | after
        · exact Or.inr colon
        · exact Or.inl (named.2 c after)

theorem count_colon (named : IsPackageName name) : name.count ':' ≤ 1 := by
  cases named with
  | plain named => simp [List.count_eq_zero.mpr named.no_colon]
  | authored written named =>
      simp [List.count_eq_zero.mpr written.no_colon, List.count_eq_zero.mpr named.no_colon]

theorem starts (named : IsPackageName name) : ∃ c rest, name = c :: rest ∧ c ∈ nameAlphabet := by
  cases named with
  | plain named =>
      obtain ⟨c, rest, rfl⟩ := List.exists_cons_of_ne_nil named.1
      exact ⟨c, rest, rfl, named.2 c List.mem_cons_self⟩
  | authored written named =>
      obtain ⟨c, rest, rfl⟩ := List.exists_cons_of_ne_nil written.1
      exact ⟨c, _, rfl, written.2 c List.mem_cons_self⟩

theorem ends (named : IsPackageName name) : ∀ c ∈ name.getLast?, c ∈ nameAlphabet := by
  cases named with
  | plain named => exact fun c last => named.2 c (List.mem_of_getLast? last)
  | authored written named =>
      intro c last
      obtain ⟨d, rest, rfl⟩ := List.exists_cons_of_ne_nil named.1
      rw [List.getLast?_append, List.getLast?_cons_cons, List.getLast?_cons, Option.some_or] at last
      refine named.2 c (List.mem_of_getLast? ?_)
      rwa [List.getLast?_cons]

theorem not_mem_of_outside (named : IsPackageName name) {c : Char} (outside : c ∉ nameAlphabet)
    (other : c ≠ ':') : c ∉ name := by
  intro member
  rcases named.chars c member with listed | colon
  · exact outside listed
  · exact other colon

theorem no_underscore (named : IsPackageName name) : '_' ∉ name :=
  named.not_mem_of_outside (by decide) (by decide)

theorem no_slash (named : IsPackageName name) : '/' ∉ name :=
  named.not_mem_of_outside (by decide) (by decide)

-- A name with a `:` in it is cut there; neither side holds another one, and neither is empty.
theorem of_chars (chars : ∀ c ∈ name, c ∈ nameAlphabet ∨ c = ':') (filled : name ≠ [])
    (few : name.count ':' ≤ 1) (first : name.head? ≠ some ':') (last : name.getLast? ≠ some ':') :
    IsPackageName name := by
  have isPart {part : List Char} (within : ∀ c ∈ part, c ∈ name) (whole : ':' ∉ part)
      (some : part ≠ []) : IsPart part := by
    refine ⟨some, fun c member => ?_⟩
    rcases chars c (within c member) with listed | rfl
    · exact listed
    · exact absurd member whole
  by_cases colon : ':' ∈ name
  · obtain ⟨author, part, rfl⟩ := List.append_of_mem colon
    rw [List.count_append, List.count_cons_self] at few
    refine .authored (isPart ?_ ?_ ?_) (isPart ?_ ?_ ?_)
    · exact fun c member => List.mem_append_left _ member
    · exact List.count_eq_zero.mp (by omega)
    · rintro rfl
      exact first rfl
    · exact fun c member => List.mem_append_right _ (List.mem_cons_of_mem _ member)
    · exact List.count_eq_zero.mp (by omega)
    · rintro rfl
      exact last (by simp)
  · exact .plain (isPart (fun _ member => member) colon filled)

end IsPackageName

theorem flaw_eq_none_iff (name : List Char) : flaw name = none ↔ IsPackageName name := by
  have allowed_iff : name.find? (fun c => !(isNameChar c || c == ':')) = none ↔
      ∀ c ∈ name, c ∈ nameAlphabet ∨ c = ':' := by
    simp only [List.find?_eq_none, Bool.not_eq_true', Bool.not_eq_false, Bool.or_eq_true,
      beq_iff_eq, isNameChar_iff]
  constructor
  · intro faultless
    unfold flaw at faultless
    split at faultless
    · cases faultless
    · rename_i filled
      split at faultless
      · cases faultless
      · rename_i few
        split at faultless
        · cases faultless
        · rename_i ends
          rw [Option.map_eq_none_iff, allowed_iff] at faultless
          simp only [Bool.or_eq_true, beq_iff_eq, not_or] at ends
          exact .of_chars faultless (by simpa using filled) (by omega) ends.1 ends.2
  · intro named
    obtain ⟨c, rest, spelled, listed⟩ := named.starts
    have filled : name.isEmpty = false := by simp [spelled]
    have few : ¬ 1 < name.count ':' := Nat.not_lt.mpr named.count_colon
    have first : name.head? ≠ some ':' := by
      rw [spelled]
      exact fun same => (nameAlphabet_plain c listed).2.1 (Option.some.inj same)
    have last : name.getLast? ≠ some ':' :=
      fun same => (nameAlphabet_plain ':' (named.ends ':' same)).2.1 rfl
    have fine := congrArg (Option.map NameFlaw.badCharacter) (allowed_iff.mpr named.chars)
    rw [flaw, fine]
    simp [filled, few, first, last]

theorem parse_eq_ok_iff (text : String) (package : PackageId) :
    parse text = .ok package ↔ package = .package text ∧ IsPackageName text.toList := by
  rw [← flaw_eq_none_iff, parse]
  split
  · rename_i faultless
    simp [faultless, eq_comm]
  · rename_i flaw found
    simp [found]

theorem valid_application : PackageId.application.Valid := by
  rintro name ⟨⟩

theorem valid_package_iff (name : String) :
    (PackageId.package name).Valid ↔ IsPackageName name.toList := by
  constructor
  · intro valid
    exact ((parse_eq_ok_iff name _).mp (valid name rfl)).2
  · rintro named other ⟨⟩
    exact (parse_eq_ok_iff name _).mpr ⟨rfl, named⟩

-- The staging name of a package begins like the package's name, and the application's with `_`.
theorem stagingName_ne_application {name : String} (named : IsPackageName name.toList) :
    (PackageId.package name).stagingName.text ≠ applicationName := by
  intro same
  obtain ⟨c, rest, spelled, listed⟩ := named.starts
  obtain ⟨-, noColon, noUnderscore⟩ := nameAlphabet_plain c listed
  have chars := congrArg String.toList same
  rw [stagingName, toList_replaceChar, spelled, List.map_cons, if_neg noColon] at chars
  exact noUnderscore (List.cons.inj chars).1

theorem colon_not_mem_stagingName (package : PackageId) :
    ':' ∉ package.stagingName.text.toList := by
  cases package with
  | application => decide
  | package name =>
      rw [stagingName, toList_replaceChar]
      intro member
      obtain ⟨c, -, colon⟩ := List.mem_map.mp member
      split at colon
      · revert colon
        decide
      · rename_i other
        exact other colon

theorem stagingName_package_iff (text : String) :
    (PackageId.package text).stagingName = ⟨text⟩ ↔ ':' ∉ text.toList := by
  constructor
  · intro same
    have whole := colon_not_mem_stagingName (.package text)
    rwa [same] at whole
  · intro absent
    exact congrArg StagingName.mk (replaceChar_of_not_mem absent)

theorem toIdentity_stagingName {package : PackageId} (valid : package.Valid) :
    package.stagingName.toIdentity = .ok package := by
  cases package with
  | application => rfl
  | package name =>
      have named := (valid_package_iff name).mp valid
      rw [StagingName.toIdentity, if_neg (stagingName_ne_application named), stagingName,
        replaceChar_back named.no_underscore]
      exact valid name rfl

theorem stagingName_injective {first second : PackageId} (left : first.Valid)
    (right : second.Valid) (same : first.stagingName = second.stagingName) : first = second := by
  have identities := toIdentity_stagingName left
  rw [same, toIdentity_stagingName right] at identities
  exact (Except.ok.inj identities).symm

theorem stagingName_text_eq_application_iff {package : PackageId} (valid : package.Valid) :
    package.stagingName.text = applicationName ↔ package = .application := by
  cases package with
  | application => simp [stagingName]
  | package name =>
      have other := stagingName_ne_application ((valid_package_iff name).mp valid)
      simp [other]

/-- The check accepts the names of the grammar, and an accepted identity can be read back from its
staging name; so no two of them share one, and the application's is its own. -/
theorem identities_survive_staging (text : String) (first second : PackageId) :
    (parse text = .ok first ↔ first = .package text ∧ IsPackageName text.toList) ∧
      (first.Valid → first.stagingName.toIdentity = .ok first) ∧
      (first.Valid → second.Valid →
        (first.stagingName = second.stagingName ↔ first = second)) ∧
      (first.Valid → (first.stagingName.text = applicationName ↔ first = .application)) :=
  ⟨parse_eq_ok_iff text first, toIdentity_stagingName,
    fun left right => ⟨stagingName_injective left right, congrArg stagingName⟩,
    stagingName_text_eq_application_iff⟩

end PackageId

namespace StagingName

open PackageId

theorem parse_eq_ok_iff (text : String) (staging : StagingName) :
    parse text = .ok staging ↔ staging = ⟨text⟩ ∧ ∃ package, toIdentity ⟨text⟩ = .ok package := by
  rw [parse]
  cases toIdentity ⟨text⟩ with
  | error fault => simp [bind, Except.bind]
  | ok package => simp [bind, Except.bind, eq_comm]

-- A text with both a `:` and an `_` would have two of them once each `_` is read as a `:`.
theorem no_underscore_of_colon {text : String} (colon : ':' ∈ text.toList)
    (named : IsPackageName (replaceChar '_' ':' text).toList) : '_' ∉ text.toList := by
  have few := named.count_colon
  rw [count_replaceChar (by decide)] at few
  have one := List.count_pos_iff.mpr colon
  exact List.count_eq_zero.mp (by omega)

theorem toIdentity_eq_ok_iff (text : String) (package : PackageId) :
    toIdentity ⟨text⟩ = .ok package ↔
      package.Valid ∧ (package.stagingName = ⟨text⟩ ∨ package = .package text) := by
  constructor
  · intro read
    unfold toIdentity at read
    split at read
    · rename_i application
      cases read
      exact ⟨valid_application, Or.inl (congrArg StagingName.mk application.symm)⟩
    · obtain ⟨rfl, named⟩ := (PackageId.parse_eq_ok_iff _ _).mp read
      refine ⟨(valid_package_iff _).mpr named, ?_⟩
      by_cases colon : ':' ∈ text.toList
      · exact Or.inr (by rw [replaceChar_of_not_mem (no_underscore_of_colon colon named)])
      · exact Or.inl (congrArg StagingName.mk (replaceChar_back colon))
  · rintro ⟨valid, same | rfl⟩
    · rw [← same]
      exact toIdentity_stagingName valid
    · have named := (valid_package_iff text).mp valid
      have other : text ≠ applicationName := by
        rintro rfl
        exact absurd named.no_underscore (by decide)
      rw [toIdentity, if_neg other, replaceChar_of_not_mem named.no_underscore]
      exact valid text rfl

def IsGiven (staging : StagingName) : Prop :=
  ∃ package : PackageId, package.Valid ∧ package.stagingName = staging

theorem IsGiven.no_colon {staging : StagingName} (given : staging.IsGiven) :
    ':' ∉ staging.text.toList := by
  obtain ⟨package, -, rfl⟩ := given
  exact colon_not_mem_stagingName package

theorem parse_isOk_iff (text : String) : (∃ staging, parse text = .ok staging) ↔
    IsGiven ⟨text⟩ ∨ ':' ∈ text.toList ∧ IsPackageName text.toList := by
  constructor
  · rintro ⟨staging, parsed⟩
    obtain ⟨-, package, read⟩ := (parse_eq_ok_iff text staging).mp parsed
    obtain ⟨valid, same | rfl⟩ := (toIdentity_eq_ok_iff text package).mp read
    · exact Or.inl ⟨package, valid, same⟩
    · by_cases colon : ':' ∈ text.toList
      · exact Or.inr ⟨colon, (valid_package_iff text).mp valid⟩
      · exact Or.inl ⟨_, valid, (stagingName_package_iff text).mpr colon⟩
  · intro either
    refine ⟨⟨text⟩, (parse_eq_ok_iff text _).mpr ⟨rfl, ?_⟩⟩
    rcases either with ⟨package, valid, same⟩ | ⟨-, named⟩
    · exact ⟨package, (toIdentity_eq_ok_iff text package).mpr ⟨valid, Or.inl same⟩⟩
    · have valid := (valid_package_iff text).mpr named
      exact ⟨_, (toIdentity_eq_ok_iff text _).mpr ⟨valid, Or.inr rfl⟩⟩

/-- Besides the staging names, the names in two parts are accepted, and no other text is. What was
accepted can be read as an identity, and its staging name is the text again unless that holds a
`:`, which no staging name does. -/
theorem staging_name_accepted_iff (text : String) :
    ((∃ staging, parse text = .ok staging) ↔
        IsGiven ⟨text⟩ ∨ ':' ∈ text.toList ∧ IsPackageName text.toList) ∧
      (IsGiven ⟨text⟩ → ':' ∉ text.toList) ∧
      ∀ staging, parse text = .ok staging → staging = ⟨text⟩ ∧
        ∃ package, staging.toIdentity = .ok package ∧
          (package.stagingName = staging ↔ ':' ∉ text.toList) := by
  refine ⟨parse_isOk_iff text, IsGiven.no_colon, fun staging parsed => ?_⟩
  obtain ⟨rfl, package, read⟩ := (parse_eq_ok_iff text staging).mp parsed
  refine ⟨rfl, package, read, ?_⟩
  obtain ⟨valid, same | rfl⟩ := (toIdentity_eq_ok_iff text package).mp read
  · exact iff_of_true same (IsGiven.no_colon ⟨package, valid, same⟩)
  · exact stagingName_package_iff text

/-- The name of a package in two parts is accepted, is no staging name, and is read as a package
that has another one. -/
theorem name_in_two_parts_is_accepted :
    parse "acme:widgets" = .ok ⟨"acme:widgets"⟩ ∧ ¬ IsGiven ⟨"acme:widgets"⟩ ∧
      ∃ package : PackageId, toIdentity ⟨"acme:widgets"⟩ = .ok package ∧
        package.stagingName ≠ ⟨"acme:widgets"⟩ := by
  obtain ⟨-, whole, reads⟩ := staging_name_accepted_iff "acme:widgets"
  have accepted : parse "acme:widgets" = .ok ⟨"acme:widgets"⟩ := rfl
  have colon : ':' ∈ "acme:widgets".toList := by decide
  obtain ⟨-, package, read, same_iff⟩ := reads _ accepted
  exact ⟨accepted, fun given => whole given colon, package, read,
    fun same => same_iff.mp same colon⟩

end StagingName

end PlatformBundle
