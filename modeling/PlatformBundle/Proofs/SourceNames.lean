import Mathlib.Data.List.Nodup
import PlatformBundle.Input
import PlatformBundle.Proofs.PackageNames
import PlatformBundle.Proofs.Paths
/-!
Names of packages and files as places below a staging root. Packages that were validated keep apart
in their staging names, and so do their files in the paths that they are staged at and in the paths
that they are reported by.
-/

namespace PlatformBundle

open Text

def namesOf (text : String) : List String := (pieces '/' text.toList).map String.ofList

theorem joinWith_namesOf (text : String) : joinWith "/" (namesOf text) = text := by
  rw [← String.toList_inj, toList_joinWith "/" '/' rfl, namesOf, List.map_map]
  simp [Function.comp_def, glue_pieces]

theorem namesOf_ne_nil (text : String) : namesOf text ≠ [] := by
  simpa [namesOf] using pieces_ne_nil '/' text.toList

theorem namesOf_injective {first second : String} (same : namesOf first = namesOf second) :
    first = second := by
  rw [← joinWith_namesOf first, same, joinWith_namesOf]

theorem namesOf_below {directory : String} (whole : '/' ∉ directory.toList) (text : String) :
    namesOf (directory ++ "/" ++ text) = directory :: namesOf text := by
  have spelled : (directory ++ "/" ++ text).toList = directory.toList ++ '/' :: text.toList := by
    simp
  rw [namesOf, spelled, pieces_append whole, List.map_cons, String.ofList_toList, namesOf]

namespace PackageId

theorem isSegment_stagingName {package : PackageId} (valid : package.Valid) :
    IsSegment package.stagingName.text := by
  cases package with
  | application => decide
  | package name =>
      have named := (valid_package_iff name).mp valid
      constructor
      · obtain ⟨c, rest, spelled, -⟩ := named.starts
        simp [stagingName, toList_replaceChar, spelled]
      · rw [stagingName, toList_replaceChar]
        intro member
        obtain ⟨c, listed, same⟩ := List.mem_map.mp member
        split at same
        · revert same
          decide
        · subst same
          exact named.no_slash listed

theorem no_slash_nameOrEmpty {package : PackageId} (valid : package.Valid) :
    '/' ∉ package.nameOrEmpty.toList := by
  cases package with
  | application => decide
  | package name => exact ((valid_package_iff name).mp valid).no_slash

theorem nameOrEmpty_injective {first second : PackageId} (left : first.Valid)
    (right : second.Valid) (same : first.nameOrEmpty = second.nameOrEmpty) : first = second := by
  have filled {name : String} (valid : (PackageId.package name).Valid) : name ≠ "" := by
    rintro rfl
    obtain ⟨c, rest, spelled, -⟩ := ((valid_package_iff "").mp valid).starts
    cases spelled
  cases first with
  | application =>
      cases second with
      | application => rfl
      | package name => exact absurd same.symm (filled right)
  | package name =>
      cases second with
      | application => exact absurd same (filled left)
      | package other => exact congrArg PackageId.package same

end PackageId

/-- A file of a validated package whose name is made of ordinary components. -/
structure InputFile.IsOrdinary (file : InputFile) : Prop where
  valid : file.package.Valid
  notHere : file.package.stagingName.text ≠ "."
  notUp : file.package.stagingName.text ≠ ".."
  components : ∀ name ∈ namesOf file.fileName, IsProper name

namespace Classified

structure IsOrdinary (file : Classified) : Prop where
  staging : IsProper file.stagingName.text
  staged : namesOf file.stagedPath = file.stagingName.text :: namesOf file.fileName
  components : ∀ name ∈ namesOf file.fileName, IsProper name

theorem IsOrdinary.proper {file : Classified} (ordinary : file.IsOrdinary) :
    ∀ name ∈ namesOf file.stagedPath, IsProper name := by
  rw [ordinary.staged]
  intro name listed
  rcases List.mem_cons.mp listed with rfl | later
  · exact ordinary.staging
  · exact ordinary.components name later

end Classified

theorem isOrdinary_classify {file : InputFile} (settings : Settings) (ordinary : file.IsOrdinary) :
    (classify settings file).IsOrdinary := by
  have segment := PackageId.isSegment_stagingName ordinary.valid
  exact ⟨⟨segment, ordinary.notHere, ordinary.notUp⟩, namesOf_below segment.whole file.fileName,
    ordinary.components⟩

theorem stagedPath_eq_iff (settings : Settings) {first second : InputFile}
    (left : first.package.Valid) (right : second.package.Valid) :
    (classify settings first).stagedPath = (classify settings second).stagedPath ↔
      first.package = second.package ∧ first.fileName = second.fileName := by
  constructor
  · intro same
    have names := congrArg namesOf same
    rw [classify, classify, namesOf_below (PackageId.isSegment_stagingName left).whole,
      namesOf_below (PackageId.isSegment_stagingName right).whole] at names
    obtain ⟨staging, components⟩ := List.cons.inj names
    exact ⟨PackageId.stagingName_injective left right (congrArg StagingName.mk staging),
      namesOf_injective components⟩
  · rintro ⟨package, fileName⟩
    rw [classify, classify, package, fileName]

theorem stagedPath_injective {settings : Settings} {first second : InputFile}
    (left : first.IsOrdinary) (right : second.IsOrdinary)
    (same : (classify settings first).stagedPath = (classify settings second).stagedPath) :
    first.package = second.package ∧ first.fileName = second.fileName :=
  (stagedPath_eq_iff settings left.valid right.valid).mp same

theorem stagedPaths_distinct {settings : Settings} {files : List InputFile}
    (ordinary : ∀ file ∈ files, file.IsOrdinary)
    (distinct : (files.map (fun file => (file.package, file.fileName))).Nodup) :
    ((files.map (classify settings)).map Classified.stagedPath).Nodup := by
  rw [List.map_map]
  refine List.Nodup.map_on ?_ distinct.of_map
  intro first here second there same
  obtain ⟨package, fileName⟩ := stagedPath_injective (ordinary first here) (ordinary second there)
    same
  exact List.inj_on_of_nodup_map distinct here there (Prod.ext package fileName)

theorem sourcePath_classify (settings : Settings) (file : InputFile) :
    (classify settings file).sourcePath = file.package.nameOrEmpty ++ "/" ++ file.fileName := rfl

theorem sourcePath_eq_iff (settings : Settings) {first second : InputFile}
    (left : first.package.Valid) (right : second.package.Valid) :
    (classify settings first).sourcePath = (classify settings second).sourcePath ↔
      first.package = second.package ∧ first.fileName = second.fileName := by
  constructor
  · intro same
    have names := congrArg namesOf same
    rw [sourcePath_classify, sourcePath_classify,
      namesOf_below (PackageId.no_slash_nameOrEmpty left),
      namesOf_below (PackageId.no_slash_nameOrEmpty right)] at names
    obtain ⟨package, components⟩ := List.cons.inj names
    exact ⟨PackageId.nameOrEmpty_injective left right package, namesOf_injective components⟩
  · rintro ⟨package, fileName⟩
    rw [sourcePath_classify, sourcePath_classify, package, fileName]

end PlatformBundle
