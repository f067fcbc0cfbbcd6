import PlatformBundle.Proofs.Sequencing
import PlatformBundle.Settings.Basic
/-!
What is known of settings that were built from a draft. The checks of `Draft.build` are read back
once, here; all that is said elsewhere about accepted settings rests on `build_accepted`, and what
is said about their paths on `build_paths`.
-/

namespace PlatformBundle.Settings

structure Accepted (workdir : RealPath) (settings : Settings) : Prop where
  namespaceIdentifier : isIdentifier settings.sharedNamespace = true
  globalIdentifier : isIdentifier settings.browserGlobal = true
  globalPlain : '$' ∉ settings.browserGlobal.toList
  namesDiffer : settings.sharedNamespace ≠ settings.browserGlobal
  suffixFilled : settings.entrySuffix.isEmpty = false
  sharedFileFilled : settings.sharedModulesFile.isEmpty = false
  baseAbsolute : ∃ path : Path, settings.stagingBase = path.absolutize workdir

theorem checkIdentifier_eq_ok {text : String} (checked : checkIdentifier text = .ok ()) :
    isIdentifier text = true := by
  unfold checkIdentifier at checked
  split at checked
  · assumption
  · cases checked

theorem checkGlobal_eq_ok {sharedNamespace browserGlobal : String}
    (checked : checkGlobal sharedNamespace browserGlobal = .ok ()) :
    '$' ∉ browserGlobal.toList ∧ sharedNamespace ≠ browserGlobal := by
  unfold checkGlobal at checked
  split at checked
  · cases checked
  · rename_i plain
    split at checked
    · cases checked
    · exact ⟨by simpa using plain, by assumption⟩

theorem checkFileNames_eq_ok {entrySuffix sharedModulesFile : String}
    (checked : checkFileNames entrySuffix sharedModulesFile = .ok ()) :
    entrySuffix.isEmpty = false ∧ sharedModulesFile.isEmpty = false := by
  unfold checkFileNames at checked
  split at checked
  · cases checked
  · rename_i filled
    simpa using filled

theorem build_accepted {workdir : RealPath} {draft : Draft} {settings : Settings}
    (built : draft.build workdir = .ok settings) : Accepted workdir settings := by
  unfold Draft.build at built
  split at built
  case h_2 => cases built
  case h_1 appRoot given =>
    obtain ⟨_, checkedNamespace, built⟩ := bind_eq_ok_iff.mp built
    obtain ⟨_, checkedName, built⟩ := bind_eq_ok_iff.mp built
    obtain ⟨_, checkedGlobal, built⟩ := bind_eq_ok_iff.mp built
    obtain ⟨_, checkedFiles, built⟩ := bind_eq_ok_iff.mp built
    cases built
    obtain ⟨plain, differ⟩ := checkGlobal_eq_ok checkedGlobal
    obtain ⟨suffix, shared⟩ := checkFileNames_eq_ok checkedFiles
    exact {
      namespaceIdentifier := checkIdentifier_eq_ok checkedNamespace
      globalIdentifier := checkIdentifier_eq_ok checkedName
      globalPlain := plain
      namesDiffer := differ
      suffixFilled := suffix
      sharedFileFilled := shared
      baseAbsolute := ⟨_, rfl⟩ }

theorem build_paths {workdir : RealPath} {draft : Draft} {settings : Settings}
    (built : draft.build workdir = .ok settings) :
    draft.appRoot = some settings.appRoot ∧
    settings.stagingBase =
      (draft.stagingBase.getD (settings.appRoot / defaultStagingDir)).absolutize workdir ∧
    settings.npm = draft.npm ∧ settings.webpack = draft.webpack := by
  unfold Draft.build at built
  split at built
  case h_2 => cases built
  case h_1 appRoot given =>
    obtain ⟨_, -, built⟩ := bind_eq_ok_iff.mp built
    obtain ⟨_, -, built⟩ := bind_eq_ok_iff.mp built
    obtain ⟨_, -, built⟩ := bind_eq_ok_iff.mp built
    obtain ⟨_, -, built⟩ := bind_eq_ok_iff.mp built
    cases built
    exact ⟨given, rfl, rfl, rfl⟩

end PlatformBundle.Settings
