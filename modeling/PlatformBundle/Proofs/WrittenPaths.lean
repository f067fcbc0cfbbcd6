import PlatformBundle.Proofs.BuiltSettings
import PlatformBundle.Proofs.DiskGrowth
import PlatformBundle.Proofs.UnknownKeys
/-!
The paths that a settings file sets. The application root and the staging base are put below the
base directory, and when that is absolute the settings are the same from every working directory.
The programs of the tools are taken as they are written, so they are where the base directory would
put them only if they are absolute.
-/

namespace PlatformBundle

namespace Path

variable {path base : Path}

theorem bodyComponent_ne_root (piece : List Char) : bodyComponent piece ≠ some .root := by
  unfold bodyComponent
  split_ifs <;> simp

theorem leadComponent_ne_root (piece : List Char) : leadComponent piece ≠ some .root := by
  unfold leadComponent
  split_ifs
  · simp
  · exact bodyComponent_ne_root piece

theorem components_of_isAbsolute (absolute : path.isAbsolute = true) :
    ∃ rest, path.components = .root :: rest := by
  unfold components
  cases cut : Text.pieces '/' path.text.toList with
  | nil => exact absurd cut (Text.pieces_ne_nil '/' _)
  | cons first rest => exact ⟨rest.filterMap bodyComponent, by simp [absolute]⟩

theorem root_not_mem_components (relative : path.isAbsolute = false) :
    .root ∉ path.components := by
  unfold components
  cases Text.pieces '/' path.text.toList with
  | nil => exact List.not_mem_nil
  | cons first rest =>
      simp only [relative, Bool.false_eq_true, if_false, List.mem_append, Option.mem_toList,
        List.mem_filterMap, not_or, not_exists, not_and]
      exact ⟨leadComponent_ne_root first, fun piece _ => bodyComponent_ne_root piece⟩

theorem absolutize_of_isAbsolute (absolute : path.isAbsolute = true) (workdir other : RealPath) :
    path.absolutize workdir = path.absolutize other := by
  obtain ⟨rest, components⟩ := components_of_isAbsolute absolute
  simp only [absolutize, spelled, components, resolveFrom]

theorem div_of_isAbsolute {text : String} (absolute : isAbsolute ⟨text⟩ = true) :
    base / text = ⟨text⟩ := if_pos absolute

/-- What is put below an absolute base is another path, unless it is absolute itself. -/
theorem sameAs_div_iff (absolute : base.isAbsolute = true) (path : Path) :
    path.sameAs (base / path.text) = true ↔ path.isAbsolute = true := by
  constructor
  · intro same
    obtain ⟨rest, components⟩ := components_of_isAbsolute (isAbsolute_div absolute path.text)
    have equal : path.components = (base / path.text).components := beq_iff_eq.mp same
    cases own : path.isAbsolute with
    | true => rfl
    | false =>
        have rooted : .root ∈ path.components := by
          rw [equal, components]
          exact List.mem_cons_self
        exact absurd rooted (root_not_mem_components own)
  · intro own
    rw [div_of_isAbsolute own]
    exact beq_self_eq_true _

end Path

namespace Toml

variable {β : Type} {names : List String} {unknown : Unknown} {item : Toml}

def entries? (names : List String) : Toml → Option (List (String × Toml))
  | .array _ items => some (names.zip items)
  | item => item.members?

def member? (names : List String) (name : String) (item : Toml) : Option Toml :=
  (entries? names item).bind (KeyMap.lookup name)

theorem lookup_zip (distinct : names.Nodup) (items : List β) :
    names.map (fun name => KeyMap.lookup name (names.zip items)) =
      (items.take names.length).map some ++ List.replicate (names.length - items.length) none := by
  induction names generalizing items with
  | nil => simp
  | cons first rest ih =>
      obtain ⟨fresh, distinct⟩ := List.nodup_cons.mp distinct
      cases items with
      | nil => simp [KeyMap.lookup, List.replicate_succ, List.map_const']
      | cons item items =>
          -- The later names differ from the first one, so the first entry is passed over.
          have later : rest.map (fun name => KeyMap.lookup name ((first, item) :: rest.zip items)) =
              rest.map (fun name => KeyMap.lookup name (rest.zip items)) := by
            apply List.map_congr_left
            intro name listed
            rw [KeyMap.lookup, if_neg]
            rintro rfl
            exact fresh listed
          rw [List.zip_cons_cons, List.map_cons, later, ih distinct]
          simp [KeyMap.lookup]

theorem named_found {members : List (String × Toml)} {found : List (Option Toml)}
    (read : named unknown names members = some found) :
    found = names.map (fun name => KeyMap.lookup name members) := by
  unfold named at read
  split at read
  · exact (Option.some.inj read).symm
  · cases read

theorem record?_found {found : List (Option Toml)} (distinct : names.Nodup)
    (read : record? unknown names item = some found) :
    found = names.map (fun name => member? names name item) := by
  cases item with
  | array ofTables items =>
      cases read
      exact (lookup_zip distinct items).symm
  | table kind members => exact named_found read
  | datetime text => exact named_found read
  | _ => cases read

theorem optional_found {read : Toml → Option β} {found : Option Toml} {value : Option β}
    (taken : optional read found = some value) : value = found.bind read := by
  cases found with
  | none =>
      cases taken
      rfl
  | some item =>
      obtain ⟨own, here, rfl⟩ := Option.map_eq_some_iff.mp taken
      exact here.symm

end Toml

namespace Settings

open Toml

/-- Paths of a settings file, as they are written. -/
structure WrittenPaths where
  appRoot : Option String
  stagingBase : Option String
  npmProgram : Option String
  webpackProgram : Option String

def setting? (name : String) (members : List (String × Toml)) : Option Toml :=
  (KeyMap.lookup "bundler" members).bind (member? Written.names name)

def npmNames : List String := ["program", "loglevel", "extra_args"]

def webpackNames : List String := ["program", "config_file"]

def program? (names : List String) (tool : Option Toml) : Option String :=
  (tool.bind (member? names "program")).bind text?

def writtenPaths (members : List (String × Toml)) : WrittenPaths where
  appRoot := (setting? "app_root" members).bind text?
  stagingBase := (setting? "staging_base" members).bind text?
  npmProgram := program? npmNames (setting? "npm" members)
  webpackProgram := program? webpackNames (setting? "webpack" members)

namespace Written

variable {item : Toml} {written : Written}

theorem npm_program {found : Option Toml} {npm : NpmSettings}
    (taken : orElse .standard npm? found = some npm) :
    npm.program = (program? npmNames found).map Path.mk := by
  cases found with
  | none =>
      cases taken
      rfl
  | some item =>
      obtain ⟨members, record, taken⟩ := Option.bind_eq_some_iff.mp taken
      rw [record?_found (by decide) record] at taken
      obtain ⟨program, here, taken⟩ := Option.bind_eq_some_iff.mp taken
      obtain ⟨loglevel, -, taken⟩ := Option.bind_eq_some_iff.mp taken
      obtain ⟨extraArgs, -, taken⟩ := Option.bind_eq_some_iff.mp taken
      cases taken
      rw [optional_found here]
      rfl

theorem webpack_program {found : Option Toml} {webpack : WebpackSettings}
    (taken : orElse .standard webpack? found = some webpack) :
    webpack.program = (program? webpackNames found).map Path.mk := by
  cases found with
  | none =>
      cases taken
      rfl
  | some item =>
      obtain ⟨members, record, taken⟩ := Option.bind_eq_some_iff.mp taken
      rw [record?_found (by decide) record] at taken
      obtain ⟨program, here, taken⟩ := Option.bind_eq_some_iff.mp taken
      obtain ⟨configFile, -, taken⟩ := Option.bind_eq_some_iff.mp taken
      cases taken
      rw [optional_found here]
      rfl

theorem ofItem?_found (read : ofItem? item = some written) :
    ofFound? (fun name => member? names name item) = some written := by
  unfold ofItem? at read
  split at read
  · cases read
  · obtain ⟨found, record, read⟩ := Option.bind_eq_some_iff.mp read
    rw [record?_found (by decide) record] at read
    exact read

/-- The settings that were read have the paths of the document. -/
structure Has (written : Written) (paths : WrittenPaths) : Prop where
  appRoot : written.appRoot = paths.appRoot
  stagingBase : written.stagingBase = paths.stagingBase
  npmProgram : written.npm.program = paths.npmProgram.map Path.mk
  webpackProgram : written.webpack.program = paths.webpackProgram.map Path.mk

theorem ofFound?_has {found : String → Option Toml} (read : ofFound? found = some written) :
    written.Has ⟨(found "app_root").bind text?, (found "staging_base").bind text?,
      program? npmNames (found "npm"), program? webpackNames (found "webpack")⟩ := by
  obtain ⟨appRoot, takenRoot, read⟩ := Option.bind_eq_some_iff.mp read
  obtain ⟨stagingBase, takenBase, read⟩ := Option.bind_eq_some_iff.mp read
  obtain ⟨ownPackage, -, read⟩ := Option.bind_eq_some_iff.mp read
  obtain ⟨sharedNamespace, -, read⟩ := Option.bind_eq_some_iff.mp read
  obtain ⟨entrySuffix, -, read⟩ := Option.bind_eq_some_iff.mp read
  obtain ⟨sharedModulesFile, -, read⟩ := Option.bind_eq_some_iff.mp read
  obtain ⟨browserGlobal, -, read⟩ := Option.bind_eq_some_iff.mp read
  obtain ⟨toolDependencies, -, read⟩ := Option.bind_eq_some_iff.mp read
  obtain ⟨npm, takenNpm, read⟩ := Option.bind_eq_some_iff.mp read
  obtain ⟨webpack, takenWebpack, read⟩ := Option.bind_eq_some_iff.mp read
  obtain ⟨unclassified, -, read⟩ := Option.bind_eq_some_iff.mp read
  obtain ⟨resetOnFirstRun, -, read⟩ := Option.bind_eq_some_iff.mp read
  obtain ⟨platforms, -, read⟩ := Option.bind_eq_some_iff.mp read
  cases read
  exact {
    appRoot := optional_found takenRoot
    stagingBase := optional_found takenBase
    npmProgram := npm_program takenNpm
    webpackProgram := webpack_program takenWebpack }

theorem ofDocument?_has {members : List (String × Toml)}
    (read : ofDocument? members = some written) : written.Has (writtenPaths members) := by
  rw [ofDocument?_eq] at read
  split at read
  · unfold writtenPaths setting?
    cases table : KeyMap.lookup "bundler" members with
    | none =>
        rw [table] at read
        cases read
        exact ⟨rfl, rfl, rfl, rfl⟩
    | some bundler =>
        rw [table] at read
        exact ofFound?_has (ofItem?_found read)
  · cases read

end Written

/-- The paths of settings that come from a file: those that were written, the directories below the
base and the programs as they are. -/
structure Follow (workdir : RealPath) (base : Path) (paths : WrittenPaths) (settings : Settings) :
    Prop where
  appRoot : settings.appRoot = paths.appRoot.elim base (base / ·)
  stagingBase : settings.stagingBase =
    (paths.stagingBase.elim (settings.appRoot / defaultStagingDir) (base / ·)).absolutize workdir
  npmProgram : settings.npm.program = paths.npmProgram.map Path.mk
  webpackProgram : settings.webpack.program = paths.webpackProgram.map Path.mk

variable {workdir : RealPath} {base : Path} {draft : Draft} {settings : Settings}

theorem build_anywhere (other : RealPath)
    (same : ∀ appRoot, draft.appRoot = some appRoot →
      (draft.stagingBase.getD (appRoot / defaultStagingDir)).isAbsolute = true) :
    draft.build workdir = draft.build other := by
  unfold Draft.build
  cases given : draft.appRoot with
  | none => rfl
  | some appRoot =>
      simp only [Path.absolutize_of_isAbsolute (same appRoot given) workdir other]

variable {written : Written} {text : String}

theorem draft_paths (drafted : written.draft base = .ok draft) :
    draft.appRoot = some (written.appRoot.elim base (base / ·)) ∧
    draft.stagingBase = written.stagingBase.map (base / ·) ∧
    draft.npm = written.npm ∧ draft.webpack = written.webpack := by
  obtain ⟨ownPackage, -, drafted⟩ := bind_eq_ok_iff.mp drafted
  cases drafted
  exact ⟨rfl, rfl, rfl, rfl⟩

theorem parse_ok_iff : parse workdir text base = .ok settings ↔
    ∃ written draft, (Toml.read text).bind Written.ofDocument? = some written ∧
      written.draft base = .ok draft ∧ draft.build workdir = .ok settings := by
  unfold parse
  cases (Toml.read text).bind Written.ofDocument? with
  | none => simp
  | some written =>
      refine mapError_eq_ok_iff.trans (bind_eq_ok_iff.trans ?_)
      simp

theorem follow_of_build {paths : WrittenPaths} (has : written.Has paths)
    (drafted : written.draft base = .ok draft) (built : draft.build workdir = .ok settings) :
    Follow workdir base paths settings := by
  obtain ⟨root, staging, npm, webpack⟩ := draft_paths drafted
  obtain ⟨ownRoot, ownStaging, ownNpm, ownWebpack⟩ := build_paths built
  constructor
  · rw [← has.appRoot]
    exact Option.some.inj (ownRoot.symm.trans root)
  · rw [ownStaging, staging, has.stagingBase]
    cases paths.stagingBase <;> rfl
  · rw [ownNpm, npm, has.npmProgram]
  · rw [ownWebpack, webpack, has.webpackProgram]

theorem draft_anywhere (absolute : base.isAbsolute = true)
    (drafted : written.draft base = .ok draft) (workdir other : RealPath) :
    draft.build workdir = draft.build other := by
  obtain ⟨root, staging, -⟩ := draft_paths drafted
  have below (text : String) : (base / text).isAbsolute = true := Path.isAbsolute_div absolute text
  apply build_anywhere
  intro appRoot given
  rw [staging]
  cases written.stagingBase with
  | some text => exact below text
  | none =>
      have own : appRoot = written.appRoot.elim base (base / ·) :=
        Option.some.inj (given.symm.trans root)
      apply Path.isAbsolute_div
      rw [own]
      cases written.appRoot with
      | none => exact absolute
      | some text => exact below text

/-- The directories of accepted settings are those of the file, below its base. A program stays as
it is written, which is the same path only if it is absolute. The working directory makes no
difference. -/
theorem written_paths_followed (absolute : base.isAbsolute = true)
    (accepted : parse workdir text base = .ok settings) :
    ∃ members, Toml.read text = some members ∧
      Follow workdir base (writtenPaths members) settings ∧
      (∀ program, settings.npm.program = some program ∨ settings.webpack.program = some program →
        (program.sameAs (base / program.text) = true ↔ program.isAbsolute = true)) ∧
      ∀ other, parse other text base = .ok settings := by
  obtain ⟨written, draft, taken, drafted, built⟩ := parse_ok_iff.mp accepted
  obtain ⟨members, read, found⟩ := Option.bind_eq_some_iff.mp taken
  refine ⟨members, read, follow_of_build (Written.ofDocument?_has found) drafted built,
    fun program _ => Path.sameAs_div_iff absolute program, fun other => ?_⟩
  rw [draft_anywhere absolute drafted workdir other] at built
  exact parse_ok_iff.mpr ⟨written, draft, taken, drafted, built⟩

section RelativeProgram

def siteText : String :=
  "[bundler]\napp_root = \"site\"\nstaging_base = \"../stage\"\n" ++
    "[bundler.npm]\nprogram = \"tools/npm\""

def siteSettings : Settings where
  appRoot := ⟨"/srv/app/site"⟩
  stagingBase := ⟨"/srv/stage"⟩
  ownPackage := defaultOwnPackage
  sharedNamespace := defaultNamespace
  entrySuffix := "module.js"
  sharedModulesFile := "shared-modules.js"
  browserGlobal := "window"
  toolDependencies := defaultToolDependencies
  npm := { NpmSettings.standard with program := some ⟨"tools/npm"⟩ }
  webpack := .standard
  unclassified := .warn
  resetOnFirstRun := false
  platformOverrides := KeyMap.empty

/-- The directories are put below the base, the program of the same file is not. -/
theorem relative_program_stays :
    parse ["home"] siteText ⟨"/srv/app"⟩ = .ok siteSettings ∧
    siteSettings.npm.program = some ⟨"tools/npm"⟩ ∧
    Path.sameAs ⟨"tools/npm"⟩ (Path.mk "/srv/app" / "tools/npm") = false ∧
    ∀ other, parse other siteText ⟨"/srv/app"⟩ = .ok siteSettings := by
  have accepted : parse ["home"] siteText ⟨"/srv/app"⟩ = .ok siteSettings := by decide +kernel
  obtain ⟨members, -, -, programs, anywhere⟩ := written_paths_followed (by decide) accepted
  refine ⟨accepted, rfl, ?_, anywhere⟩
  rw [← Bool.not_eq_true, programs (Path.mk "tools/npm") (Or.inl rfl)]
  decide

end RelativeProgram

end Settings

end PlatformBundle
