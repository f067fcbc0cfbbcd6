import PlatformBundle.Report
import PlatformBundle.Proofs.ByteOrder
import PlatformBundle.Proofs.EntryArtifacts
import PlatformBundle.Proofs.PackageDirectories
import PlatformBundle.Proofs.StagedManifests
/-!
Which file a message of the bundling tool is put down to. It is the file of the first entry, in byte
order of the staged paths, whose path the message holds; the path that the user knows it by can be
read back from the staged path, since no staging name holds a separator. A path that is held may
still be a part of another one: an error about one entry goes to the file of another when that
one's path shadows its own, and only then.
-/

namespace PlatformBundle

namespace Report

open Text

/-- A message names a staged path that it holds below the directory of the staged sources. -/
def Names (message stagedPath : String) : Prop :=
  (packagesDir ++ "/" ++ stagedPath).toList <:+: message.toList

theorem mentions_iff (message stagedPath : String) :
    mentions message stagedPath = true ↔ Names message stagedPath :=
  occursIn_iff _ _

theorem sourcePathOf_stagedPath (settings : Settings) {file : InputFile}
    (valid : file.package.Valid) :
    sourcePathOf (classify settings file).stagedPath =
      some (classify settings file).sourcePath := by
  have spelled : (classify settings file).stagedPath.toList =
      file.package.stagingName.text.toList ++ '/' :: file.fileName.toList := by
    simp [classify]
  have parsed : StagingName.parse file.package.stagingName.text = .ok file.package.stagingName :=
    (StagingName.parse_eq_ok_iff _ _).mpr
      ⟨rfl, file.package, PackageId.toIdentity_stagingName valid⟩
  have read : (StagingName.parse file.package.stagingName.text).bind StagingName.toIdentity =
      .ok file.package := by
    rw [parsed]
    exact PackageId.toIdentity_stagingName valid
  rw [sourcePathOf, spelled, cutFirst_append (PackageId.isSegment_stagingName valid).whole]
  simp only [Option.bind_eq_bind, Option.bind_some, String.ofList_toList, read]
  rfl

theorem find?_mentions_iff (config : BundleConfig) (message key : String) :
    config.entry.keys.find? (mentions message) = some key ↔
      config.entry.contains key = true ∧ Names message key ∧
        ∀ other, config.entry.contains other = true → Names message other →
          ¬ utf8 other < utf8 key := by
  simp only [KeyMap.find?_keys_iff, mentions_iff, utf8_lt_iff]

section Batches

variable {settings : Settings} {registry : Registry} {root : Path} {files : List InputFile}
  {start config : BundleConfig} {batch : StagedBatch} {disk left : Disk}

theorem contains_iff_entry (fresh : start.entry = KeyMap.empty)
    (staged : (Staging.stage settings registry root (files.map (classify settings))
      start).onDisk disk = (.ok batch, left))
    (same : config.entry = batch.config.entry) (key : String) :
    config.entry.contains key = true ↔
      ∃ file ∈ files, kindOf settings file = .entry ∧
        (classify settings file).stagedPath = key := by
  obtain ⟨-, -, -, described⟩ := Staging.stage_described staged
  have entries :=
    @Staging.entry_get?_iff (files.map (classify settings)) ⟨KeyMap.empty, start⟩ fresh key
  rw [same, described, KeyMap.contains_iff]
  simp only [entries, List.mem_map, exists_exists_and_eq_and, exists_eq_left]
  rfl

/-- The entry that a message is put down to: of those whose path it holds, the one with the least
path in byte order. -/
structure IsFirstNamed (settings : Settings) (files : List InputFile) (message : String)
    (file : InputFile) : Prop where
  listed : file ∈ files
  entry : kindOf settings file = .entry
  named : Names message (classify settings file).stagedPath
  least : ∀ other ∈ files, kindOf settings other = .entry →
    Names message (classify settings other).stagedPath →
      ¬ utf8 (classify settings other).stagedPath < utf8 (classify settings file).stagedPath

structure Attributes (settings : Settings) (files : List InputFile) (config : BundleConfig)
    (message : String) (diagnostic : Diagnostic) : Prop where
  text : diagnostic.message = message
  missing : diagnostic.sourcePath = none ↔
    ∀ key, config.entry.contains key = true → ¬ Names message key
  found : ∀ source, diagnostic.sourcePath = some source ↔
    ∃ file, IsFirstNamed settings files message file ∧
      (classify settings file).sourcePath = source

theorem find?_mentions_staged_iff (fresh : start.entry = KeyMap.empty)
    (staged : (Staging.stage settings registry root (files.map (classify settings))
      start).onDisk disk = (.ok batch, left))
    (same : config.entry = batch.config.entry) (message key : String) :
    config.entry.keys.find? (mentions message) = some key ↔
      ∃ file, IsFirstNamed settings files message file ∧
        (classify settings file).stagedPath = key := by
  simp only [find?_mentions_iff, contains_iff_entry fresh staged same]
  constructor
  · rintro ⟨⟨file, listed, entry, rfl⟩, named, least⟩
    exact ⟨file, ⟨listed, entry, named, fun other member kind =>
      least _ ⟨other, member, kind, rfl⟩⟩, rfl⟩
  · rintro ⟨file, first, rfl⟩
    refine ⟨⟨file, first.listed, first.entry, rfl⟩, first.named, ?_⟩
    rintro _ ⟨other, member, kind, rfl⟩
    exact first.least other member kind

theorem attributed_attributes (valid : ∀ file ∈ files, file.package.Valid)
    (fresh : start.entry = KeyMap.empty)
    (staged : (Staging.stage settings registry root (files.map (classify settings))
      start).onDisk disk = (.ok batch, left))
    (same : config.entry = batch.config.entry) (message : String) :
    Attributes settings files config message (attributed config message) := by
  have chosen := find?_mentions_staged_iff fresh staged same message
  have read {file : InputFile} (first : IsFirstNamed settings files message file) :=
    sourcePathOf_stagedPath settings (valid file first.listed)
  have found (source : String) : (attributed config message).sourcePath = some source ↔
      ∃ file, IsFirstNamed settings files message file ∧
        (classify settings file).sourcePath = source := by
    rw [attributed, Option.bind_eq_some_iff]
    constructor
    · rintro ⟨key, here, given⟩
      obtain ⟨file, first, rfl⟩ := (chosen key).mp here
      rw [read first] at given
      exact ⟨file, first, Option.some.inj given⟩
    · rintro ⟨file, first, rfl⟩
      exact ⟨_, (chosen _).mpr ⟨file, first, rfl⟩, read first⟩
  refine ⟨rfl, ?_, found⟩
  constructor
  · intro missing key registered named
    have some : (config.entry.keys.find? (mentions message)).isSome = true := by
      rw [List.find?_isSome]
      exact ⟨key, KeyMap.mem_keys_iff.mpr registered, (mentions_iff _ _).mpr named⟩
    obtain ⟨least, here⟩ := Option.isSome_iff_exists.mp some
    obtain ⟨file, first, -⟩ := (chosen least).mp here
    have given := (found _).mpr ⟨file, first, rfl⟩
    rw [missing] at given
    cases given
  · intro unnamed
    refine Option.eq_none_iff_forall_ne_some.mpr (fun source given => ?_)
    obtain ⟨file, first, -⟩ := (found source).mp given
    exact unnamed _ ((contains_iff_entry fresh staged same _).mpr
      ⟨file, first.listed, first.entry, rfl⟩) first.named

/-- Messages become diagnostics one by one. Each is put down to the first entry whose path it holds,
or to none if it holds no entry's path; and since the paths of validated packages keep their files
apart, the path in the report is that of one file of the batch. -/
theorem messages_attributed (valid : ∀ file ∈ files, file.package.Valid)
    (fresh : start.entry = KeyMap.empty)
    (staged : (Staging.stage settings registry root (files.map (classify settings))
      start).onDisk disk = (.ok batch, left))
    (same : config.entry = batch.config.entry) (messages : List String) :
    List.Forall₂ (Attributes settings files config) messages (diagnostics config messages) ∧
      (∀ file : InputFile, file.package.Valid →
        sourcePathOf (classify settings file).stagedPath =
          some (classify settings file).sourcePath) ∧
      ∀ first second : InputFile, first.package.Valid → second.package.Valid →
        ((classify settings first).stagedPath = (classify settings second).stagedPath ↔
          first.package = second.package ∧ first.fileName = second.fileName) ∧
        ((classify settings first).sourcePath = (classify settings second).sourcePath ↔
          first.package = second.package ∧ first.fileName = second.fileName) := by
  refine ⟨?_, fun file => sourcePathOf_stagedPath settings,
    fun first second left right =>
      ⟨stagedPath_eq_iff settings left right, sourcePath_eq_iff settings left right⟩⟩
  rw [diagnostics, List.forall₂_map_right_iff, List.forall₂_same]
  exact fun message _ => attributed_attributes valid fresh staged same message

end Batches

section Modules

open Batch Staging

def unnamedText : String := "heap out of memory"

def widgetText : String := "Module not found in ./packages/acme_widgets/module.js"

/-- A message with the path of an entry in it, and one without any. -/
theorem modules_attributed : ∃ batch left,
    (stageBrowser plainSettings [widgetModule, appModule]).onDisk ⟨emptyTree, []⟩ =
      (.ok batch, left) ∧
    diagnostics batch.config [widgetText, unnamedText] =
      [⟨widgetText, some "acme:widgets/module.js"⟩, ⟨unnamedText, none⟩] := by
  obtain ⟨batch, left, staged⟩ := modules_staged
  have valid : ∀ file ∈ [widgetModule, appModule], file.package.Valid :=
    fun file listed => (isOrderly_modules.ordinary file listed).valid
  obtain ⟨both, -⟩ := messages_attributed valid rfl staged rfl [widgetText, unnamedText]
  refine ⟨batch, left, staged, ?_⟩
  have own : mentions widgetText (classify plainSettings widgetModule).stagedPath = true := by
    decide
  have others : mentions widgetText (classify plainSettings appModule).stagedPath = false := by
    decide
  have unnamed : ∀ file ∈ [widgetModule, appModule],
      mentions unnamedText (classify plainSettings file).stagedPath = false := by
    decide
  have first : IsFirstNamed plainSettings [widgetModule, appModule] widgetText widgetModule := by
    refine ⟨by simp, by decide, (mentions_iff _ _).mp own, fun other listed _ named => ?_⟩
    rcases List.mem_cons.mp listed with rfl | later
    · exact List.lt_irrefl _
    · rw [List.mem_singleton.mp later, ← mentions_iff, others] at named
      cases named
  generalize diagnostics batch.config [widgetText, unnamedText] = given at both
  rcases both with _ | ⟨named, _ | ⟨free, _ | _⟩⟩
  rename_i diagnostic last
  obtain ⟨_, source⟩ := diagnostic
  obtain ⟨_, absent⟩ := last
  obtain rfl := named.text
  obtain rfl := free.text
  have found : source = some "acme:widgets/module.js" :=
    (named.found _).mpr ⟨widgetModule, first, by decide⟩
  have missing : absent = none := by
    refine Option.eq_none_iff_forall_ne_some.mpr (fun other given => ?_)
    obtain ⟨file, here, -⟩ := (free.found other).mp given
    have held := (mentions_iff _ _).mpr here.named
    rw [unnamed file here.listed] at held
    cases held
  rw [found, missing]

end Modules

def mark : List Char := (packagesDir ++ "/").toList

theorem names_iff_mark (message stagedPath : String) :
    Names message stagedPath ↔ mark ++ stagedPath.toList <:+: message.toList := by
  rw [Names, mark, String.toList_append]

def errorAt (stagedPath text : String) : String :=
  "ERROR in " ++ BundleConfig.entrySource stagedPath ++ "\n" ++ text

theorem errorText_at {error : Json} {stagedPath text : String}
    (about : error.member? "moduleName" = some (.string (BundleConfig.entrySource stagedPath)))
    (message : error.member? "message" = some (.string text)) :
    errorText error = errorAt stagedPath text := by
  cases error
  case object members =>
    simp only [errorText, about, message, Option.bind_some, Json.string?, Option.getD_some, errorAt]
  all_goals cases about

theorem toList_errorAt (stagedPath text : String) :
    (errorAt stagedPath text).toList = ("ERROR in ".toList ++ "./".toList) ++
      (mark ++ (stagedPath.toList ++ '\n' :: text.toList)) := by
  simp only [errorAt, BundleConfig.entrySource, mark, String.toList_append, List.append_assoc]
  rfl

/-- Another entry's path that comes before an entry's own in an error about it. It is a front part
of that path, or follows on a directory in it that is called like that of the staged sources. -/
def Shadows (other named text : String) : Prop :=
  utf8 other < utf8 named ∧ (other.toList <+: named.toList ∨
    ∃ front back, named.toList = front ++ (mark ++ back) ∧
      other.toList <+: back ++ '\n' :: text.toList)

theorem names_errorAt_iff {text : String} (plain : ¬ mark <:+: text.toList)
    (other stagedPath : String) : Names (errorAt stagedPath text) other ↔
      other.toList <+: stagedPath.toList ++ '\n' :: text.toList ∨
        ∃ front back, stagedPath.toList = front ++ (mark ++ back) ∧
          other.toList <+: back ++ '\n' :: text.toList := by
  have begins : mark = 'p' :: "ackages/".toList := by decide
  have before : 'p' ∉ "ERROR in ".toList ++ "./".toList := by decide
  have inside : 'p' ∉ "ackages/".toList := by decide
  have whole : '\n' ∉ mark := by decide
  rw [names_iff_mark, toList_errorAt, ← infix_line_iff whole plain]
  generalize stagedPath.toList ++ '\n' :: text.toList = body
  rw [begins, List.cons_append, List.cons_append, infix_skip before, List.infix_cons_iff,
    infix_skip inside, List.cons_prefix_cons, List.prefix_append_right_inj]
  simp

theorem prefix_before_iff {other named : String} (below : other < named) (rest : List Char) :
    other.toList <+: named.toList ++ rest ↔ other.toList <+: named.toList := by
  constructor
  · intro ahead
    rcases List.prefix_or_prefix_of_prefix ahead (List.prefix_append _ _) with here | beyond
    · exact here
    · exact absurd (String.lt_iff_toList_lt.mp below) (List.not_lt.mpr beyond.le)
  · exact fun ahead => ahead.trans (List.prefix_append _ _)

theorem shadows_iff {text : String} (plain : ¬ mark <:+: text.toList)
    (other stagedPath : String) : Shadows other stagedPath text ↔
      Names (errorAt stagedPath text) other ∧ utf8 other < utf8 stagedPath := by
  rw [names_errorAt_iff plain, Shadows, and_comm]
  refine and_congr_left (fun below => or_congr_left ?_)
  exact (prefix_before_iff ((utf8_lt_iff _ _).mp below) _).symm

section Batches

variable {settings : Settings} {registry : Registry} {root : Path} {files : List InputFile}
  {start config : BundleConfig} {batch : StagedBatch} {disk left : Disk}

/-- An error about the module of an entry is put down to that entry's file unless another entry's
path shadows its path. -/
theorem error_attributed_iff (valid : ∀ file ∈ files, file.package.Valid)
    (fresh : start.entry = KeyMap.empty)
    (staged : (Staging.stage settings registry root (files.map (classify settings))
      start).onDisk disk = (.ok batch, left))
    (same : config.entry = batch.config.entry) {file : InputFile} (listed : file ∈ files)
    (entry : kindOf settings file = .entry) {error : Json} {text : String}
    (about : error.member? "moduleName" =
      some (.string (BundleConfig.entrySource (classify settings file).stagedPath)))
    (message : error.member? "message" = some (.string text))
    (plain : ¬ mark <:+: text.toList) :
    (attributed config (errorText error)).sourcePath = some (classify settings file).sourcePath ↔
      ∀ other ∈ files, kindOf settings other = .entry → ¬ Shadows
        (classify settings other).stagedPath (classify settings file).stagedPath text := by
  have given := (attributed_attributes valid fresh staged same (errorText error)).found
    (classify settings file).sourcePath
  rw [errorText_at about message] at given ⊢
  rw [given]
  constructor
  · rintro ⟨found, first, source⟩ other member kind shadows
    have paths : (classify settings found).stagedPath = (classify settings file).stagedPath :=
      (stagedPath_eq_iff settings (valid found first.listed) (valid file listed)).mpr
        ((sourcePath_eq_iff settings (valid found first.listed) (valid file listed)).mp source)
    obtain ⟨named, below⟩ := (shadows_iff plain _ _).mp shadows
    have least := first.least other member kind named
    rw [paths] at least
    exact least below
  · intro clear
    refine ⟨file, ⟨listed, entry, (names_errorAt_iff plain _ _).mpr (Or.inl ?_), ?_⟩, rfl⟩
    · exact List.prefix_append _ _
    · intro other member kind named below
      exact clear other member kind ((shadows_iff plain _ _).mpr ⟨named, below⟩)

end Batches

section LongerModule

open Batch Staging

def longerModule : InputFile :=
  .ofSource (.package "acme:widgets") "module.jsmodule.js" "l()" browser

def longerError : Json :=
  .object [("message", .string "Module parse failed"),
    ("moduleName", .string "./packages/acme_widgets/module.jsmodule.js")]

theorem longer_module_shadowed : ∃ batch left,
    (stageBrowser plainSettings [widgetModule, longerModule]).onDisk ⟨emptyTree, []⟩ =
      (.ok batch, left) ∧
    (attributed batch.config (errorText longerError)).sourcePath ≠
      some (classify plainSettings longerModule).sourcePath := by
  obtain ⟨batch, left, staged⟩ : ∃ batch left,
      (stageBrowser plainSettings [widgetModule, longerModule]).onDisk ⟨emptyTree, []⟩ =
        (.ok batch, left) := Work.ok_of_isOk (by decide +kernel)
  have valid : ∀ file ∈ [widgetModule, longerModule], file.package.Valid := by
    intro file listed
    rcases List.mem_cons.mp listed with rfl | later
    · exact isOrdinary_widgetModule.valid
    · rw [List.mem_singleton.mp later]
      exact isOrdinary_widgetModule.valid
  have plain : ¬ mark <:+: "Module parse failed".toList := by
    rw [← occursIn_iff]
    decide
  have about : longerError.member? "moduleName" = some (.string
      (BundleConfig.entrySource (classify plainSettings longerModule).stagedPath)) := by
    have source : BundleConfig.entrySource (classify plainSettings longerModule).stagedPath =
        "./packages/acme_widgets/module.jsmodule.js" := by
      decide +kernel
    rw [source]
    simp [longerError, Json.member?, KeyMap.lookup]
  have message : longerError.member? "message" = some (.string "Module parse failed") := by
    simp [longerError, Json.member?, KeyMap.lookup]
  have entry : kindOf plainSettings longerModule = .entry := by decide +kernel
  have unshadowed := error_attributed_iff valid rfl staged rfl (by simp) entry about message plain
  refine ⟨batch, left, staged, fun own => ?_⟩
  refine unshadowed.mp own widgetModule (by simp) (by decide +kernel) ⟨?_, Or.inl ?_⟩
  · rw [utf8_lt_iff]
    decide +kernel
  · decide +kernel

end LongerModule

end Report

end PlatformBundle
