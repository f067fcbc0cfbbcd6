import PlatformBundle.Proofs.ClosureGate
import PlatformBundle.Proofs.ContainedStaging
import PlatformBundle.Proofs.FailingDisks
import PlatformBundle.Proofs.OverlappingBatches
/-!
The reset of a staging root at the first pass of a platform, where the disk may fail at any call.
The first pass empties the root before it calls a tool, or ends because it cannot; the later passes
take nothing away from what is installed. Since a pass counts from its beginning, a platform whose
first pass has ended so is never reset.
-/

namespace PlatformBundle

open FileTree Disk Staging Batch

namespace Machine

section Emptying

variable {σ α β ε : Type} {machine : Machine σ} {root : Path} {state left : σ}
  {fails : ε → Prop} {early late : List (Call × σ)}

/-- The root is empty at one of the moments, and no tool is called before it. -/
def Empties (machine : Machine σ) (root : Path) (moments : List (Call × σ)) : Prop :=
  ∃ before moment after, moments = before ++ moment :: after ∧
    (machine.disk moment.2).EmptyAt root ∧ ∀ other ∈ before, other.1.isTool = false

theorem Empties.append (empties : machine.Empties root early) (late : List (Call × σ)) :
    machine.Empties root (early ++ late) := by
  obtain ⟨before, moment, after, rfl, empty, quiet⟩ := empties
  exact ⟨before, moment, after ++ late, by simp, empty, quiet⟩

theorem Empties.after (empties : machine.Empties root late)
    (quiet : ∀ moment ∈ early, moment.1.isTool = false) : machine.Empties root (early ++ late) := by
  obtain ⟨before, moment, after, rfl, empty, also⟩ := empties
  refine ⟨early ++ before, moment, after, by simp, empty, ?_⟩
  intro other listed
  exact (List.mem_append.mp listed).elim (quiet other) (also other)

def FailsQuietly (machine : Machine σ) (fails : ε → Prop) (work : ExceptT ε WorldTask α)
    (state : σ) : Prop :=
  (∀ moment ∈ Task.moments machine.answer work.run state, moment.1.isTool = false) ∧
    ∃ error, (Task.run machine.answer work.run state).1 = .error error ∧ fails error

/-- Work empties the root before it calls a tool, or it fails before it does. -/
def Clears (machine : Machine σ) (root : Path) (fails : ε → Prop) (work : ExceptT ε WorldTask α)
    (state : σ) : Prop :=
  machine.Empties root (Task.moments machine.answer work.run state) ∨
    machine.FailsQuietly fails work state

variable {first : ExceptT ε WorldTask α} {follow : α → ExceptT ε WorldTask β}

theorem Clears.bind (clears : machine.Clears root fails first state)
    (follow : α → ExceptT ε WorldTask β) :
    machine.Clears root fails (first >>= follow) state := by
  rcases clears with empties | ⟨quiet, error, failed, known⟩
  · left
    rw [Task.moments_except_bind]
    exact empties.append _
  · right
    have ended : Task.run machine.answer first.run state =
        (.error error, (Task.run machine.answer first.run state).2) := Prod.ext failed rfl
    refine ⟨?_, error, ?_, known⟩
    · rw [Task.moments_except_bind, ended, List.append_nil]
      exact quiet
    · rw [Task.run_except_bind, ended]

theorem Clears.after {value : α} (clears : machine.Clears root fails (follow value) left)
    (quiet : ∀ moment ∈ Task.moments machine.answer first.run state, moment.1.isTool = false)
    (ended : Task.run machine.answer first.run state = (.ok value, left)) :
    machine.Clears root fails (first >>= follow) state := by
  rcases clears with empties | ⟨also, error, failed, known⟩
  · left
    rw [Task.moments_except_bind, ended]
    exact empties.after quiet
  · right
    refine ⟨?_, error, ?_, known⟩
    · rw [Task.moments_except_bind, ended]
      intro moment listed
      exact (List.mem_append.mp listed).elim (quiet moment) (also moment)
    · rw [Task.run_except_bind, ended]
      exact failed

theorem Clears.inStage {fails : Fault → Prop} {known : BuildError → Prop} {stage : Stage}
    {platform : Platform} {work : Work α} (clears : machine.Clears root fails work state)
    (named : ∀ fault, fails fault → known (.inStage stage platform.tag fault)) :
    machine.Clears root known (inStage stage platform work) state := by
  have moments : Task.moments machine.answer (Batch.inStage stage platform work).run state =
      Task.moments machine.answer work.run state :=
    (Task.moments_bind machine.answer work.run _ state).trans (List.append_nil _)
  rcases clears with empties | ⟨quiet, fault, failed, fits⟩
  · left
    rwa [moments]
  · right
    refine ⟨by rwa [moments], _, ?_, named fault fits⟩
    have whole := Task.run_bind machine.answer work.run
      (fun result => .done (result.mapError (BuildError.inStage stage platform.tag))) state
    refine (congrArg Prod.fst whole).trans ?_
    rw [failed]
    rfl

end Emptying

section FirstPass

variable {σ : Type} {machine : Machine σ} {root : Path} {platform : Platform} {state : σ}
  {settings : Settings} {registry : Registry}

def AboutRoot (root : Path) (fault : Fault) : Prop :=
  ∃ doing cause, fault = .onPath doing root cause

theorem quiet_of_isPlain {α : Type} {work : Work α} (plain : work.IsPlain) (state : σ) :
    ∀ moment ∈ Task.moments machine.answer work.run state, moment.1.isTool = false :=
  Task.moments_within machine.answer
    (Task.Within.mono plain (fun _ => Call.isTool_of_isPlain)) state

theorem run_makeDir (path : Path) (state : σ) :
    Task.run machine.answer (Files.makeDir path).inWork.run state =
      (onPath "creating directory" path (machine.answer (.file (.createDirs path)) state).1,
        (machine.answer (.file (.createDirs path)) state).2) := rfl

theorem run_remakeDir (path : Path) (state : σ) :
    Task.run machine.answer (Files.remakeDir path).inWork.run state =
      match machine.answer (.file (.removeTree path)) state with
      | (.error .notFound, left) => Task.run machine.answer (Files.makeDir path).inWork.run left
      | (.ok (), left) => Task.run machine.answer (Files.makeDir path).inWork.run left
      | (.error cause, left) => (.error (.onPath "removing directory" path cause), left) := by
  change Task.run machine.answer (.call (.file (.removeTree path)) _) state = _
  rw [Task.run]
  rcases machine.answer (.file (.removeTree path)) state with ⟨⟨cause⟩ | ⟨⟩, left⟩
  · cases cause <;> rfl
  · rfl

/-- Work has ended with an empty root, or with a fault about the root. -/
def EndsEmpty (machine : Machine σ) (root : Path) (ended : Except Fault Unit × σ) : Prop :=
  (∃ left, ended = (.ok (), left) ∧ (machine.disk left).EmptyAt root) ∨
    ∃ fault, ended.1 = .error fault ∧ AboutRoot root fault

section Remaking

variable {names : List String} {last : String}
  (proper : ∀ name ∈ names ++ [last], IsProper name)
include proper

theorem endsEmpty_makeDir {disk : Disk} {reply : Except IoCause Unit}
    (grounded : disk.tree.Grounded)
    (removed : disk.removeTree (Path.ofReal (names ++ [last])) = (reply, machine.disk state))
    (fine : reply = .ok () ∨ reply = .error .notFound) :
    machine.EndsEmpty (Path.ofReal (names ++ [last])) (Task.run machine.answer
      (Files.makeDir (Path.ofReal (names ++ [last]))).inWork.run state) := by
  have made := machine.file_outcome (.createDirs (Path.ofReal (names ++ [last]))) state
  rw [run_makeDir]
  generalize machine.answer (.file (.createDirs (Path.ofReal (names ++ [last])))) state = done
    at made ⊢
  obtain ⟨reply, left⟩ := done
  cases reply with
  | error cause => exact Or.inr ⟨_, rfl, _, cause, rfl⟩
  | ok =>
      refine Or.inl ⟨left, rfl, emptyAt_of_remade proper grounded removed fine ?_⟩
      refine made.of_not_failed ?_
      rintro ⟨cause, ⟨⟩⟩

variable (grounded : (machine.disk state).tree.Grounded)
include grounded

-- A removal that goes on has not failed, so the disk has done all of it.
theorem endsEmpty_remakeDir :
    machine.EndsEmpty (Path.ofReal (names ++ [last])) (Task.run machine.answer
      (Files.remakeDir (Path.ofReal (names ++ [last]))).inWork.run state) := by
  have removal := machine.file_outcome (.removeTree (Path.ofReal (names ++ [last]))) state
  rw [run_remakeDir]
  generalize machine.answer (.file (.removeTree (Path.ofReal (names ++ [last])))) state = removed
    at removal ⊢
  obtain ⟨reply, middle⟩ := removed
  have making (fine : reply = .ok () ∨ reply = .error .notFound) :
      machine.EndsEmpty (Path.ofReal (names ++ [last])) (Task.run machine.answer
        (Files.makeDir (Path.ofReal (names ++ [last]))).inWork.run middle) := by
    refine endsEmpty_makeDir proper grounded (removal.of_not_failed ?_) fine
    rintro ⟨cause, rfl, other⟩
    rcases fine with wrong | missing
    · cases wrong
    · exact other (Except.error.inj missing)
  rcases reply with cause | ⟨⟩
  · cases cause
    case notFound => exact making (Or.inr rfl)
    all_goals exact Or.inr ⟨_, rfl, _, _, rfl⟩
  · exact making (Or.inl rfl)

theorem clears_clearing :
    machine.Clears (Path.ofReal (names ++ [last])) (AboutRoot (Path.ofReal (names ++ [last])))
      (clearing (Path.ofReal (names ++ [last])) true) state := by
  have quiet : ∀ moment ∈ Task.moments machine.answer
      (Files.remakeDir (Path.ofReal (names ++ [last]))).inWork.run state,
      moment.1.isTool = false :=
    quiet_of_isPlain (Work.isPlain_inWork _) state
  rcases endsEmpty_remakeDir proper grounded with ⟨left, made, empty⟩ | ⟨fault, failed, known⟩
  -- The call that comes next is made in the state with the empty root.
  · refine Clears.after (Or.inl ?_) quiet made
    exact ⟨[], (.file (.removeTree (Path.ofReal (names ++ [last]) / packagesDir)), left), _, rfl,
      empty, by simp⟩
  · have fails : machine.Clears (Path.ofReal (names ++ [last]))
        (AboutRoot (Path.ofReal (names ++ [last])))
        (Files.ensureDir (Path.ofReal (names ++ [last])) true).inWork state :=
      Or.inr ⟨quiet, fault, failed, known⟩
    exact fails.bind _

theorem clears_prepare :
    machine.Clears (Path.ofReal (names ++ [last])) (AboutRoot (Path.ofReal (names ++ [last])))
      (prepare (Path.ofReal (names ++ [last])) true) state := by
  rw [prepare_eq, if_pos rfl]
  refine Clears.after (clears_clearing proper ?_) (quiet_of_isPlain (Work.isPlain_note _ _) state)
    rfl
  rwa [machine.note_disk]

end Remaking

theorem run_checkOwnPackage : ∃ left,
    Task.run machine.answer (checkOwnPackage settings registry).run state = (.ok (), left) ∧
      machine.disk left = machine.disk state ∧ machine.begun left = machine.begun state := by
  rcases checkOwnPackage_cases settings registry with silent | ⟨record, noted⟩
  · rw [silent]
    exact ⟨state, rfl, rfl, rfl⟩
  · rw [noted]
    exact ⟨_, rfl, machine.note_disk _ _, machine.begun_kept _ _ (by simp)⟩

/-- The error of a pass that cannot make its staging root afresh. -/
def ResetFails (settings : Settings) (platform : Platform) (error : BuildError) : Prop :=
  ∃ fault, error = .inStage .staging platform.tag fault ∧
    AboutRoot (settings.stagingRoot platform) fault

section Stages

variable {names : List String}
  (proper : ∀ name ∈ names ++ [platform.dirName], IsProper name)
  (spelled : settings.stagingRoot platform = Path.ofReal (names ++ [platform.dirName]))
  (resets : settings.resetOnFirstRun = true)
  (fresh : (machine.begun state).contains platform.tag = false)
  (grounded : (machine.disk state).tree.Grounded)
include proper spelled resets fresh grounded

theorem clears_stageAll (classified : List Classified) :
    machine.Clears (settings.stagingRoot platform) (ResetFails settings platform)
      (stageAll settings registry platform classified) state := by
  have first : Task.run machine.answer (ExceptT.lift (WorldTask.ask (.beginPass platform)) :
      BatchWork Bool).run state = (.ok true, (machine.answer (.beginPass platform) state).2) := by
    have reply : (machine.answer (.beginPass platform) state).1 = true := by
      rw [machine.begin_reply, fresh]
      rfl
    rw [← reply]
    rfl
  have prepares : machine.Clears (settings.stagingRoot platform) (ResetFails settings platform)
      (inStage .staging platform (prepare (settings.stagingRoot platform)
        (true && settings.resetOnFirstRun))) (machine.answer (.beginPass platform) state).2 := by
    rw [resets, Bool.and_true, spelled]
    refine (clears_prepare proper ?_).inStage ?_
    · rwa [machine.begin_disk]
    · intro fault about
      exact ⟨fault, rfl, spelled ▸ about⟩
  refine Clears.after (prepares.bind _) ?_ first
  intro moment listed
  rw [List.mem_singleton.mp listed]
  rfl

/-- The first pass of a platform empties its staging root before it calls a tool, or it fails
because it cannot. -/
theorem clears_processFor (files : List InputFile) :
    machine.Clears (settings.stagingRoot platform) (ResetFails settings platform)
      (processFor settings registry platform files) state := by
  refine Clears.after ?_ ?_ rfl
  · obtain ⟨left, checked, disk, begun⟩ : ∃ left, Task.run machine.answer
        (checkOwnPackage settings registry).run _ = (.ok (), left) ∧ _ := run_checkOwnPackage
    refine Clears.after ?_ ?_ checked
    · refine (clears_stageAll proper spelled resets ?_ ?_ _).bind _
      · rwa [begun, machine.begun_kept _ _ (by simp)]
      · rwa [disk, machine.note_disk]
    · exact Task.moments_within machine.answer (quiet_checkOwnPackage settings registry) _
  · intro moment listed
    rw [List.mem_singleton.mp listed]
    rfl

end Stages

end FirstPass

section LaterPasses

variable {σ α : Type} {machine : Machine σ} {root : Path} {platform : Platform} {state : σ}
  {settings : Settings} {registry : Registry}

/-- A call that takes nothing away from what is installed under a root, unless it calls a tool. -/
def Mild (root : Path) : Call → Prop
  | .file call => call.Spares root
  | _ => True

def later (root : Path) (platform : Platform) : Task.Terms Call.Reply where
  asks := Mild root
  told
    | .beginPass other, first => other = platform → first = false
    | _, _ => True

-- The induction carries that the platform has begun a pass, which no call takes back.
theorem moments_spare {task : WorldTask α} {good : α → Prop}
    (brings : task.Brings (later root platform) good)
    (begun : (machine.begun state).contains platform.tag = true) :
    ∀ moment ∈ task.moments machine.answer state, machine.Spares root moment := by
  induction task generalizing state with
  | done value => simp [Task.moments]
  | call request next ih =>
      obtain ⟨mild, onward⟩ := brings
      have told : (later root platform).told request (machine.answer request state).1 := by
        cases request with
        | beginPass other =>
            rintro rfl
            rw [machine.begin_reply, begun]
            rfl
        | file call => trivial
        | note record => trivial
        | install root => trivial
        | bundle config root => trivial
      intro moment listed
      rcases List.mem_cons.mp listed with rfl | rest
      · cases request with
        | file call => exact spares_file mild state
        | note record => exact spares_of_same_disk (machine.note_disk record state)
        | beginPass other => exact spares_of_same_disk (machine.begin_disk other state)
        | install root => rintro ⟨⟩
        | bundle config root => rintro ⟨⟩
      · exact ih _ (onward _ told) (machine.begun_answer request begun) moment rest

theorem mild_of_builds {call : Call} (builds : call.Builds) : Mild root call := by
  cases call with
  | file call =>
      cases call with
      | removeTree path => exact builds.elim
      | createDirs path => exact DiskCall.spares_createDirs path
      | write path text => exact DiskCall.spares_write path text
      | readText path => exact DiskCall.spares_of_reading (fun _ => rfl)
      | list path => exact DiskCall.spares_of_reading (fun _ => rfl)
      | isDirectory path => exact DiskCall.spares_of_reading (fun _ => rfl)
      | isThere path => exact DiskCall.spares_of_reading (fun _ => rfl)
      | filesBelow path => exact DiskCall.spares_of_reading (fun _ => rfl)
  | note record => trivial
  | beginPass other => trivial
  | install root => trivial
  | bundle config root => trivial

theorem steps_mild {ε β : Type} {work : ExceptT ε WorldTask β}
    (within : work.run.Within (Mild root)) :
    Task.Steps (later root platform) work (fun _ => True) :=
  Task.brings_of_within within (fun _ mild => mild) (fun _ _ _ => trivial)

theorem mild_makeDir (path : Path) : (Files.makeDir path).inWork.run.Within (Mild root) :=
  ⟨DiskCall.spares_createDirs path, fun reply => by cases reply <;> trivial⟩

theorem mild_remakeDir {path : Path} (spares : (DiskCall.removeTree path).Spares root) :
    (Files.remakeDir path).inWork.run.Within (Mild root) := by
  refine ⟨spares, ?_⟩
  rintro (cause | ⟨⟩)
  · cases cause
    case notFound => exact mild_makeDir path
    all_goals trivial
  · exact mild_makeDir path

theorem mild_prepare {names : List String} (segments : ∀ name ∈ names, IsSegment name) :
    (prepare (Path.ofReal names) false).run.Within (Mild (Path.ofReal names)) := by
  have part {name : String} (proper : IsProper name) (other : name ≠ modulesDir) :
      (Files.remakeDir (Path.ofReal names / name)).inWork.run.Within (Mild (Path.ofReal names)) :=
    mild_remakeDir (DiskCall.spares_removeTree segments proper other)
  rw [prepare_eq, if_neg Bool.false_ne_true]
  refine Task.within_except_bind (mild_makeDir _) (fun _ => ?_)
  refine Task.within_except_bind (part isProper_packagesDir (by decide)) (fun _ => ?_)
  exact part isProper_builtDir (by decide)

theorem mild_stage {path : Path} (absolute : path.isAbsolute = true) (files : List Classified)
    (config : BundleConfig) :
    (stage settings registry path files config).run.Within (Mild root) := by
  have aims : Task.Steps (aims (Target path (manifestsOf settings registry (ownersOf files)) files))
      (stage settings registry path files config) (fun _ => True) := aims_stage absolute
  exact (Task.brings_within aims).mono (fun _ aimed => mild_of_builds aimed.1)

theorem later_processFor {names : List String} (segments : ∀ name ∈ names, IsSegment name)
    (spelled : settings.stagingRoot platform = Path.ofReal names) (files : List InputFile) :
    Task.Steps (later (settings.stagingRoot platform) platform)
      (processFor settings registry platform files) (fun _ => True) := by
  have absolute : (settings.stagingRoot platform).isAbsolute = true := by
    rw [spelled]
    exact Path.isAbsolute_ofReal names
  refine steps_of_staging (fun _ => trivial) (fun _ => DiskCall.spares_of_reading) trivial ?_
    (fun _ => steps_mild (mild_stage absolute _ _)) trivial (fun _ => trivial)
  intro first told
  rw [told rfl, Bool.false_and, spelled]
  exact steps_mild (mild_prepare segments)

end LaterPasses

section Histories

variable {σ : Type} (machine : Machine σ) (settings : Settings) (registry : Registry)

/-- A batch, and what others do to the surroundings before its pass begins. -/
structure Round (σ : Type) where
  before : σ → σ
  files : List InputFile

def pass (round : Round σ) (state : σ) : Except BuildError (List Artifact) × σ :=
  Task.run machine.answer (process settings registry round.files) (round.before state)

def passMoments (round : Round σ) (state : σ) : List (Call × σ) :=
  (process settings registry round.files).moments machine.answer (round.before state)

/-- The calls of passes that are made one after the other, each whatever becomes of those before. -/
def history : List (Round σ) → σ → List (Call × σ)
  | [], _ => []
  | round :: rest, state =>
      machine.passMoments settings registry round state ++
        history rest (machine.pass settings registry round state).2

/-- The rounds are of one platform, and no one else begins a pass of it. -/
def Rounds (platform : Platform) (rounds : List (Round σ)) : Prop :=
  ∀ round ∈ rounds, commonPlatform round.files = .ok platform ∧
    ∀ state, (machine.begun (round.before state)).contains platform.tag =
      (machine.begun state).contains platform.tag

variable {machine settings registry} {platform : Platform} {names : List String}
  {rounds : List (Round σ)} {round : Round σ} {state : σ}

theorem begun_of_embarks {α : Type} {task : WorldTask α} (embarks : task.Embarks platform) :
    (machine.begun (Task.run machine.answer task state).2).contains platform.tag = true := by
  induction embarks generalizing state with
  | note rest ih => exact ih
  | @begin next rest =>
      have begun : (machine.begun (machine.answer (.beginPass platform) state).2).contains
          platform.tag = true := by
        rw [machine.begin_begun, KeySet.contains_add, decide_eq_true rfl, Bool.true_or]
      have after := machine.begun_run (next (machine.answer (.beginPass platform) state).1) begun
      exact after

theorem begun_pass (common : commonPlatform round.files = .ok platform) :
    (machine.begun (machine.pass settings registry round state).2).contains platform.tag =
      true := by
  rw [pass, process, common]
  exact begun_of_embarks embarks_processFor

theorem history_spares (segments : ∀ name ∈ names, IsSegment name)
    (spelled : settings.stagingRoot platform = Path.ofReal names)
    (own : machine.Rounds platform rounds)
    (begun : (machine.begun state).contains platform.tag = true) :
    ∀ moment ∈ machine.history settings registry rounds state,
      machine.Spares (settings.stagingRoot platform) moment := by
  induction rounds generalizing state with
  | nil => simp [history]
  | cons round rest ih =>
      obtain ⟨common, leaves⟩ := own round List.mem_cons_self
      intro moment listed
      rcases List.mem_append.mp listed with here | further
      · rw [passMoments, process, common] at here
        refine moments_spare (later_processFor segments spelled round.files) ?_ moment here
        rwa [leaves]
      · exact ih (fun other listed => own other (List.mem_cons_of_mem _ listed))
          (begun_pass common) moment further

/-- Whatever fails on the disk: before any pass of a platform calls a tool the staging root has been
emptied, unless the first pass fails because it cannot make the root afresh and calls no tool; and
no pass after the first takes anything away from what is installed. -/
theorem first_pass_resets {workdir : RealPath} {draft : Settings.Draft} {first : Round σ}
    {others : List (Round σ)} {start : σ} (proper : ∀ name ∈ workdir, IsProper name)
    (built : draft.build workdir = .ok settings) (resets : settings.resetOnFirstRun = true)
    (own : machine.Rounds platform (first :: others))
    (fresh : (machine.begun start).contains platform.tag = false)
    (grounded : (machine.disk (first.before start)).tree.Grounded) :
    let root := settings.stagingRoot platform
    let ended := machine.pass settings registry first start
    (machine.Empties root (machine.history settings registry (first :: others) start) ∨
      (∀ moment ∈ machine.passMoments settings registry first start, moment.1.isTool = false) ∧
        ∃ error, ended.1 = .error error ∧ ResetFails settings platform error) ∧
    ∀ moment ∈ machine.history settings registry others ended.2, machine.Spares root moment := by
  intro root ended
  obtain ⟨names, properRoot, spelled⟩ :=
    stagingRoot_eq proper (Settings.build_accepted built) platform
  obtain ⟨common, leaves⟩ := own first List.mem_cons_self
  have clears : machine.Clears root (ResetFails settings platform)
      (processFor settings registry platform first.files) (first.before start) :=
    clears_processFor properRoot spelled resets ((leaves start).trans fresh) grounded first.files
  constructor
  · rcases clears with empties | fails
    · left
      rw [history, passMoments, process, common]
      exact empties.append _
    · right
      simp only [ended, passMoments, pass, process, common]
      exact fails
  · exact history_spares (segments_of_proper properRoot) spelled
      (fun round listed => own round (List.mem_cons_of_mem _ listed)) (begun_pass common)

end Histories

section Samples

open Rehearsal

def usedTree (base : RealPath) : FileTree :=
  ⟨[(base, .directory), (base ++ ["web.browser"], .directory),
    (base ++ ["web.browser", modulesDir], .directory),
    (base ++ ["web.browser", modulesDir, "lodash"], .directory)]⟩

theorem grounded_usedTree : (usedTree ["b"]).Grounded :=
  grounded_of_nodes (by simp [usedTree, get?, find])

def usedWorld : World := World.onDisk ⟨usedTree ["b"], []⟩

def plainMachine : Machine World := World.machine plainTools

def appRound : Round World := ⟨id, [appModule]⟩

/-- What was installed is removed by the first pass, and what it installs stays. -/
theorem used_root_is_reset :
    plainMachine.Empties (resettingSettings.stagingRoot browser)
      (plainMachine.history resettingSettings .empty [appRound, appRound] usedWorld) ∧
    ∀ moment ∈ plainMachine.history resettingSettings .empty [appRound]
        (plainMachine.pass resettingSettings .empty appRound usedWorld).2,
      plainMachine.Spares (resettingSettings.stagingRoot browser) moment := by
  have own : plainMachine.Rounds browser [appRound, appRound] := by
    intro round listed
    rcases List.mem_pair.mp listed with rfl | rfl <;> exact ⟨by decide, fun _ => rfl⟩
  have fresh : (plainMachine.begun usedWorld).contains browser.tag = false := by decide
  have grounded : (plainMachine.disk (appRound.before usedWorld)).tree.Grounded :=
    grounded_usedTree
  have resets : resettingSettings.resetOnFirstRun = true := rfl
  obtain ⟨empties | ⟨-, error, failed, -⟩, spares⟩ : _ ∧ _ :=
    first_pass_resets (by simp) build_resettingDraft resets own fresh grounded
  · exact ⟨empties, spares⟩
  · have ends : (plainMachine.pass resettingSettings .empty appRound usedWorld).1.isOk = true := by
      decide +kernel
    rw [failed] at ends
    cases ends

/-- The staging root is reached by a link, whose target is missing at first. -/
def mountedSettings : Settings :=
  { resettingSettings with stagingBase := Path.absolutize [] ⟨"/mount/b"⟩ }

def mountedTree : FileTree :=
  ⟨(["mount"], .link "/hop") :: (["volume"], .directory) :: (usedTree ["volume", "b"]).nodes⟩

def unmountedWorld : World := World.onDisk ⟨mountedTree, []⟩

def mountingRound : Round World where
  before world := { world with disk := (world.disk.makeLink "/volume" ⟨"/hop"⟩).2 }
  files := [appModule]

-- The first pass cannot make its root and ends, and the next one counts as a later pass: what was
-- installed before the first pass is there when the second one calls the installer.
theorem failed_reset_is_lost :
    (plainMachine.pass mountedSettings .empty appRound unmountedWorld).1 =
      .error (.inStage .staging "web.browser" (.onPath "creating directory"
        (mountedSettings.stagingRoot browser) .fileExists)) ∧
    unmountedWorld.disk.isDirectory ⟨"/volume/b/web.browser/node_modules/lodash"⟩ = true ∧
    ∃ moment ∈ plainMachine.history mountedSettings .empty [mountingRound]
        (plainMachine.pass mountedSettings .empty appRound unmountedWorld).2,
      moment.1 = .install (mountedSettings.stagingRoot browser) ∧
      moment.2.disk.isDirectory (mountedSettings.stagingRoot browser / modulesDir / "lodash") =
        true := by
  refine ⟨by decide +kernel, by decide +kernel, ?_⟩
  have calls : (plainMachine.history mountedSettings .empty [mountingRound]
      (plainMachine.pass mountedSettings .empty appRound unmountedWorld).2).any (fun moment =>
        moment.1 = .install (mountedSettings.stagingRoot browser) &&
        moment.2.disk.isDirectory (mountedSettings.stagingRoot browser / modulesDir / "lodash")) =
      true := by
    decide +kernel
  obtain ⟨moment, listed, holds⟩ := List.any_eq_true.mp calls
  obtain ⟨installs, there⟩ := (Bool.and_eq_true _ _).mp holds
  exact ⟨moment, listed, of_decide_eq_true installs, there⟩

end Samples

end Machine

end PlatformBundle
