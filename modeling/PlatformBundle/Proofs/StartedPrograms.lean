import PlatformBundle.Npm
import PlatformBundle.Proofs.DiskGrowth
import PlatformBundle.Proofs.Sequencing
import PlatformBundle.Shell.Launch
import PlatformBundle.Webpack
/-!
The program that a driver has found and the program that its child runs. The driver looks at the
file of a path from its own working directory; the child has entered the staging root when the path
is looked up again. An absolute path names the same file from both, a relative one with a separator
in it whatever it names from the staging root, and a bare name is looked for on the search path.
-/

namespace PlatformBundle

open Disk

section Search

variable {host : Host} {disk : Disk} {tool : String} {configured staged : Option Path}
  {root program : Path}

theorem isFile_iff {path : Path} : disk.isFile path = true ↔
    ∃ place content executable, disk.stat path = .ok (place, .file content executable) := by
  unfold isFile
  constructor
  · intro file
    split at file
    · rename_i place content executable found
      exact ⟨place, content, executable, found⟩
    · cases file
  · rintro ⟨place, content, executable, found⟩
    rw [found]

theorem isFile_of_isExecutable {path : Path} (runnable : Host.isExecutable disk path = true) :
    disk.isFile path = true := by
  unfold Host.isExecutable at runnable
  split at runnable
  · rename_i found
    exact isFile_iff.mpr ⟨_, _, _, found⟩
  · cases runnable

theorem which_some (found : host.which disk tool = some program) :
    (∃ directory ∈ host.searchPath, directory / tool = program) ∧ disk.isFile program = true := by
  refine ⟨?_, isFile_of_isExecutable (List.find?_some found)⟩
  exact List.mem_map.mp (List.mem_of_find?_eq_some found)

theorem onSearchPath_ok (found : ToolSearch.onSearchPath host disk tool = .ok program) :
    (∃ directory ∈ host.searchPath, directory / tool = program) ∧ disk.isFile program = true := by
  unfold ToolSearch.onSearchPath at found
  split at found
  · rename_i path there
    cases found
    exact which_some there
  · cases found

theorem resolve_ok (found : ToolSearch.resolve host disk tool configured staged = .ok program) :
    (configured = some program ∨ configured = none ∧
      ((∃ top, staged = some top ∧ ToolSearch.stagedProgram top tool = program) ∨
        ∃ directory ∈ host.searchPath, directory / tool = program)) ∧
      disk.isFile program = true := by
  unfold ToolSearch.resolve at found
  cases configured with
  | some path =>
      obtain ⟨file, same⟩ : disk.isFile path = true ∧ path = program := by
        by_cases file : disk.isFile path = true
        · simp only [file, if_true, Except.ok.injEq] at found
          exact ⟨file, found⟩
        · simp [file] at found
      exact ⟨.inl (congrArg some same), same ▸ file⟩
  | none =>
      cases staged with
      | none =>
          obtain ⟨listed, file⟩ := onSearchPath_ok found
          exact ⟨.inr ⟨rfl, .inr listed⟩, file⟩
      | some top =>
          by_cases file : disk.isFile (ToolSearch.stagedProgram top tool) = true
          · simp only [Option.map_some, file, if_true, Except.ok.injEq] at found
            exact ⟨.inr ⟨rfl, .inl ⟨top, rfl, found⟩⟩, found ▸ file⟩
          · simp only [Option.map_some, file] at found
            obtain ⟨listed, file⟩ := onSearchPath_ok found
            exact ⟨.inr ⟨rfl, .inr listed⟩, file⟩

/-- The program that a driver has found, ready to be started in the staging root. -/
inductive Sought (host : Host) (disk : Disk) (root : Path) : Option Path → Path → Prop where
  | npm (settings : NpmSettings) {program : Path}
      (ready : Npm.ready host settings disk root = .ok program) :
      Sought host disk root settings.program program
  | webpack (settings : WebpackSettings) {program : Path}
      (found : ToolSearch.resolve host disk "webpack" settings.program (some root) = .ok program) :
      Sought host disk root settings.program program

theorem Sought.resolved (sought : Sought host disk root configured program) :
    ∃ tool staged, (∀ top, staged = some top → top = root) ∧
      ToolSearch.resolve host disk tool configured staged = .ok program := by
  cases sought with
  | npm settings ready =>
      obtain ⟨text, -, ready⟩ := bind_eq_ok_iff.mp ready
      obtain ⟨manifest, -, found⟩ := bind_eq_ok_iff.mp ready
      exact ⟨"npm", none, by simp, found⟩
  | webpack settings found =>
      exact ⟨"webpack", some root, fun top own => (Option.some.inj own).symm, found⟩

theorem Sought.isFile (sought : Sought host disk root configured program) :
    disk.isFile program = true := by
  obtain ⟨tool, staged, -, found⟩ := sought.resolved
  exact (resolve_ok found).2

theorem Sought.isAbsolute (sought : Sought host disk root configured program)
    (chosen : ∀ path, configured = some path → path.isAbsolute = true)
    (absolute : root.isAbsolute = true)
    (listed : ∀ directory ∈ host.searchPath, directory.isAbsolute = true) :
    program.isAbsolute = true := by
  obtain ⟨tool, staged, own, found⟩ := sought.resolved
  obtain ⟨origin | ⟨-, ⟨top, given, rfl⟩ | ⟨directory, there, rfl⟩⟩, -⟩ := resolve_ok found
  · exact chosen program origin
  · rw [own top given]
    exact Path.isAbsolute_div (Path.isAbsolute_div (Path.isAbsolute_div absolute _) _) _
  · exact Path.isAbsolute_div (listed directory there) tool

end Search

namespace Shell.Launch

variable {searchPath : List Path} {disk inside : Disk} {directory program : Path}
  {arguments : List String} {found : Invocation} {child : Child} {place : RealPath}

theorem enter_ok (entered : enter disk directory = .ok inside) :
    ∃ place, disk.stat directory = .ok (place, .directory) ∧ inside = ⟨disk.tree, place⟩ := by
  obtain ⟨⟨place, node⟩, there, entered⟩ := bind_eq_ok_iff.mp entered
  cases node with
  | directory =>
      cases entered
      exact ⟨place, there, rfl⟩
  | file content executable => cases entered
  | link target => cases entered

theorem stat_of_isAbsolute (absolute : program.isAbsolute = true)
    (entered : enter disk directory = .ok inside) : inside.stat program = disk.stat program := by
  obtain ⟨place, -, rfl⟩ := enter_ok entered
  unfold stat locate
  rw [startOf_absolute absolute, startOf_absolute absolute]

theorem ofFile_ok {path : Path} (made : Invocation.ofFile disk path arguments = .ok found) :
    ∃ place content, disk.stat path = .ok (place, .file content true) := by
  obtain ⟨⟨place, node⟩, there, made⟩ := bind_eq_ok_iff.mp made
  split at made
  · rename_i same
    cases same
    exact ⟨_, _, there⟩
  · cases made

/-- The file that is run for a program: that of a path with a separator in it, and otherwise the
first one on the search path that can be run. -/
inductive RunsFile (searchPath : List Path) (disk : Disk) (program : Path)
    (arguments : List String) (found : Invocation) (place : RealPath) : Prop where
  | named {content : ByteArray} (spelled : '/' ∈ program.text.toList)
      (there : disk.stat program = .ok (place, .file content true))
      (made : Invocation.ofFile disk program arguments = .ok found)
  | searched {before after : List Path} {directory : Path} {content : ByteArray}
      (bare : '/' ∉ program.text.toList) (listed : searchPath = before ++ directory :: after)
      (passed : ∀ other ∈ before, ∀ earlier,
        Invocation.ofFile disk (other / program.text) arguments ≠ .ok earlier)
      (there : disk.stat (directory / program.text) = .ok (place, .file content true))
      (made : Invocation.ofFile disk (directory / program.text) arguments = .ok found)

theorem search_ok {name : String} {cause : IoCause}
    (searched : search disk name arguments cause searchPath = .ok found) :
    ∃ before directory after, searchPath = before ++ directory :: after ∧
      (∀ other ∈ before, ∀ earlier,
        Invocation.ofFile disk (other / name) arguments ≠ .ok earlier) ∧
      Invocation.ofFile disk (directory / name) arguments = .ok found := by
  induction searchPath generalizing cause with
  | nil => cases searched
  | cons directory rest ih =>
      -- The search goes on after three of the errors, and from there it is the same search.
      have onward {cause failure : IoCause}
          (failed : Invocation.ofFile disk (directory / name) arguments = .error failure)
          (searched : search disk name arguments cause rest = .ok found) :
          ∃ before directory' after, directory :: rest = before ++ directory' :: after ∧
            (∀ other ∈ before, ∀ earlier,
              Invocation.ofFile disk (other / name) arguments ≠ .ok earlier) ∧
            Invocation.ofFile disk (directory' / name) arguments = .ok found := by
        obtain ⟨before, next, after, rfl, passed, made⟩ := ih searched
        have fails : ∀ earlier, Invocation.ofFile disk (directory / name) arguments ≠ .ok earlier :=
          fun earlier same => by rw [failed] at same; cases same
        exact ⟨directory :: before, next, after, rfl,
          List.forall_mem_cons.mpr ⟨fails, passed⟩, made⟩
      unfold search at searched
      split at searched
      · rename_i here
        cases searched
        exact ⟨[], directory, rest, rfl, by simp, here⟩
      · rename_i failed
        exact onward failed searched
      · rename_i failed
        exact onward failed searched
      · rename_i failed
        exact onward failed searched
      · cases searched

theorem invocation_ok (invoked : invocation searchPath disk program arguments = .ok found) :
    ∃ place, RunsFile searchPath disk program arguments found place := by
  unfold invocation at invoked
  by_cases spelled : '/' ∈ program.text.toList
  · rw [if_pos (List.contains_iff_mem.mpr spelled)] at invoked
    obtain ⟨place, content, there⟩ := ofFile_ok invoked
    exact ⟨place, .named spelled there invoked⟩
  · rw [if_neg (fun held => spelled (List.contains_iff_mem.mp held))] at invoked
    split at invoked
    · cases invoked
    · obtain ⟨before, directory, after, listed, passed, made⟩ := search_ok invoked
      obtain ⟨place, content, there⟩ := ofFile_ok made
      exact ⟨place, .searched spelled listed passed there made⟩

def Ran (searchPath : List Path) (disk inside : Disk) (program : Path) (arguments : List String)
    (child : Child) (place : RealPath) : Prop :=
  ∃ found, RunsFile searchPath inside program arguments found place ∧
    child = { run searchPath inside found with
      disk := ⟨(run searchPath inside found).disk.tree, disk.workdir⟩ }

theorem spawn_ok (started : spawn searchPath disk directory program arguments = .ok child) :
    ∃ inside place, enter disk directory = .ok inside ∧
      Ran searchPath disk inside program arguments child place := by
  unfold spawn at started
  split at started
  · cases started
  · obtain ⟨inside, entered, started⟩ := bind_eq_ok_iff.mp started
    obtain ⟨found, invoked, started⟩ := bind_eq_ok_iff.mp started
    obtain ⟨place, runs⟩ := invocation_ok invoked
    cases started
    exact ⟨inside, place, entered, found, runs, rfl⟩

theorem spawn_eq (plain : (directory.text :: program.text :: arguments).any hasNul = false)
    (entered : enter disk directory = .ok inside)
    (invoked : invocation searchPath inside program arguments = .ok found) :
    spawn searchPath disk directory program arguments = .ok { run searchPath inside found with
      disk := ⟨(run searchPath inside found).disk.tree, disk.workdir⟩ } := by
  unfold spawn
  rw [plain, entered]
  simp only [Bool.false_eq_true, if_false, invoked, bind, Except.bind]

theorem Ran.stat_of_spelled (ran : Ran searchPath disk inside program arguments child place)
    (spelled : '/' ∈ program.text.toList) :
    ∃ content, inside.stat program = .ok (place, .file content true) := by
  obtain ⟨found, runs, -⟩ := ran
  cases runs with
  | named _ there _ => exact ⟨_, there⟩
  | searched bare _ _ _ _ => exact absurd spelled bare

/-- How the file that a child runs, in a process that has entered a directory, is related to the
file that its program was checked to be. -/
structure Compared (searchPath : List Path) (inside : Disk) (program : Path)
    (checked ran : RealPath) : Prop where
  absolute : program.isAbsolute = true → ran = checked
  /-- The path has to name the checked file from the entered directory too. -/
  spelled : '/' ∈ program.text.toList →
    (ran = checked ↔ ∃ node, inside.stat program = .ok (checked, node))
  bare : '/' ∉ program.text.toList → ∃ directory ∈ searchPath, ∃ content,
    inside.stat (directory / program.text) = .ok (ran, .file content true)

theorem Ran.compared {checked : RealPath} {node : Node}
    (ran : Ran searchPath disk inside program arguments child place)
    (entered : enter disk directory = .ok inside)
    (there : disk.stat program = .ok (checked, node)) :
    Compared searchPath inside program checked place where
  absolute := by
    intro absolute
    obtain ⟨rest, begins⟩ := Path.isAbsolute_iff.mp absolute
    obtain ⟨content, found⟩ := ran.stat_of_spelled (begins ▸ List.mem_cons_self)
    rw [stat_of_isAbsolute absolute entered, there] at found
    cases found
    rfl
  spelled := by
    intro spelled
    obtain ⟨content, found⟩ := ran.stat_of_spelled spelled
    constructor
    · rintro rfl
      exact ⟨_, found⟩
    · rintro ⟨node, again⟩
      rw [found] at again
      cases again
      rfl
  bare := by
    intro bare
    obtain ⟨found, runs, -⟩ := ran
    cases runs with
    | named spelled _ _ => exact absurd spelled bare
    | @searched before after directory content _ listed _ found _ =>
        exact ⟨directory, by simp [listed], content, found⟩

/-- The file that a driver has found and the file that its child runs: they are the same for an
absolute path, and so whenever the driver begins its search from absolute paths. A relative path
names the file from the working directory when it is checked, and from the staging root when it is
run. -/
theorem checked_program_runs {root : Path} {configured : Option Path}
    (sought : Sought (host searchPath) disk root configured program) :
    ∃ checked content executable,
      disk.stat program = .ok (checked, .file content executable) ∧
      (∀ arguments child, spawn searchPath disk root program arguments = .ok child →
        ∃ inside ran, enter disk root = .ok inside ∧
          Ran searchPath disk inside program arguments child ran ∧
          Compared searchPath inside program checked ran) ∧
      (program.isAbsolute = true → ∀ inside, enter disk root = .ok inside →
        inside.stat program = disk.stat program) ∧
      ((∀ path, configured = some path → path.isAbsolute = true) → root.isAbsolute = true →
        (∀ directory ∈ searchPath, directory.isAbsolute = true) → program.isAbsolute = true) := by
  obtain ⟨checked, content, executable, there⟩ := isFile_iff.mp sought.isFile
  refine ⟨checked, content, executable, there, fun arguments child started => ?_,
    fun absolute inside entered => stat_of_isAbsolute absolute entered, sought.isAbsolute⟩
  obtain ⟨inside, ran, entered, runs⟩ := spawn_ok started
  exact ⟨inside, ran, entered, runs, runs.compared entered there⟩

section RelativeProgram

def failingScript : String := "#!/bin/sh\nexit 3\n"

def toolsDisk : Disk where
  tree := ⟨[(["bin"], .directory), (["bin", "sh"], .file .empty true), (["app"], .directory),
    (["app", "tools"], .directory), (["app", "tools", "webpack"], .file .empty true),
    (["app", "stage"], .directory), (["app", "stage", "tools"], .directory),
    (["app", "stage", "tools", "webpack"], .file failingScript.toUTF8 true)]⟩
  workdir := ["app"]

def toolsRoot : Path := ⟨"/app/stage"⟩

def relativeProgram : Path := ⟨"tools/webpack"⟩

def stageDisk : Disk := ⟨toolsDisk.tree, ["app", "stage"]⟩

theorem spawn_relativeProgram :
    ∃ child, spawn [] toolsDisk toolsRoot relativeProgram [] = .ok child := by
  have entered : enter toolsDisk toolsRoot = .ok stageDisk := rfl
  have decoded : Text.decodeLossy failingScript.toUTF8.data.toList = failingScript.toList := by
    decide +kernel
  have made : invocation [] stageDisk relativeProgram [] =
      Invocation.ofScript stageDisk relativeProgram.text
        (Text.decodeLossy failingScript.toUTF8.data.toList) [] := rfl
  have interpreter : Invocation.interpreterOf failingScript.toList = some ⟨"/bin/sh"⟩ := by
    decide +kernel
  have shell : stageDisk.stat ⟨"/bin/sh"⟩ = .ok (["bin", "sh"], .file .empty true) := rfl
  have invoked : invocation [] stageDisk relativeProgram [] =
      .ok ⟨failingScript.toList, relativeProgram.text, []⟩ := by
    rw [made, decoded, Invocation.ofScript, interpreter]
    simp only [shell]
    rfl
  exact ⟨_, spawn_eq (by decide) entered invoked⟩

/-- The program that is checked is the one below the working directory, and the other one is run. -/
theorem relative_program_is_another :
    Sought (host []) toolsDisk toolsRoot (some relativeProgram) relativeProgram ∧
      ∃ checked content executable child inside ran,
        toolsDisk.stat relativeProgram = .ok (checked, .file content executable) ∧
        spawn [] toolsDisk toolsRoot relativeProgram [] = .ok child ∧
        enter toolsDisk toolsRoot = .ok inside ∧
        Ran [] toolsDisk inside relativeProgram [] child ran ∧ ran ≠ checked := by
  have sought : Sought (host []) toolsDisk toolsRoot (some relativeProgram) relativeProgram :=
    .webpack ⟨some relativeProgram, "webpack.config.js"⟩ rfl
  refine ⟨sought, ?_⟩
  obtain ⟨checked, content, executable, there, runs, -⟩ := checked_program_runs sought
  obtain ⟨child, started⟩ := spawn_relativeProgram
  obtain ⟨inside, ran, entered, own, compared⟩ := runs [] child started
  refine ⟨checked, content, executable, child, inside, ran, there, started, entered, own, ?_⟩
  intro same
  obtain ⟨node, other⟩ := (compared.spelled (by decide)).mp same
  have stage : inside = stageDisk := Except.ok.inj (entered.symm.trans rfl)
  rw [stage] at other
  have here : toolsDisk.stat relativeProgram =
      .ok (["app", "tools", "webpack"], .file .empty true) := rfl
  have below : stageDisk.stat relativeProgram =
      .ok (["app", "stage", "tools", "webpack"], .file failingScript.toUTF8 true) := rfl
  have first := congrArg Prod.fst (Except.ok.inj (here.symm.trans there))
  have second := congrArg Prod.fst (Except.ok.inj (below.symm.trans other))
  exact absurd (first.trans second.symm) (by decide)

end RelativeProgram

end Shell.Launch

end PlatformBundle
