import PlatformBundle.Process
import PlatformBundle.Proofs.StreamLines
/-!
What a run of a tool keeps and passes on. The two streams are read line by line, and the readings
may interleave in any way; each line read is the next one of its stream. So once both streams have
ended, every line of the error stream has been passed on and the last twenty are kept, and every
line of the output stream has been passed on or collected, each once and in its order.
-/

namespace PlatformBundle

open Text

namespace Reading

def left (reading : Reading) : OutputStream → List UInt8
  | .stdout => reading.stdout
  | .stderr => reading.stderr

/-- The lines of one stream that were passed on, in order. -/
def passedOf (reading : Reading) (stream : OutputStream) : List String :=
  (reading.passed.filter (fun line => line.1 = stream)).map Prod.snd

def AtEnd (reading : Reading) : Prop := ∀ stream, reading.left stream = []

/-- What has become of the lines that were read. -/
structure Kept (collect : Bool) (out err : List String) (reading : Reading) : Prop where
  captured : reading.captured =
    if collect then String.join (out.map (fun line => line ++ "\n")) else ""
  tail : reading.tail <:+ err
  length_tail : reading.tail.length = min 20 err.length
  passedOutput : reading.passedOf .stdout = if collect then [] else out
  passedError : reading.passedOf .stderr = err

/-- A sink has been given the lines of a tool, those of each stream in their order. -/
structure Forwarded (tool : String) (collect : Bool) (out err : List String)
    (lines : List ToolLine) : Prop where
  output : lines.filter (fun line => line.stream = .stdout) =
    if collect then [] else out.map (ToolLine.mk tool .stdout)
  errors : lines.filter (fun line => line.stream = .stderr) = err.map (ToolLine.mk tool .stderr)

section Sinks

variable {collect : Bool} {out err : List String} {reading : Reading}

theorem lines_filter (reading : Reading) (tool : String) (stream : OutputStream) :
    (reading.lines tool).filter (fun line => line.stream = stream) =
      (reading.passedOf stream).map (ToolLine.mk tool stream) := by
  rw [lines, passedOf, List.filter_map, List.map_map]
  refine List.map_congr_left (fun line listed => ?_)
  have own : line.1 = stream := of_decide_eq_true (List.mem_filter.mp listed).2
  rw [← own]
  rfl

theorem Kept.forwarded (kept : reading.Kept collect out err) (tool : String) :
    Forwarded tool collect out err (reading.lines tool) where
  output := by
    rw [lines_filter, kept.passedOutput]
    cases collect <;> rfl
  errors := by rw [lines_filter, kept.passedError]

theorem Kept.output_eq (kept : reading.Kept collect out err) (status : ExitStatus) :
    reading.output status = ⟨status,
      if collect then String.join (out.map (fun line => line ++ "\n")) else "",
      err.drop (err.length - 20)⟩ := by
  have window : reading.tail = err.drop (err.length - 20) := by
    have last := List.suffix_iff_eq_drop.mp kept.tail
    rw [kept.length_tail] at last
    have same : err.length - min 20 err.length = err.length - 20 := by omega
    rwa [same] at last
  rw [output, kept.captured, window]

end Sinks

section Steps

theorem keep_suffix {tail lines : List String} (stands : tail <:+ lines)
    (size : tail.length = min 20 lines.length) (line : String) :
    keep tail line <:+ lines ++ [line] ∧
      (keep tail line).length = min 20 (lines ++ [line]).length := by
  have twenty : tailLength = 20 := rfl
  have moved {front : List String} (ends : front <:+ lines) : front ++ [line] <:+ lines ++ [line] :=
    (List.suffix_append_inj_of_length_eq rfl).mpr ⟨ends, rfl⟩
  -- A full window loses its first line; one that is not full has all lines so far.
  unfold keep
  split
  · refine ⟨moved ((List.tail_suffix tail).trans stands), ?_⟩
    simp only [List.length_append, List.length_tail, List.length_singleton]
    omega
  · refine ⟨moved stands, ?_⟩
    simp only [List.length_append, List.length_singleton]
    omega

@[simp] theorem passedOf_pass (reading : Reading) (stream other : OutputStream) (line : String) :
    (reading.pass stream line).passedOf other =
      reading.passedOf other ++ if stream = other then [line] else [] := by
  simp only [pass, passedOf, List.filter_append, List.map_append]
  split <;> simp_all

variable {collect : Bool} {child : Child} {out err : List String} {reading : Reading}

/-- The state of the reading when some lines of each stream have been read: with what is left of
them they are the lines of the streams, and they have been kept. -/
structure After (child : Child) (collect : Bool) (out err : List String) (reading : Reading) :
    Prop where
  output : out ++ streamLines reading.stdout = streamLines child.stdout
  errors : err ++ streamLines reading.stderr = streamLines child.stderr
  kept : reading.Kept collect out err

theorem Kept.output_line (kept : reading.Kept collect out err) (line : String)
    (left : List UInt8) : Kept collect (out ++ [line]) err
      { reading.takeOutput collect line with stdout := left } := by
  obtain ⟨captured, tail, size, passedOutput, passedError⟩ := kept
  cases collect with
  | true =>
      refine ⟨?_, tail, size, passedOutput, passedError⟩
      rw [if_pos rfl] at captured ⊢
      rw [List.map_append, String.join_append, ← captured, List.map_singleton, String.join_cons,
        String.join_nil, String.append_empty]
      rfl
  | false =>
      refine ⟨captured, tail, size, ?_, ?_⟩
      · exact (passedOf_pass reading .stdout .stdout line).trans (by rw [passedOutput]; rfl)
      · exact (passedOf_pass reading .stdout .stderr line).trans (by rw [passedError]; simp)

theorem Kept.error_line (kept : reading.Kept collect out err) (line : String)
    (left : List UInt8) : Kept collect out (err ++ [line])
      { reading.takeError line with stderr := left } := by
  obtain ⟨captured, tail, size, passedOutput, passedError⟩ := kept
  obtain ⟨stands, full⟩ := keep_suffix tail size line
  refine ⟨captured, stands, full, ?_, ?_⟩
  · exact (passedOf_pass reading .stderr .stdout line).trans (by rw [passedOutput]; simp)
  · exact (passedOf_pass reading .stderr .stderr line).trans (by rw [passedError]; rfl)

theorem After.step (after : reading.After child collect out err) (stream : OutputStream) :
    ∃ out err, (reading.step collect stream).After child collect out err := by
  obtain ⟨output, errors, kept⟩ := after
  cases stream with
  | stdout =>
      rw [Reading.step]
      cases read : nextLine reading.stdout with
      | none => exact ⟨out, err, output, errors, kept⟩
      | some next =>
          obtain ⟨line, left⟩ := next
          rw [(streamLines_of_nextLine read).1, ← List.singleton_append, ← List.append_assoc]
            at output
          refine ⟨out ++ [line], err, output, ?_, kept.output_line line left⟩
          rw [← errors]
          cases collect <;> rfl
  | stderr =>
      rw [Reading.step]
      cases read : nextLine reading.stderr with
      | none => exact ⟨out, err, output, errors, kept⟩
      | some next =>
          obtain ⟨line, left⟩ := next
          rw [(streamLines_of_nextLine read).1, ← List.singleton_append, ← List.append_assoc]
            at errors
          exact ⟨out, err ++ [line], output, errors, kept.error_line line left⟩

theorem after_run (after : reading.After child collect out err) (order : List OutputStream) :
    ∃ out err, (order.foldl (Reading.step collect) reading).After child collect out err := by
  induction order generalizing reading out err with
  | nil => exact ⟨out, err, after⟩
  | cons stream rest ih =>
      obtain ⟨_, _, next⟩ := after.step stream
      exact ih next

theorem after_readIn (child : Child) (collect : Bool) (order : List OutputStream) :
    ∃ out err, (child.readIn collect order).After child collect out err := by
  have begins : After child collect [] [] ⟨child.stdout, child.stderr, "", [], []⟩ := by
    refine ⟨rfl, rfl, ?_, List.suffix_refl [], rfl, ?_, rfl⟩
    · cases collect <;> rfl
    · cases collect <;> rfl
  exact after_run begins order

end Steps

section Ends

theorem stderr_takeOutput (collect : Bool) (reading : Reading) (line : String) :
    (reading.takeOutput collect line).stderr = reading.stderr := by
  cases collect <;> rfl

theorem length_left_step (collect : Bool) (reading : Reading) (stream other : OutputStream) :
    ((reading.step collect stream).left other).length ≤
      (reading.left other).length - if stream = other then 1 else 0 := by
  cases stream with
  | stdout =>
      rw [step]
      cases read : nextLine reading.stdout with
      | none => cases other <;> simp [left, nextLine_eq_none_iff.mp read]
      | some next =>
          have shorter := (streamLines_of_nextLine read).2
          cases other with
          | stdout => exact Nat.le_sub_one_of_lt shorter
          | stderr => simp [left, stderr_takeOutput]
  | stderr =>
      rw [step]
      cases read : nextLine reading.stderr with
      | none => cases other <;> simp [left, nextLine_eq_none_iff.mp read]
      | some next =>
          have shorter := (streamLines_of_nextLine read).2
          cases other with
          | stdout => simp [left, takeError, pass]
          | stderr => exact Nat.le_sub_one_of_lt shorter

theorem length_left_run (collect : Bool) (reading : Reading) (order : List OutputStream)
    (stream : OutputStream) :
    ((order.foldl (Reading.step collect) reading).left stream).length ≤
      (reading.left stream).length - order.count stream := by
  induction order generalizing reading with
  | nil => exact Nat.le_refl _
  | cons first rest ih =>
      have here := length_left_step collect reading first stream
      have later := ih (reading.step collect first)
      rw [List.foldl_cons, List.count_cons]
      simp only [beq_iff_eq]
      omega

theorem atEnd_read (child : Child) (collect : Bool) : (child.read collect).AtEnd := by
  intro stream
  have read := length_left_run collect ⟨child.stdout, child.stderr, "", [], []⟩ child.oneByOne
    stream
  refine List.length_eq_zero_iff.mp (Nat.le_zero.mp (read.trans ?_))
  cases stream <;> simp [left, Child.oneByOne, List.count_replicate]

theorem kept_of_atEnd {child : Child} {collect : Bool} {order : List OutputStream}
    (ends : (child.readIn collect order).AtEnd) : (child.readIn collect order).Kept collect
      (streamLines child.stdout) (streamLines child.stderr) := by
  obtain ⟨out, err, after⟩ := after_readIn child collect order
  have outputRead : (child.readIn collect order).stdout = [] := ends .stdout
  have errorsRead : (child.readIn collect order).stderr = [] := ends .stderr
  have nothing : streamLines [] = [] := rfl
  have out_eq : out = streamLines child.stdout := by
    rw [← after.output, outputRead, nothing, List.append_nil]
  have err_eq : err = streamLines child.stderr := by
    rw [← after.errors, errorsRead, nothing, List.append_nil]
  rw [← out_eq, ← err_eq]
  exact after.kept

end Ends

end Reading

/-- What a tool's run keeps and passes on: it is what one way of reading the streams to their ends
gives, and every other way keeps and passes on the same. -/
theorem Host.run_streams {host : Host} {disk : Disk} {directory program : Path}
    {arguments : List String} {child : Child}
    (ended : host.spawn disk directory program arguments = .ok child) (tool : String)
    (collect : Bool) :
    let finished := host.run disk directory program arguments tool collect
    ∃ out err : List String, LinesOf child.stdout out ∧ LinesOf child.stderr err ∧
      (∀ order, (child.readIn collect order).AtEnd →
        (child.readIn collect order).Kept collect out err ∧
        Reading.Forwarded tool collect out err ((child.readIn collect order).lines tool)) ∧
      (∃ order, (child.readIn collect order).AtEnd ∧ finished =
        ⟨.ok ((child.readIn collect order).output child.status), child.disk,
          (child.readIn collect order).lines tool⟩) ∧
      finished.output = .ok ⟨child.status,
        if collect then String.join (out.map (fun line => line ++ "\n")) else "",
        err.drop (err.length - 20)⟩ ∧
      Reading.Forwarded tool collect out err finished.lines := by
  intro finished
  have ends := Reading.atEnd_read child collect
  have kept := Reading.kept_of_atEnd ends
  have whole : finished = ⟨.ok ((child.readIn collect child.oneByOne).output child.status),
      child.disk, (child.readIn collect child.oneByOne).lines tool⟩ := by
    change host.run disk directory program arguments tool collect = _
    rw [Host.run, ended]
    rfl
  refine ⟨streamLines child.stdout, streamLines child.stderr, linesOf_iff.mpr rfl,
    linesOf_iff.mpr rfl, fun order others => ?_, ⟨child.oneByOne, ends, whole⟩, ?_, ?_⟩
  · exact ⟨Reading.kept_of_atEnd others, (Reading.kept_of_atEnd others).forwarded tool⟩
  · rw [whole, kept.output_eq]
  · rw [whole]
    exact kept.forwarded tool

section NoisyRun

/-- Line ends of both kinds, an empty line, a last line without an end, and a byte that no
character begins with. -/
def noisyChild : Child where
  status := .code 1
  stdout := "one\r\n\ntwo".toUTF8.data.toList
  stderr := [0x66, 0xFF, 0x0D, 0x0D, 0x0A]
  disk := ⟨⟨[]⟩, []⟩

def noisyHost : Host := ⟨[], fun _ _ _ _ => .ok noisyChild⟩

def noisyRun (collect : Bool) : Host.Finished :=
  noisyHost.run noisyChild.disk ⟨"/r"⟩ ⟨"/r/tool"⟩ [] "tool" collect

/-- The lines of the output stream are collected in one run and passed on in the other. -/
theorem noisy_run_streams :
    (noisyRun true).output = .ok ⟨.code 1, "one\n\ntwo\n", ["f\uFFFD"]⟩ ∧
    Reading.Forwarded "tool" true ["one", "", "two"] ["f\uFFFD"] (noisyRun true).lines ∧
    Reading.Forwarded "tool" false ["one", "", "two"] ["f\uFFFD"] (noisyRun false).lines := by
  have ended : noisyHost.spawn noisyChild.disk ⟨"/r"⟩ ⟨"/r/tool"⟩ [] = .ok noisyChild := rfl
  have read {out err : List String} (outLines : LinesOf noisyChild.stdout out)
      (errLines : LinesOf noisyChild.stderr err) :
      out = ["one", "", "two"] ∧ err = ["f\uFFFD"] :=
    ⟨(linesOf_iff.mp outLines).trans (by decide), (linesOf_iff.mp errLines).trans (by decide)⟩
  obtain ⟨out, err, outLines, errLines, -, -, kept, collected⟩ :=
    Host.run_streams ended "tool" true
  obtain ⟨rfl, rfl⟩ := read outLines errLines
  obtain ⟨out, err, outLines, errLines, -, -, -, passed⟩ :=
    Host.run_streams ended "tool" false
  obtain ⟨rfl, rfl⟩ := read outLines errLines
  exact ⟨kept, collected, passed⟩

end NoisyRun

end PlatformBundle
