import PlatformBundle.Input
import PlatformBundle.Proofs.TextPieces
/-!
The extension that is derived for a file, and the one that the file has. A file has the extension of
its own name, which is what follows the last slash of its path. The extension is derived from the
last dot of the whole path, so a file whose own name has no dot may get that of a directory; such an
extension goes on with the rest of the path and holds a slash. No file passes for a script by it.
-/

namespace PlatformBundle

open Text

namespace FileName

def ownName : List Char → List Char
  | [] => []
  | c :: rest => if '/' ∈ c :: rest then ownName rest else c :: rest

def afterDot : List Char → Option (List Char)
  | [] => none
  | c :: rest => (afterDot rest).or (if c = '.' then some rest else none)

/-- The extension of a name; a dot at its beginning does not count. -/
def extension : List Char → List Char
  | [] => []
  | _ :: rest => (afterDot rest).getD []

/-- The last dot of a path stands in a directory, and not at the beginning of its name. -/
inductive DirectoryDot : (path ending : List Char) → Prop where
  | inside (above : List Char) (c : Char) (ending : List Char) (named : c ≠ '/')
      (last : '.' ∉ ending) (directory : '/' ∈ ending) :
      DirectoryDot (above ++ c :: '.' :: ending) ending

section OwnNames

variable {front path tail : List Char}

theorem ownName_of_not_mem (plain : '/' ∉ path) : ownName path = path := by
  cases path with
  | nil => rfl
  | cons c rest => rw [ownName, if_neg plain]

theorem ownName_append (plain : '/' ∉ tail) : ownName (front ++ tail) = ownName front ++ tail := by
  induction front with
  | nil => exact ownName_of_not_mem plain
  | cons c rest ih =>
      have slashes : '/' ∈ c :: (rest ++ tail) ↔ '/' ∈ c :: rest := by simp [plain]
      rw [List.cons_append, ownName, ownName, ih]
      by_cases slash : '/' ∈ c :: rest
      · rw [if_pos slash, if_pos (slashes.mpr slash)]
      · rw [if_neg slash, if_neg (fun there => slash (slashes.mp there)), List.cons_append]

theorem ownName_skip (slash : '/' ∈ tail) : ownName (front ++ tail) = ownName tail := by
  induction front with
  | nil => rfl
  | cons c rest ih =>
      have later : '/' ∈ c :: (rest ++ tail) :=
        List.mem_cons_of_mem c (List.mem_append_right rest slash)
      rw [List.cons_append, ownName, if_pos later]
      exact ih

theorem ownName_suffix (path : List Char) : ownName path <:+ path := by
  induction path with
  | nil => exact List.suffix_rfl
  | cons c rest ih =>
      rw [ownName]
      split
      · exact ih.trans (List.suffix_cons c rest)
      · exact List.suffix_rfl

theorem slash_not_mem_ownName (path : List Char) : '/' ∉ ownName path := by
  induction path with
  | nil => exact List.not_mem_nil
  | cons c rest ih =>
      rw [ownName]
      split
      · exact ih
      · assumption

end OwnNames

section Extensions

variable {name rest ending : List Char}

theorem afterDot_of_not_mem (absent : '.' ∉ name) : afterDot name = none := by
  induction name with
  | nil => rfl
  | cons c rest ih =>
      obtain ⟨other, absent⟩ := not_or.mp (fun there => absent (List.mem_cons.mpr there))
      rw [afterDot, ih absent, if_neg (fun same => other same.symm), Option.none_or]

theorem afterDot_append (stem : List Char) (last : '.' ∉ ending) :
    afterDot (stem ++ '.' :: ending) = some ending := by
  induction stem with
  | nil => rw [List.nil_append, afterDot, afterDot_of_not_mem last, if_pos rfl, Option.none_or]
  | cons c rest ih => rw [List.cons_append, afterDot, ih, Option.some_or]

theorem extension_of_not_mem (absent : '.' ∉ name) : extension name = [] := by
  cases name with
  | nil => rfl
  | cons c rest =>
      rw [extension, afterDot_of_not_mem (fun later => absent (List.mem_cons_of_mem c later))]
      rfl

theorem extension_leading (only : '.' ∉ rest) : extension ('.' :: rest) = [] := by
  rw [extension, afterDot_of_not_mem only]
  rfl

theorem extension_append (front : List Char) (c : Char) (last : '.' ∉ ending) :
    extension (front ++ c :: '.' :: ending) = ending := by
  have cut (stem : List Char) : (afterDot (stem ++ '.' :: ending)).getD [] = ending := by
    rw [afterDot_append stem last]
    rfl
  cases front with
  | nil => exact cut []
  | cons first stem => simpa [extension] using cut (stem ++ [c])

theorem afterDot_suffix (found : afterDot name = some ending) :
    ending <:+ name := by
  induction name with
  | nil => cases found
  | cons c rest ih =>
      rw [afterDot, Option.or_eq_some_iff] at found
      rcases found with later | ⟨-, here⟩
      · exact (ih later).trans (List.suffix_cons c rest)
      · split at here
        · cases here
          exact List.suffix_cons c _
        · cases here

theorem extension_suffix (name : List Char) : extension name <:+ name := by
  cases name with
  | nil => exact List.suffix_rfl
  | cons c rest =>
      rw [extension]
      cases found : afterDot rest with
      | none => exact List.nil_suffix
      | some ending => exact (afterDot_suffix found).trans (List.suffix_cons c rest)

theorem dot_not_mem_ownName (front : List Char) (last : '.' ∉ ending) (directory : '/' ∈ ending) :
    '.' ∉ ownName (front ++ ending) := by
  rw [ownName_skip directory]
  exact fun there => last ((ownName_suffix ending).mem there)

theorem extension_ownName_leading {above : List Char}
    (begins : above = [] ∨ ∃ front, above = front ++ ['/']) (last : '.' ∉ ending) :
    extension (ownName (above ++ '.' :: ending)) = [] := by
  by_cases directory : '/' ∈ ending
  · apply extension_of_not_mem
    rw [List.append_cons]
    exact dot_not_mem_ownName (above ++ ['.']) last directory
  · have plain : '/' ∉ '.' :: ending := by simp [directory]
    have nothing : ownName above = [] := by
      rcases begins with rfl | ⟨front, rfl⟩
      · rfl
      · exact ownName_skip (List.mem_singleton_self '/')
    rw [ownName_append plain, nothing]
    exact extension_leading last

end Extensions

/-- Where the last dot of a path stands: nowhere, at the beginning of a name, or inside one. -/
inductive LastDot : List Char → Prop where
  | nowhere {path : List Char} (absent : '.' ∉ path) : LastDot path
  | leading (above ending : List Char) (begins : above = [] ∨ ∃ front, above = front ++ ['/'])
      (last : '.' ∉ ending) : LastDot (above ++ '.' :: ending)
  | inside (above : List Char) (c : Char) (ending : List Char) (named : c ≠ '/')
      (last : '.' ∉ ending) : LastDot (above ++ c :: '.' :: ending)

theorem lastDot (path : List Char) : LastDot path := by
  by_cases present : '.' ∈ path
  · obtain ⟨before, ending, rfl, last⟩ := exists_last_sep present
    rcases before.eq_nil_or_concat with rfl | ⟨above, c, rfl⟩
    · exact .leading [] ending (Or.inl rfl) last
    · rw [List.concat_eq_append]
      by_cases slash : c = '/'
      · exact .leading (above ++ [c]) ending (Or.inr ⟨above, by rw [slash]⟩) last
      · rw [List.append_assoc]
        exact .inside above c ending slash last
  · exact .nowhere present

end FileName

open FileName

def ownExtension (fileName : String) : String :=
  String.ofList (extension (ownName fileName.toList))

variable {fileName : String} {above ending : List Char}

theorem extensionOf_of_not_mem (absent : '.' ∉ fileName.toList) : extensionOf fileName = "" := by
  rw [extensionOf, cutLast_of_not_mem absent]

theorem extensionOf_leading (path : fileName.toList = above ++ '.' :: ending)
    (begins : above = [] ∨ ∃ front, above = front ++ ['/']) (last : '.' ∉ ending) :
    extensionOf fileName = "" := by
  have dropped : (above.isEmpty || above.getLast? == some '/') = true := by
    rcases begins with rfl | ⟨front, rfl⟩ <;> simp
  rw [extensionOf, path, cutLast_append last]
  exact if_pos dropped

theorem extensionOf_inside {c : Char} (path : fileName.toList = above ++ c :: '.' :: ending)
    (named : c ≠ '/') (last : '.' ∉ ending) : extensionOf fileName = String.ofList ending := by
  have cut : fileName.toList = (above ++ [c]) ++ '.' :: ending := by
    rw [path, List.append_assoc, List.singleton_append]
  have kept : ((above ++ [c]).isEmpty || (above ++ [c]).getLast? == some '/') = false := by
    simp [named]
  rw [extensionOf, cut, cutLast_append last]
  exact if_neg (Bool.eq_false_iff.mp kept)

theorem slash_not_mem_of_own (own : ownExtension fileName = String.ofList ending) :
    '/' ∉ ending := by
  rw [← String.ofList_injective own]
  exact fun slash => slash_not_mem_ownName fileName.toList ((extension_suffix _).mem slash)

theorem ownExtension_of_not_mem (absent : '.' ∉ ownName fileName.toList) :
    ownExtension fileName = "" := by
  rw [ownExtension, extension_of_not_mem absent]

theorem extensionOf_of_directoryDot (dot : DirectoryDot fileName.toList ending) :
    extensionOf fileName = String.ofList ending ∧ '/' ∈ ending := by
  generalize path : fileName.toList = whole at dot
  cases dot with
  | inside above c ending named last directory =>
      exact ⟨extensionOf_inside path named last, directory⟩

theorem ownExtension_of_directoryDot (dot : DirectoryDot fileName.toList ending) :
    ownExtension fileName = "" := by
  apply ownExtension_of_not_mem
  generalize fileName.toList = path at dot
  cases dot with
  | inside above c ending named last directory =>
      have cut : above ++ c :: '.' :: ending = (above ++ [c, '.']) ++ ending := by simp
      rw [cut]
      exact dot_not_mem_ownName (above ++ [c, '.']) last directory

theorem extensionOf_cases (fileName : String) : extensionOf fileName = ownExtension fileName ∨
    ∃ ending, DirectoryDot fileName.toList ending := by
  generalize path : fileName.toList = whole
  cases lastDot whole with
  | nowhere absent =>
      subst path
      have plain : '.' ∉ ownName fileName.toList :=
        fun there => absent ((ownName_suffix fileName.toList).mem there)
      rw [extensionOf_of_not_mem absent, ownExtension_of_not_mem plain]
      exact Or.inl rfl
  | leading above ending begins last =>
      rw [extensionOf_leading path begins last, ownExtension, path,
        extension_ownName_leading begins last]
      exact Or.inl rfl
  | inside above c ending named last =>
      -- A slash after the dot ends the directory that the dot stands in.
      by_cases directory : '/' ∈ ending
      · exact Or.inr ⟨ending, .inside above c ending named last directory⟩
      · left
        have whole : '/' ∉ c :: '.' :: ending := by simp [Ne.symm named, directory]
        rw [extensionOf_inside path named last, ownExtension, path, ownName_append whole,
          extension_append (ownName above) c last]

theorem directoryDot_iff : DirectoryDot fileName.toList ending ↔
    extensionOf fileName = String.ofList ending ∧ '/' ∈ ending := by
  constructor
  · exact extensionOf_of_directoryDot
  · rintro ⟨found, slash⟩
    rcases extensionOf_cases fileName with own | ⟨other, dot⟩
    · exact absurd slash (slash_not_mem_of_own (own.symm.trans found))
    · have same : ending = other :=
        String.ofList_injective (found.symm.trans (extensionOf_of_directoryDot dot).1)
      exact same ▸ dot

theorem extensionOf_eq_own_iff (fileName : String) : extensionOf fileName = ownExtension fileName ↔
    ¬ ∃ ending, DirectoryDot fileName.toList ending := by
  constructor
  · rintro same ⟨ending, dot⟩
    obtain ⟨found, slash⟩ := extensionOf_of_directoryDot dot
    exact slash_not_mem_of_own (same.symm.trans found) slash
  · exact (extensionOf_cases fileName).resolve_right

theorem extensionOf_eq_iff {text : String} (filled : text ≠ "") (whole : '/' ∉ text.toList) :
    extensionOf fileName = text ↔ ownExtension fileName = text := by
  rcases extensionOf_cases fileName with own | ⟨ending, dot⟩
  · rw [own]
  · obtain ⟨found, slash⟩ := extensionOf_of_directoryDot dot
    rw [found, ownExtension_of_directoryDot dot]
    constructor
    · rintro rfl
      exact absurd (String.toList_ofList.symm ▸ slash) whole
    · intro same
      exact absurd same.symm filled

theorem kindOf_script_iff {settings : Settings} {file : InputFile} :
    kindOf settings file = .script ↔ kindOf settings file ≠ .entry ∧
      kindOf settings file ≠ .sharedPlaceholder ∧ file.extension = "js" := by
  unfold kindOf
  split_ifs <;> simp [*]

theorem kindOf_unsupported_iff {settings : Settings} {file : InputFile} :
    kindOf settings file = .unsupported ↔ kindOf settings file ≠ .entry ∧
      kindOf settings file ≠ .sharedPlaceholder ∧ file.extension ≠ "js" := by
  unfold kindOf
  split_ifs <;> simp [*]

/-- The derived extension is the own one unless the last dot stands in a directory; then it goes on
from there, and there is no own one. What is a script is so by its own extension. -/
theorem derived_extension (settings : Settings) (package : PackageId) (fileName source : String)
    (platform : Platform) :
    let file := InputFile.ofSource package fileName source platform
    let kind := (classify settings file).kind
    (file.extension = ownExtension fileName ↔
      ¬ ∃ ending, DirectoryDot fileName.toList ending) ∧
    (∀ ending, DirectoryDot fileName.toList ending ↔
      file.extension = String.ofList ending ∧ '/' ∈ ending) ∧
    (kind = .script ↔
      kind ≠ .entry ∧ kind ≠ .sharedPlaceholder ∧ ownExtension fileName = "js") ∧
    (kind = .unsupported ↔
      kind ≠ .entry ∧ kind ≠ .sharedPlaceholder ∧ ownExtension fileName ≠ "js") := by
  intro file kind
  have script : file.extension = "js" ↔ ownExtension fileName = "js" :=
    extensionOf_eq_iff (by decide) (by decide)
  have other : file.extension ≠ "js" ↔ ownExtension fileName ≠ "js" := not_congr script
  refine ⟨extensionOf_eq_own_iff fileName, fun ending => directoryDot_iff, ?_, ?_⟩
  · rw [← script]
    exact kindOf_script_iff
  · rw [← other]
    exact kindOf_unsupported_iff

-- `dir.js/x` has no extension, but the dot of its directory comes last.
example : extensionOf "dir.js/x" = "js/x" ∧ ownExtension "dir.js/x" = "" := by decide

end PlatformBundle
