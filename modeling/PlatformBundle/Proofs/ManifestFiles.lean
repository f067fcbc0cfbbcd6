import PlatformBundle.Manifest
import PlatformBundle.Proofs.JsonReading
import PlatformBundle.Proofs.KeyMaps
/-!
A manifest file is read back as the manifest that was written, whatever the names and constraints
in it are, so the file and the manifest determine each other. Its keys stand in ascending order.
-/

namespace PlatformBundle

namespace Json.Term

theorem namedMembers_pieces (members : List (String × Term)) :
    namedMembers (members.map (fun member => (piecesOf member.1, member.2))) = some members := by
  induction members with
  | nil => rfl
  | cons member rest ih =>
      rw [namedMembers] at ih ⊢
      rw [List.map_cons, List.mapM_cons, ih, textOf_piecesOf]
      rfl

def ofMap (map : KeyMap String) : Term :=
  .object (map.entries.map (fun entry => (piecesOf entry.1, .string (piecesOf entry.2))))

theorem mapOf?_ofMap (map : KeyMap String) : mapOf? text? (ofMap map) = some map := by
  have named : namedMembers (map.entries.map
      (fun entry => (piecesOf entry.1, Term.string (piecesOf entry.2)))) =
      some (map.entries.map (fun entry => (entry.1, Term.string (piecesOf entry.2)))) := by
    have whole := namedMembers_pieces
      (map.entries.map (fun entry => (entry.1, Term.string (piecesOf entry.2))))
    rwa [List.map_map] at whole
  have read : (map.entries.map (fun entry => (entry.1, Term.string (piecesOf entry.2)))).mapM
      (fun member => (text? member.2).map (member.1, ·)) = some map.entries := by
    induction map.entries with
    | nil => rfl
    | cons entry rest ih =>
        rw [List.map_cons, List.mapM_cons, ih, text?, textOf_piecesOf]
        rfl
  have same : KeyMap.ofList map.entries = map := by
    rw [KeyMap.mk.injEq]
    exact KeyMap.entries_ofList map.ascending
  simp only [ofMap, mapOf?, named, Option.bind_eq_bind, Option.bind_some, read, same]

end Json.Term

open Json

theorem readTerm_manifestText {value : Json} {term : Term} (reads : ReadsBack 0 value term) :
    readTerm (manifestText value).toList = some term := by
  rw [manifestText, Json.wideText, String.toList_append, String.toList_ofList]
  exact readTerm_wide reads ['\n'] (fun c among => List.mem_singleton.mp among ▸ rfl)

theorem membersRead_cons {indent : Nat} {key : String} {value : Json} {term : Term}
    {members : List (String × Json)} {reads : List (String × Term)}
    (first : ReadsBack indent value term)
    (rest : MembersRead indent members (reads.map (fun member => (piecesOf member.1, member.2)))) :
    MembersRead indent ((key, value) :: members)
      (((key, term) :: reads).map (fun member => (piecesOf member.1, member.2))) :=
  .cons ⟨rfl, first⟩ rest

def Json.Term.ofMembers (members : List (String × Term)) : Term :=
  .object (members.map (fun member => (piecesOf member.1, member.2)))

theorem PackageManifest.readTerm_fileText (manifest : PackageManifest) :
    readTerm manifest.fileText.toList = some (.ofMembers
      [("name", .string (piecesOf manifest.name)), ("version", .string (piecesOf manifest.version)),
        ("dependencies", .ofMap manifest.dependencies)]) := by
  rw [fileText, toJson]
  exact readTerm_manifestText (readsBack_object (membersRead_cons (readsBack_string 2 _)
    (membersRead_cons (readsBack_string 2 _) (membersRead_cons (readsBack_ofMap 2 _) .nil))))

theorem PackageManifest.read_fileText (manifest : PackageManifest) :
    PackageManifest.read manifest.fileText = .ok manifest := by
  have decoded : ofTerm? (.ofMembers [("name", .string (piecesOf manifest.name)),
      ("version", .string (piecesOf manifest.version)),
      ("dependencies", .ofMap manifest.dependencies)]) = some manifest := by
    rw [ofTerm?, Term.ofMembers, Term.record?, Term.namedMembers_pieces]
    simp [Term.uniqueMember, Term.text?, textOf_piecesOf, Term.orElse?, Term.mapOf?_ofMap]
  rw [PackageManifest.read, readTerm_fileText, Option.bind_some, decoded]

def TopManifest.fileMembers (manifest : TopManifest) : List (String × Term) :=
  ("dependencies", .ofMap manifest.dependencies) ::
    (if manifest.devDependencies.isEmpty then []
      else [("devDependencies", .ofMap manifest.devDependencies)])

theorem TopManifest.readTerm_fileText (manifest : TopManifest) :
    readTerm manifest.fileText.toList = some (.ofMembers manifest.fileMembers) := by
  rw [fileText, toJson, fileMembers]
  apply readTerm_manifestText
  apply readsBack_object
  apply membersRead_cons (readsBack_ofMap 2 _)
  by_cases none : manifest.devDependencies.isEmpty = true
  · rw [if_pos none, if_pos none]
    exact .nil
  · rw [if_neg none, if_neg none]
    exact membersRead_cons (readsBack_ofMap 2 _) .nil

theorem TopManifest.read_fileText (manifest : TopManifest) :
    TopManifest.read manifest.fileText = .ok manifest := by
  have decoded : ofTerm? (.ofMembers manifest.fileMembers) = some manifest := by
    rw [ofTerm?, Term.ofMembers, Term.record?, Term.namedMembers_pieces, fileMembers]
    by_cases none : manifest.devDependencies.isEmpty = true
    · have empty : manifest.devDependencies = KeyMap.empty := by
        rw [KeyMap.mk.injEq]
        exact List.isEmpty_iff.mp none
      rw [if_pos none]
      simp [Term.uniqueMember, Term.orElse?, Term.mapOf?_ofMap, ← empty]
    · rw [if_neg none]
      simp [Term.uniqueMember, Term.orElse?, Term.mapOf?_ofMap]
  rw [TopManifest.read, readTerm_fileText, Option.bind_some, decoded]

section Keys

/-- The keys of the object under a name, in the order in which they are written. -/
def Json.Term.keysUnder (name : String) : Term → Option (List String)
  | .object members => do
      let named ← namedMembers members
      match KeyMap.lookup name named with
      | some (.object inner) => (namedMembers inner).map (List.map Prod.fst)
      | _ => none
  | _ => none

def writtenKeys (name text : String) : Option (List String) :=
  (readTerm text.toList).bind (Term.keysUnder name)

theorem namedMembers_ofMap (map : KeyMap String) :
    (Term.namedMembers (map.entries.map (fun entry =>
      (piecesOf entry.1, Term.string (piecesOf entry.2))))).map (List.map Prod.fst) =
        some map.keys := by
  have named := Term.namedMembers_pieces
    (map.entries.map (fun entry => (entry.1, Term.string (piecesOf entry.2))))
  rw [List.map_map] at named
  simp only [Function.comp_def] at named
  rw [named, Option.map_some, List.map_map]
  rfl

section Written

variable {name text : String} {members : List (String × Term)}
  (reads : readTerm text.toList = some (.ofMembers members))

include reads

theorem writtenKeys_of_held {map : KeyMap String}
    (held : KeyMap.lookup name members = some (.ofMap map)) :
    writtenKeys name text = some map.keys := by
  rw [writtenKeys, reads, Option.bind_some]
  simp only [Term.ofMembers, Term.keysUnder, Term.namedMembers_pieces, Option.bind_eq_bind,
    Option.bind_some, held, Term.ofMap]
  exact namedMembers_ofMap map

theorem writtenKeys_of_missing (missing : KeyMap.lookup name members = none) :
    writtenKeys name text = none := by
  rw [writtenKeys, reads, Option.bind_some]
  simp only [Term.ofMembers, Term.keysUnder, Term.namedMembers_pieces, Option.bind_eq_bind,
    Option.bind_some, missing]

end Written

theorem PackageManifest.writtenKeys_fileText (manifest : PackageManifest) :
    writtenKeys "dependencies" manifest.fileText = some manifest.dependencies.keys :=
  writtenKeys_of_held manifest.readTerm_fileText rfl

theorem TopManifest.writtenKeys_fileText (manifest : TopManifest) :
    writtenKeys "dependencies" manifest.fileText = some manifest.dependencies.keys :=
  writtenKeys_of_held manifest.readTerm_fileText rfl

theorem TopManifest.writtenKeys_tools (manifest : TopManifest) :
    writtenKeys "devDependencies" manifest.fileText =
      if manifest.devDependencies.isEmpty then none else some manifest.devDependencies.keys := by
  have reads := manifest.readTerm_fileText
  rw [fileMembers] at reads
  by_cases none : manifest.devDependencies.isEmpty = true
  · rw [if_pos none] at reads ⊢
    exact writtenKeys_of_missing reads rfl
  · rw [if_neg none] at reads ⊢
    exact writtenKeys_of_held reads rfl

end Keys

section Determined

-- What is read back is written in one way only.
theorem text_inj_of_read {Manifest : Type} {text : Manifest → String}
    {read : String → Except Fault Manifest}
    (reads : ∀ manifest, read (text manifest) = .ok manifest) {first second : Manifest} :
    text first = text second ↔ first = second := by
  refine ⟨fun same => ?_, congrArg text⟩
  have decoded := congrArg read same
  rw [reads, reads] at decoded
  exact Except.ok.inj decoded

variable {first second : PackageManifest} {top other : TopManifest}

theorem PackageManifest.fileText_inj : first.fileText = second.fileText ↔ first = second :=
  text_inj_of_read PackageManifest.read_fileText

theorem TopManifest.fileText_inj : top.fileText = other.fileText ↔ top = other :=
  text_inj_of_read TopManifest.read_fileText

/-- A manifest and its file determine each other. The keys in a file are those of the manifest in
ascending order, and maps that were filled in different ways give the same file exactly when every
key was left with the same value. -/
theorem manifests_round_trip :
    (∀ manifest : PackageManifest, PackageManifest.read manifest.fileText = .ok manifest ∧
      writtenKeys "dependencies" manifest.fileText = some manifest.dependencies.keys) ∧
    (∀ manifest : TopManifest, TopManifest.read manifest.fileText = .ok manifest ∧
      writtenKeys "dependencies" manifest.fileText = some manifest.dependencies.keys ∧
      writtenKeys "devDependencies" manifest.fileText =
        if manifest.devDependencies.isEmpty then none else some manifest.devDependencies.keys) ∧
    (∀ map : KeyMap String, map.keys.Pairwise (· < ·)) ∧
    (∀ first second : PackageManifest, first.fileText = second.fileText ↔ first = second) ∧
    (∀ first second : TopManifest, first.fileText = second.fileText ↔ first = second) ∧
    (∀ (name version : String) (entries others : List (String × String)),
      (PackageManifest.mk name version (.ofList entries)).fileText =
          (PackageManifest.mk name version (.ofList others)).fileText ↔
        ∀ key, KeyMap.lookup key entries.reverse = KeyMap.lookup key others.reverse) ∧
    ∀ packages otherPackages tools otherTools : List (String × String),
      (TopManifest.mk (.ofList packages) (.ofList tools)).fileText =
          (TopManifest.mk (.ofList otherPackages) (.ofList otherTools)).fileText ↔
        ∀ key,
          KeyMap.lookup key packages.reverse = KeyMap.lookup key otherPackages.reverse ∧
          KeyMap.lookup key tools.reverse = KeyMap.lookup key otherTools.reverse := by
  refine ⟨fun manifest => ⟨manifest.read_fileText, manifest.writtenKeys_fileText⟩,
    fun manifest => ⟨manifest.read_fileText, manifest.writtenKeys_fileText,
      manifest.writtenKeys_tools⟩, KeyMap.keys_ascending, fun _ _ => PackageManifest.fileText_inj,
    fun _ _ => TopManifest.fileText_inj, ?_, ?_⟩
  · intro name version entries others
    rw [PackageManifest.fileText_inj, PackageManifest.mk.injEq, ← KeyMap.ofList_eq_iff]
    simp
  · intro packages otherPackages tools otherTools
    rw [TopManifest.fileText_inj, TopManifest.mk.injEq, KeyMap.ofList_eq_iff, KeyMap.ofList_eq_iff,
      forall_and]

end Determined

end PlatformBundle
