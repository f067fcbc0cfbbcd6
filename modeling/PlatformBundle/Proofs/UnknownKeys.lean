import PlatformBundle.Proofs.KeyMaps
import PlatformBundle.Settings.File
/-!
Keys of a settings file that name no setting. In the table of the bundler such a key spoils the
file. Everywhere else it is passed over: the settings are those of the document without it, and
what stands under it is noticed only when a number in it cannot be represented.
-/

namespace PlatformBundle

namespace Toml

/-- What a reader looks at: no more than `keep` leaves of an item, and no item but those that pass
the test. -/
structure Scope where
  keep : Toml → Toml
  test : Toml → Bool

namespace Scope

def whole : Scope := ⟨id, fun _ => true⟩

def named (names : List String) : Scope where
  keep
    | .table kind members => .table kind (members.filter (fun member => names.contains member.1))
    | item => item
  test
    | .table _ members => members.all (fun member => names.contains member.1 || readable member.2)
    | _ => true

def each (inner : Scope) : Scope where
  keep
    | .table kind members =>
        .table kind (members.map (fun member => (member.1, inner.keep member.2)))
    | item => item
  test
    | .table _ members => members.all (fun member => inner.test member.2)
    | _ => true

def within (names : List String) (scopeOf : String → Scope) : Scope where
  keep
    | .table kind members =>
        .table kind (members.map (fun member => (member.1, (scopeOf member.1).keep member.2)))
    | item => item
  test
    -- A name is looked up, so a second member of the same name would not matter.
    | .table _ members =>
        names.all (fun name => (KeyMap.lookup name members).all (scopeOf name).test)
    | _ => true

end Scope

variable {β γ : Type} {scope : Scope} {read : Toml → Option β}

/-- The reader makes no difference between an item and what the scope keeps of it, and refuses the
items that do not pass the test of the scope. -/
def Sees (scope : Scope) (read : Toml → Option β) : Prop :=
  ∀ item, read item = if scope.test item then read (scope.keep item) else none

theorem Sees.bind (sees : Sees scope read) (use : β → Option γ) :
    Sees scope (fun item => (read item).bind use) := by
  intro item
  dsimp only
  rw [sees item]
  split <;> rfl

theorem sees_record (names : List String) : Sees (.named names) (record? .passedOver names) := by
  intro item
  cases item with
  | table kind members =>
      have same : names.map (fun name => KeyMap.lookup name
            (members.filter (fun member => names.contains member.1))) =
          names.map (fun name => KeyMap.lookup name members) :=
        List.map_congr_left (fun name among =>
          KeyMap.lookup_filter names.contains (List.contains_iff_mem.mpr among) members)
      have known : (members.filter (fun member => names.contains member.1)).all (fun member =>
          names.contains member.1 || acceptsUnknown .passedOver member.2) = true := by
        rw [List.all_eq_true]
        intro member stays
        rw [(List.mem_filter.mp stays).2, Bool.true_or]
      simp only [record?, members?, Option.bind_some, Toml.named, Scope.named, same, known, if_true]
      rfl
  | _ => rfl

theorem Sees.members (sees : Sees scope read) (members : List (String × Toml)) :
    members.mapM (fun member => (read member.2).map (member.1, ·)) =
      if members.all (fun member => scope.test member.2) then
        (members.map (fun member => (member.1, scope.keep member.2))).mapM
          (fun member => (read member.2).map (member.1, ·))
      else none := by
  induction members with
  | nil => rfl
  | cons head rest ih =>
      rw [List.mapM_cons, List.map_cons, List.mapM_cons, List.all_cons, sees head.2, ih]
      cases scope.test head.2 with
      | false => rfl
      | true =>
          cases rest.all (fun member => scope.test member.2) with
          -- The first member has been read when a later one fails, and is lost with it.
          | false => cases read (scope.keep head.2) <;> rfl
          | true => rfl

theorem Sees.mapOf (sees : Sees scope read) : Sees scope.each (mapOf? read) := by
  intro item
  cases item with
  | table kind members =>
      change (members.mapM (fun member => (read member.2).map (member.1, ·))).bind _ = _
      rw [sees.members members]
      exact apply_ite (Option.bind · _) _ _ _
  | _ => rfl

theorem Sees.orElse (sees : Sees scope read) (usual : β) (found : Option Toml) :
    orElse usual read found =
      if found.all scope.test then orElse usual read (found.map scope.keep) else none := by
  cases found with
  | none => rfl
  | some item => exact sees item

end Toml

namespace Settings

open Toml

namespace Written

def scopeOf (name : String) : Scope :=
  if name = "npm" then .named ["program", "loglevel", "extra_args"]
  else if name = "webpack" then .named ["program", "config_file"]
  else if name = "platforms" then .each (.named ["ambient_global", "links_shared_namespace"])
  else .whole

theorem npm_sees : Sees (scopeOf "npm") npm? := (sees_record _).bind _

theorem webpack_sees : Sees (scopeOf "webpack") webpack? := (sees_record _).bind _

theorem platforms_sees : Sees (scopeOf "platforms") (mapOf? capabilities?) :=
  Sees.mapOf ((sees_record _).bind _)

def ofFound? (found : String → Option Toml) : Option Written := do
  some {
    appRoot := ← optional text? (found "app_root")
    stagingBase := ← optional text? (found "staging_base")
    ownPackage := ← optional text? (found "own_package")
    sharedNamespace := ← optional text? (found "namespace")
    entrySuffix := ← optional text? (found "entry_suffix")
    sharedModulesFile := ← optional text? (found "shared_modules_file")
    browserGlobal := ← optional text? (found "browser_global")
    toolDependencies := ← optional (mapOf? text?) (found "tool_dependencies")
    npm := ← orElse .standard npm? (found "npm")
    webpack := ← orElse .standard webpack? (found "webpack")
    unclassified := ← orElse .warn policy? (found "unclassified")
    resetOnFirstRun := ← orElse false bool? (found "reset_on_first_run")
    platforms := ← orElse KeyMap.empty (mapOf? capabilities?) (found "platforms") }

theorem ofItem?_table (kind : TableKind) (members : List (String × Toml)) :
    ofItem? (.table kind members) =
      if members.all (fun member => names.contains member.1) then
        ofFound? (KeyMap.lookup · members)
      else none := by
  have known : members.all (fun member => names.contains member.1 ||
      acceptsUnknown .refused member.2) = members.all (fun member => names.contains member.1) := by
    simp only [acceptsUnknown, Bool.or_false]
  simp only [ofItem?, longEnough, Bool.not_true, Bool.false_eq_true, if_false, record?, members?,
    Option.bind_some, named, known]
  cases members.all (fun member => names.contains member.1) <;> rfl

theorem ofFound?_sees (found : String → Option Toml) :
    ofFound? found =
      if names.all (fun name => (found name).all (scopeOf name).test) then
        ofFound? (fun name => (found name).map (scopeOf name).keep)
      else none := by
  have scopes : names.all (fun name => (found name).all (scopeOf name).test) =
      ((found "npm").all (scopeOf "npm").test && ((found "webpack").all (scopeOf "webpack").test &&
        (found "platforms").all (scopeOf "platforms").test)) := by
    simp [names, scopeOf, Scope.whole]
  have kept (name : String) (other : scopeOf name = .whole) :
      (found name).map (scopeOf name).keep = found name := by
    rw [other]
    exact Option.map_id_apply
  rw [scopes, ofFound?, npm_sees.orElse, webpack_sees.orElse, platforms_sees.orElse]
  cases (found "npm").all (scopeOf "npm").test with
  | false => simp
  | true =>
    cases (found "webpack").all (scopeOf "webpack").test with
    | false => simp
    | true =>
      cases (found "platforms").all (scopeOf "platforms").test with
      | false => simp
      | true =>
        simp only [Bool.and_true, if_true, ofFound?, kept "app_root" rfl, kept "staging_base" rfl,
          kept "own_package" rfl, kept "namespace" rfl, kept "entry_suffix" rfl,
          kept "shared_modules_file" rfl, kept "browser_global" rfl,
          kept "tool_dependencies" rfl, kept "unclassified" rfl, kept "reset_on_first_run" rfl]

theorem ofItem?_sees : Sees (.within names scopeOf) ofItem? := by
  intro item
  cases item with
  | table kind members =>
      simp only [Scope.within, ofItem?_table, List.all_map, Function.comp_def,
        KeyMap.lookup_mapMembers (fun name => (scopeOf name).keep)]
      rw [ofFound?_sees (KeyMap.lookup · members)]
      split <;> split <;> rfl
  | _ => rfl

theorem ofItem?_undocumented {kind : TableKind} {members : List (String × Toml)}
    (undocumented : ∃ member ∈ members, member.1 ∉ names) :
    ofItem? (.table kind members) = none := by
  obtain ⟨member, among, unknown⟩ := undocumented
  rw [ofItem?_table, if_neg]
  intro known
  exact unknown (List.contains_iff_mem.mp (List.all_eq_true.mp known member among))

end Written

/-- The members of a document without those that are passed over, in it and in its tables. -/
def documented (members : List (String × Toml)) : List (String × Toml) :=
  (members.filter (fun member => member.1 == "bundler")).map
    (fun member => (member.1, (Scope.within Written.names Written.scopeOf).keep member.2))

def restReadable (members : List (String × Toml)) : Bool :=
  members.all (fun member => member.1 == "bundler" || readable member.2) &&
    (KeyMap.lookup "bundler" members).all (Scope.within Written.names Written.scopeOf).test

theorem Written.ofDocument?_eq (members : List (String × Toml)) :
    Written.ofDocument? members =
      if members.all (fun member => member.1 == "bundler" || readable member.2) then
        orElse Written.nothing Written.ofItem? (KeyMap.lookup "bundler" members)
      else none := by
  have known : members.all (fun member => ["bundler"].contains member.1 ||
      acceptsUnknown .passedOver member.2) =
      members.all (fun member => member.1 == "bundler" || readable member.2) := by
    simp only [List.contains_cons, List.contains_nil, Bool.or_false, acceptsUnknown]
  simp only [Written.ofDocument?, named, known]
  split <;> rfl

theorem Written.ofDocument?_documented (members : List (String × Toml)) :
    Written.ofDocument? members =
      if restReadable members then Written.ofDocument? (documented members) else none := by
  have known : (documented members).all (fun member => member.1 == "bundler" || readable member.2)
      = true := by
    rw [documented, List.all_map, List.all_eq_true]
    intro member stays
    rw [Function.comp_apply, (List.mem_filter.mp stays).2, Bool.true_or]
  have found : KeyMap.lookup "bundler" (documented members) =
      (KeyMap.lookup "bundler" members).map (Scope.within Written.names Written.scopeOf).keep := by
    rw [documented, KeyMap.lookup_mapMembers (fun _ => (Scope.within names scopeOf).keep),
      KeyMap.lookup_filter (· == "bundler") rfl]
  rw [ofDocument?_eq, ofDocument?_eq (documented members), if_pos known, found,
    ofItem?_sees.orElse, restReadable]
  cases members.all (fun member => member.1 == "bundler" || readable member.2) with
  | false => rfl
  | true => rfl

def ofWritten (workdir : RealPath) (base : Path) : Option Written → Except BuildError Settings
  | none => .error (.config "Failed to parse settings")
  | some written =>
      ((written.draft base).bind (Draft.build workdir)).mapError (fun fault =>
        .config fault.message)

variable {workdir : RealPath} {text : String} {base : Path} {members : List (String × Toml)}

theorem parse_eq (read : Toml.read text = some members) :
    parse workdir text base = ofWritten workdir base (Written.ofDocument? members) := by
  rw [parse, read, Option.bind_some]
  cases Written.ofDocument? members <;> rfl

/-- A key that is not documented spoils the file in the table of the bundler only. Elsewhere the
settings are those of the document without it, unless a number below it cannot be represented. -/
theorem undocumented_keys (read : Toml.read text = some members) :
    (∀ kind entries, KeyMap.lookup "bundler" members = some (.table kind entries) →
      (∃ entry ∈ entries, entry.1 ∉ Written.names) →
      parse workdir text base = .error (.config "Failed to parse settings")) ∧
    parse workdir text base =
      if restReadable members then
        ofWritten workdir base (Written.ofDocument? (documented members))
      else .error (.config "Failed to parse settings") := by
  constructor
  · intro kind entries bundler undocumented
    have refused : Written.ofDocument? members = none := by
      rw [Written.ofDocument?_eq, bundler]
      dsimp only [orElse]
      rw [Written.ofItem?_undocumented undocumented, ite_self]
    rw [parse_eq read, refused, ofWritten]
  · rw [parse_eq read, Written.ofDocument?_documented]
    split <;> rfl

example : parse ["srv"] "[bundler]\nlog_level = \"warn\"" ⟨"app"⟩ =
    .error (.config "Failed to parse settings") := by decide +kernel

theorem misspelled_level_is_dropped :
    (Toml.read "[bundler.npm]\nlog_level = \"warn\"").isSome ∧
    (parse ["srv"] "[bundler.npm]\nlog_level = \"warn\"" ⟨"app"⟩).toOption.map Settings.npm =
      some .standard := by
  have read : Toml.read "[bundler.npm]\nlog_level = \"warn\"" =
      some ((Toml.read "[bundler.npm]\nlog_level = \"warn\"").get (by decide +kernel)) :=
    (Option.some_get _).symm
  refine ⟨by decide +kernel, ?_⟩
  rw [(undocumented_keys read).2]
  decide +kernel

end Settings

end PlatformBundle
