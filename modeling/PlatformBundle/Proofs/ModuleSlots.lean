import Mathlib.Data.List.Infix
import PlatformBundle.ConfigModule
import PlatformBundle.Proofs.ManifestFiles
import PlatformBundle.Proofs.WideLayout
/-!
The slots of the configuration module. The module is a fixed text around four slots, each slot
reads as the part of the description it was written for, and there is one way only to see four
pieces of JSON in that text: behind a whole value no comma and no closing parenthesis is read. So
the description can be told from the module.
-/

namespace PlatformBundle

namespace Text

variable {value : String → String}

def slot (name : List Char) : List Char := '\x7b' :: '\x7b' :: (name ++ ['\x7d', '\x7d'])

theorem fillFrom_fixed {fixed : List Char} (noSlot : ¬ ['\x7b', '\x7b'] <:+: fixed)
    (ends : fixed.getLast? ≠ some '\x7b') (rest : List Char) :
    fillFrom value none (fixed ++ rest) = fixed ++ fillFrom value none rest := by
  induction fixed with
  | nil => rfl
  | cons c others ih =>
      cases others with
      | nil =>
          have plain : c ≠ '\x7b' := fun same => ends (by rw [same]; rfl)
          rw [List.singleton_append, fillFrom]
          · rfl
          · exact fun _ same _ => plain same
      | cons next others =>
          have later := ih
            (fun inside => noSlot (inside.trans (List.infix_cons List.infix_rfl)))
            (fun last => ends (by rwa [List.getLast?_cons_cons]))
          have single : c = '\x7b' → next ≠ '\x7b' := by
            rintro rfl rfl
            exact noSlot ⟨[], others, rfl⟩
          rw [List.cons_append, List.cons_append, fillFrom, ← List.cons_append, later]
          · rfl
          · exact fun _ brace same => single brace (List.cons.inj same).1

theorem fillFrom_name {name : List Char} (plain : '\x7d' ∉ name) (done rest : List Char) :
    fillFrom value (some done) (name ++ '\x7d' :: '\x7d' :: rest) =
      (value (String.ofList (done ++ name))).toList ++ fillFrom value none rest := by
  induction name generalizing done with
  | nil => rw [List.nil_append, fillFrom, List.append_nil]
  | cons c others ih =>
      obtain ⟨here, later⟩ := not_or.mp (fun there => plain (List.mem_cons.mpr there))
      rw [List.cons_append, fillFrom, ih later]
      · rw [List.append_assoc, List.singleton_append]
      · exact fun _ same _ => here same.symm

theorem fillFrom_slot {name : List Char} (plain : '\x7d' ∉ name) (rest : List Char) :
    fillFrom value none (slot name ++ rest) =
      (value (String.ofList name)).toList ++ fillFrom value none rest := by
  rw [slot, List.cons_append, List.cons_append, List.append_assoc, fillFrom]
  exact fillFrom_name plain [] rest

end Text

namespace Json

section Ends

/-- What may stand behind a value in a list of values, but not behind a whole text. -/
def Stops (c : Char) : Prop := c = ',' ∨ c = ')'

theorem step_ended {c : Char} (stops : Stops c) (term : Term) :
    Machine.step ⟨.ended term, []⟩ c = none := by
  rcases stops with rfl | rfl <;> rfl

-- A number may be whole and go on, but not with one of these.
theorem step_result {c : Char} (stops : Stops c) {machine : Machine} {term : Term}
    (whole : machine.result? = some term) : machine.step c = none := by
  obtain ⟨mode, frames⟩ := machine
  unfold Machine.result? at whole
  split at whole
  · rename_i ended none
    obtain rfl : mode = .ended _ := ended
    obtain rfl : frames = [] := none
    exact step_ended stops _
  · rename_i part text number none
    obtain rfl : mode = .number part text := number
    obtain rfl : frames = [] := none
    have refused : Machine.extendNumber part text c = none := by
      rcases stops with rfl | rfl <;> cases part <;> rfl
    simp only [Machine.step, refused]
    split
    · exact step_ended stops _
    · rfl
  · cases whole

theorem readTerm_stop {text : List Char} {term : Term} (whole : readTerm text = some term)
    {c : Char} (stops : Stops c) (rest : List Char) : readTerm (text ++ c :: rest) = none := by
  unfold readTerm at whole ⊢
  obtain ⟨machine, read, result⟩ := Option.bind_eq_some_iff.mp whole
  rw [List.foldlM_append, read]
  simp [step_result stops result]

theorem readTerm_of_read {text : List Char} {value : Json} (whole : read text = some value) :
    ∃ term, readTerm text = some term := by
  obtain ⟨term, here, -⟩ := Option.bind_eq_some_iff.mp whole
  exact ⟨term, here⟩

/-- A value that a stop stands behind ends in one place only. -/
theorem slot_unique {first second : List Char} {one two : Json}
    (readsFirst : read first = some one) (readsSecond : read second = some two) {c : Char}
    (stops : Stops c) {rest others : List Char}
    (same : first ++ c :: rest = second ++ c :: others) : first = second ∧ rest = others := by
  -- If one of them went on, a stop would stand behind a whole value inside of it.
  have shorter {front back : List Char} {value other : Json}
      (front_reads : read front = some value) (back_reads : read back = some other)
      {behind between ahead : List Char} (longer : back = front ++ between)
      (goesOn : c :: behind = between ++ ahead) : between = [] := by
    cases between with
    | nil => rfl
    | cons d between =>
        obtain ⟨rfl, -⟩ := List.cons.inj goesOn
        obtain ⟨term, whole⟩ := readTerm_of_read front_reads
        obtain ⟨_, there⟩ := readTerm_of_read back_reads
        rw [longer, readTerm_stop whole stops] at there
        cases there
  rcases List.append_eq_append_iff.mp same with
    ⟨between, longer, goesOn⟩ | ⟨between, longer, goesOn⟩
  · obtain rfl := shorter readsFirst readsSecond longer goesOn
    rw [List.append_nil] at longer
    exact ⟨longer.symm, (List.cons.inj goesOn).2⟩
  · obtain rfl := shorter readsSecond readsFirst longer goesOn
    rw [List.append_nil] at longer
    exact ⟨longer, (List.cons.inj goesOn).2.symm⟩

end Ends

section Meanings

theorem read_wide {indent : Nat} {value other : Json} {term : Term}
    (reads : ReadsBack indent value term) (means : term.value? = some other) :
    read (value.wide indent) = some other := by
  have back := readTerm_wide reads [] (fun _ none => absurd none List.not_mem_nil)
  rw [List.append_nil] at back
  rw [read, back]
  exact means

variable {room : Nat}

theorem valueWithin_string (text : String) :
    Term.valueWithin room (.string (piecesOf text)) = some (.string text) := by
  rw [Term.valueWithin, textOf_piecesOf, Option.map_some]

theorem itemsWithin_strings (texts : List String) :
    Term.itemsWithin room (texts.map (fun text => .string (piecesOf text))) =
      some (texts.map .string) := by
  induction texts with
  | nil => rfl
  | cons text others ih =>
      rw [List.map_cons, Term.itemsWithin, valueWithin_string, ih]
      rfl

theorem membersWithin_cons {key : String} {term : Term} {value : Json}
    {reads : List (List TextPiece × Term)} {members : List (String × Json)}
    (first : term.valueWithin room = some value)
    (rest : Term.membersWithin room reads = some members) :
    Term.membersWithin room ((piecesOf key, term) :: reads) = some ((key, value) :: members) := by
  rw [Term.membersWithin, textOf_piecesOf, first, rest]
  rfl

theorem membersWithin_texts (entries : List (String × String)) :
    Term.membersWithin room (entries.map
      (fun entry => (piecesOf entry.1, .string (piecesOf entry.2)))) =
      some (entries.map (fun entry => (entry.1, .string entry.2))) := by
  induction entries with
  | nil => rfl
  | cons entry rest ih => exact membersWithin_cons (valueWithin_string entry.2) ih

theorem value?_texts (entries : List (String × String)) :
    Term.value? (.object (entries.map
      (fun entry => (piecesOf entry.1, .string (piecesOf entry.2))))) = some (.object (KeyMap.ofList
        (entries.map (fun entry => (entry.1, Json.string entry.2)))).entries) := by
  rw [Term.value?, deepest, Term.valueWithin, membersWithin_texts, Option.map_some]

theorem read_texts (indent : Nat) (entries : List (String × String)) :
    read (wide indent (.object (entries.map (fun entry => (entry.1, .string entry.2))))) =
      some (.object (KeyMap.ofList
        (entries.map (fun entry => (entry.1, Json.string entry.2)))).entries) :=
  read_wide (readsBack_texts indent entries) (value?_texts entries)

theorem read_ofMap (indent : Nat) (map : KeyMap String) :
    read ((ofMap map).wide indent) = some (ofMap map) := by
  have ascending : (map.entries.map (fun entry => (entry.1, Json.string entry.2))).Pairwise
      (fun a b => a.1 < b.1) := List.pairwise_map.mpr map.ascending
  rw [ofMap, read_texts, KeyMap.entries_ofList ascending]

theorem value?_strings (texts : List String) :
    Term.valueWithin (room + 1) (.array (texts.map (fun text => .string (piecesOf text)))) =
      some (ofStrings texts) := by
  rw [Term.valueWithin, itemsWithin_strings]
  rfl

theorem ofMap_injective {first second : KeyMap String} (same : ofMap first = ofMap second) :
    first = second := by
  have entries := Json.object.inj same
  rw [KeyMap.mk.injEq]
  refine List.map_injective_iff.mpr ?_ entries
  rintro ⟨_, _⟩ ⟨_, _⟩ equal
  simpa using equal

theorem ofStrings_injective {first second : List String}
    (same : ofStrings first = ofStrings second) : first = second :=
  List.map_injective_iff.mpr (fun _ _ => Json.string.inj) (Json.array.inj same)

theorem read_quoted (text : String) : read (quoted text) = some (.string text) :=
  read_wide (readsBack_string 0 text) (valueWithin_string text)

end Meanings

end Json

namespace ConfigModule

open Json

structure Slots where
  entry : List Char
  output : List Char
  sharedChunk : List Char
  resolve : List Char

namespace Slots

def opening : String :=
  "// Generated for one platform batch. Changes are overwritten.\n" ++
  "var webpack = require('webpack');\n\nmodule.exports = \x7b\n    entry: "

def behindEntry : String := ",\n    output: "

def behindOutput : String :=
  ",\n    plugins: [\n        new webpack.optimize.CommonsChunkPlugin("

def behindSharedChunk : String := ")\n    ],\n    resolve: "

def closing : String := "\n\x7d;\n"

def moduleText (slots : Slots) : List Char :=
  opening.toList ++ (slots.entry ++ (behindEntry.toList ++ (slots.output ++
    (behindOutput.toList ++ (slots.sharedChunk ++ (behindSharedChunk.toList ++
      (slots.resolve ++ closing.toList)))))))

structure AreJson (slots : Slots) : Prop where
  entry : ∃ value, Json.read slots.entry = some value
  output : ∃ value, Json.read slots.output = some value
  sharedChunk : ∃ value, Json.read slots.sharedChunk = some value
  resolve : ∃ value, Json.read slots.resolve = some value

theorem moduleText_unique {first second : Slots} (json : first.AreJson) (others : second.AreJson)
    (same : first.moduleText = second.moduleText) : first = second := by
  obtain ⟨entry, output, shared, resolve⟩ := first
  obtain ⟨entry', output', shared', resolve'⟩ := second
  obtain ⟨⟨_, readsEntry⟩, ⟨_, readsOutput⟩, ⟨_, readsShared⟩, -⟩ := json
  obtain ⟨⟨_, readsEntry'⟩, ⟨_, readsOutput'⟩, ⟨_, readsShared'⟩, -⟩ := others
  have afterEntry := List.append_cancel_left same
  have atOutput : behindEntry.toList = ',' :: "\n    output: ".toList := by decide +kernel
  have atShared : behindOutput.toList =
      ',' :: "\n    plugins: [\n        new webpack.optimize.CommonsChunkPlugin(".toList := by
    decide +kernel
  have atResolve : behindSharedChunk.toList = ')' :: "\n    ],\n    resolve: ".toList := by
    decide +kernel
  rw [atOutput, atShared, atResolve] at afterEntry
  obtain ⟨rfl, rest⟩ := slot_unique readsEntry readsEntry' (.inl rfl) afterEntry
  obtain ⟨rfl, rest⟩ := slot_unique readsOutput readsOutput' (.inl rfl)
    (List.append_cancel_left rest)
  obtain ⟨rfl, rest⟩ := slot_unique readsShared readsShared' (.inr rfl)
    (List.append_cancel_left rest)
  -- Behind the last slot there is only the closing text, so it need not be read to be found.
  obtain rfl := List.append_cancel_right (List.append_cancel_left rest)
  rfl

/-- What the slots read as; the members of an object come in ascending order of their keys. -/
structure Describe (slots : Slots) (config : BundleConfig) : Prop where
  entry : Json.read slots.entry = some (Json.ofMap config.entry)
  output : Json.read slots.output = some (.object (("filename", .string config.chunkPattern) ::
    (config.globalObject.toList.map (fun name => ("globalObject", .string name)) ++
      [("path", .string config.outputPath.text)])))
  sharedChunk : Json.read slots.sharedChunk = some (.string config.sharedChunk)
  resolve : Json.read slots.resolve =
    some (.object [("fallback", Json.ofStrings (config.fallback.map Path.text))])

theorem Describe.areJson {slots : Slots} {config : BundleConfig}
    (describe : slots.Describe config) : slots.AreJson :=
  ⟨⟨_, describe.entry⟩, ⟨_, describe.output⟩, ⟨_, describe.sharedChunk⟩, ⟨_, describe.resolve⟩⟩

/-- Slots describe one bundle only. -/
theorem Describe.unique {slots : Slots} {first second : BundleConfig}
    (one : slots.Describe first) (two : slots.Describe second) : first = second := by
  have entry := ofMap_injective (Option.some.inj (one.entry.symm.trans two.entry))
  have shared := Json.string.inj (Option.some.inj (one.sharedChunk.symm.trans two.sharedChunk))
  have output := Json.object.inj (Option.some.inj (one.output.symm.trans two.output))
  have resolve := Json.object.inj (Option.some.inj (one.resolve.symm.trans two.resolve))
  obtain ⟨pattern, others⟩ := List.cons.inj output
  obtain ⟨global, path⟩ := List.append_inj' others rfl
  have fallback := List.map_injective_iff.mpr (fun _ _ => congrArg Path.mk)
    (ofStrings_injective (Prod.mk.inj (List.cons.inj resolve).1).2)
  rw [BundleConfig.mk.injEq]
  refine ⟨entry, ?_, ?_, ?_, fallback, shared⟩
  · exact congrArg Path.mk (Json.string.inj (Prod.mk.inj (List.cons.inj path).1).2)
  · exact Json.string.inj (Prod.mk.inj pattern).2
  · have names := List.map_injective_iff.mpr
      (fun _ _ same => Json.string.inj (Prod.mk.inj same).2) global
    rw [← @Option.head?_toList _ first.globalObject, names, Option.head?_toList]

def ofConfig (config : BundleConfig) : Slots where
  entry := (Json.ofMap config.entry).wide margin
  output := config.outputJson.wide margin
  sharedChunk := quoted config.sharedChunk
  resolve := config.resolveJson.wide margin

theorem read_output (indent : Nat) (config : BundleConfig) :
    Json.read (config.outputJson.wide indent) =
      some (.object (("filename", .string config.chunkPattern) ::
        (config.globalObject.toList.map (fun name => ("globalObject", .string name)) ++
          [("path", .string config.outputPath.text)]))) := by
  have order : "filename" < "path" ∧ "globalObject" < "path" ∧ "filename" < "globalObject" := by
    decide
  obtain ⟨below, globalBelow, first⟩ := order
  rcases global : config.globalObject with _ | name
  · have reads := read_texts indent [("path", config.outputPath.text),
      ("filename", config.chunkPattern)]
    have sorted : (KeyMap.ofList [("path", Json.string config.outputPath.text),
        ("filename", .string config.chunkPattern)]).entries =
        [("filename", .string config.chunkPattern), ("path", .string config.outputPath.text)] := by
      simp [KeyMap.ofList, KeyMap.insert, KeyMap.put, KeyMap.empty, below]
    simp only [List.map_cons, List.map_nil, sorted] at reads
    rw [BundleConfig.outputJson, global]
    exact reads
  · have reads := read_texts indent [("path", config.outputPath.text),
      ("filename", config.chunkPattern), ("globalObject", name)]
    have sorted : (KeyMap.ofList [("path", Json.string config.outputPath.text),
        ("filename", .string config.chunkPattern), ("globalObject", .string name)]).entries =
        [("filename", .string config.chunkPattern), ("globalObject", .string name),
          ("path", .string config.outputPath.text)] := by
      simp [KeyMap.ofList, KeyMap.insert, KeyMap.put, KeyMap.empty, below, globalBelow, first,
        String.lt_asymm first]
    simp only [List.map_cons, List.map_nil, sorted] at reads
    rw [BundleConfig.outputJson, global]
    exact reads

theorem read_resolve (indent : Nat) (config : BundleConfig) :
    Json.read (config.resolveJson.wide indent) =
      some (.object [("fallback", Json.ofStrings (config.fallback.map Path.text))]) := by
  have reads : MembersRead (indent + 2)
      [("fallback", Json.ofStrings (config.fallback.map Path.text))]
      [(piecesOf "fallback", .array ((config.fallback.map Path.text).map
        (fun text => .string (piecesOf text))))] :=
    .cons ⟨rfl, readsBack_ofStrings (indent + 2) (config.fallback.map Path.text)⟩ .nil
  refine read_wide (readsBack_object reads) ?_
  rw [Term.value?, deepest, Term.valueWithin, membersWithin_cons (value?_strings _) rfl]
  rfl

theorem ofConfig_describe (config : BundleConfig) : (ofConfig config).Describe config :=
  ⟨read_ofMap margin config.entry, read_output margin config, read_quoted config.sharedChunk,
    read_resolve margin config⟩

end Slots

open Slots

theorem indented_toList (value : Json) : (indented value).toList = value.wide margin := by
  rw [indented, String.toList_ofList, setIn_wide, Nat.zero_add]

theorem template_toList : template.toList =
    opening.toList ++ (Text.slot "entry".toList ++ (behindEntry.toList ++
      (Text.slot "output".toList ++ (behindOutput.toList ++ (Text.slot "shared_chunk".toList ++
        (behindSharedChunk.toList ++ (Text.slot "resolve".toList ++ closing.toList))))))) := by
  have parts : template = opening ++ ("\x7b\x7bentry\x7d\x7d" ++ (behindEntry ++
      ("\x7b\x7boutput\x7d\x7d" ++ (behindOutput ++ ("\x7b\x7bshared_chunk\x7d\x7d" ++
        (behindSharedChunk ++ ("\x7b\x7bresolve\x7d\x7d" ++ closing))))))) := by
    decide +kernel
  have entry : "\x7b\x7bentry\x7d\x7d".toList = Text.slot "entry".toList := by decide +kernel
  have output : "\x7b\x7boutput\x7d\x7d".toList = Text.slot "output".toList := by decide +kernel
  have shared : "\x7b\x7bshared_chunk\x7d\x7d".toList = Text.slot "shared_chunk".toList := by
    decide +kernel
  have resolve : "\x7b\x7bresolve\x7d\x7d".toList = Text.slot "resolve".toList := by
    decide +kernel
  rw [parts]
  simp only [String.toList_append, entry, output, shared, resolve]

theorem render_toList (config : BundleConfig) :
    (render config).toList = (Slots.ofConfig config).moduleText := by
  have closes : Text.fillFrom (slotText config) none closing.toList = closing.toList := by
    have whole : Text.fillFrom (slotText config) none (closing.toList ++ []) =
        closing.toList ++ Text.fillFrom (slotText config) none [] :=
      Text.fillFrom_fixed (by decide +kernel) (by decide +kernel) []
    rwa [List.append_nil, Text.fillFrom, List.append_nil] at whole
  rw [render, Text.fill, String.toList_ofList, template_toList,
    Text.fillFrom_fixed (by decide +kernel) (by decide +kernel),
    Text.fillFrom_slot (by decide +kernel),
    Text.fillFrom_fixed (by decide +kernel) (by decide +kernel),
    Text.fillFrom_slot (by decide +kernel),
    Text.fillFrom_fixed (by decide +kernel) (by decide +kernel),
    Text.fillFrom_slot (by decide +kernel),
    Text.fillFrom_fixed (by decide +kernel) (by decide +kernel),
    Text.fillFrom_slot (by decide +kernel), closes]
  simp only [String.ofList_toList, slotText, indented_toList, compactText, compact,
    String.toList_ofList]
  rfl

/-- The module has four slots that read as the parts of the description, no other way of seeing
four pieces of JSON in it, and so comes from one description only. -/
theorem render_faithful (config : BundleConfig) :
    (∃ slots : Slots, (render config).toList = slots.moduleText ∧ slots.Describe config ∧
      ∀ others : Slots, others.AreJson → (render config).toList = others.moduleText →
        others = slots) ∧
    ∀ other : BundleConfig, render other = render config → other = config := by
  have described := ofConfig_describe config
  have only (others : Slots) (json : others.AreJson)
      (same : (render config).toList = others.moduleText) : others = ofConfig config :=
    moduleText_unique json described.areJson (same.symm.trans (render_toList config))
  refine ⟨⟨ofConfig config, render_toList config, described, only⟩, fun other same => ?_⟩
  have otherDescribed := ofConfig_describe other
  have written : (render config).toList = (ofConfig other).moduleText := by
    rw [← same, render_toList]
  rw [only _ otherDescribed.areJson written] at otherDescribed
  exact otherDescribed.unique described

end ConfigModule

end PlatformBundle
