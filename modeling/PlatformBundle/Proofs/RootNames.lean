import PlatformBundle.Proofs.BuiltSettings
import PlatformBundle.Proofs.Paths
/-!
The names of a staging root. An absolute staging base is spelled out from the root, and the
directory of a platform is one proper name below it, whatever the tag of the platform is. No two
platforms share the name, because the spelling of a tag can be read back byte by byte.
-/

namespace PlatformBundle

open Text

namespace Path

theorem bodyComponent_proper {piece : List Char} (whole : '/' ∉ piece) {text : String}
    (named : bodyComponent piece = some (.name text)) : IsProper text := by
  unfold bodyComponent at named
  split at named
  · cases named
  · rename_i speaks
    split at named
    · cases named
    · rename_i notUp
      cases named
      simp only [silent, Bool.or_eq_true, beq_iff_eq, not_or] at speaks
      refine ⟨⟨?_, ?_⟩, ?_, ?_⟩
      · simpa using speaks.1
      · simpa using whole
      · intro same
        exact speaks.2 (by simpa using congrArg String.toList same)
      · intro same
        exact notUp (by simpa using congrArg String.toList same)

theorem leadComponent_proper {piece : List Char} (whole : '/' ∉ piece) {text : String}
    (named : leadComponent piece = some (.name text)) : IsProper text := by
  unfold leadComponent at named
  split at named
  · cases named
  · exact bodyComponent_proper whole named

theorem components_proper {path : Path} {text : String} (listed : .name text ∈ path.components) :
    IsProper text := by
  unfold components at listed
  split at listed
  · cases listed
  · rename_i first rest cut
    have whole : ∀ piece ∈ first :: rest, '/' ∉ piece := by
      intro piece member
      rw [← cut] at member
      exact sep_not_mem_pieces '/' _ piece member
    rcases List.mem_append.mp listed with lead | body
    · split at lead
      · cases List.mem_singleton.mp lead
      · exact leadComponent_proper (whole first List.mem_cons_self) (Option.mem_toList.mp lead)
    · obtain ⟨piece, member, named⟩ := List.mem_filterMap.mp body
      exact bodyComponent_proper (whole piece (List.mem_cons_of_mem _ member)) named

theorem resolveFrom_proper {start : RealPath} {components : List Component}
    (proper : ∀ name ∈ start, IsProper name)
    (named : ∀ text, .name text ∈ components → IsProper text) :
    ∀ name ∈ resolveFrom start components, IsProper name := by
  induction components generalizing start with
  | nil => exact proper
  | cons component rest ih =>
      have later : ∀ text, .name text ∈ rest → IsProper text :=
        fun text listed => named text (List.mem_cons_of_mem _ listed)
      cases component with
      | root => exact ih (by simp) later
      | here => exact ih proper later
      | up => exact ih (fun name listed => proper name (List.dropLast_subset _ listed)) later
      | name text =>
          exact ih (proper_append_one proper (named text List.mem_cons_self)) later

theorem spelled_proper {workdir : RealPath} (proper : ∀ name ∈ workdir, IsProper name)
    (path : Path) : ∀ name ∈ path.spelled workdir, IsProper name :=
  resolveFrom_proper proper (fun _ => components_proper)

end Path

namespace Platform

theorem hexDigit_plain : ∀ n < 16, hexDigit n ≠ '/' ∧ hexDigit n ≠ '.' := by decide

theorem toNat_spelled {n : Nat} (small : n < 256) : (Char.ofNat n).toNat = n := by
  have valid : n.isValidChar := Or.inl (by omega)
  rw [Char.ofNat, dif_pos valid]
  rfl

theorem byte_of_spelled {b : UInt8} {c : Char} (same : Char.ofNat b.toNat = c) :
    b = UInt8.ofNat c.toNat := by
  rw [← same, toNat_spelled (UInt8.toNat_lt b), UInt8.ofNat_toNat]

theorem plainByte_plain {b : UInt8} (plain : isPlainByte b = true) :
    Char.ofNat b.toNat ≠ '/' ∧ Char.ofNat b.toNat ≠ '.' ∧ Char.ofNat b.toNat ≠ '%' := by
  refine ⟨?_, ?_, ?_⟩ <;>
  · intro same
    rw [byte_of_spelled same] at plain
    revert plain
    decide

theorem spellByte_whole (keepDots : Bool) (b : UInt8) : '/' ∉ spellByte keepDots b := by
  have small := UInt8.toNat_lt b
  unfold spellByte
  split
  · rename_i kept
    rcases Bool.or_eq_true_iff.mp kept with plain | dotted
    · simpa using (plainByte_plain plain).1.symm
    · obtain ⟨same, -⟩ := Bool.and_eq_true_iff.mp dotted
      rw [eq_of_beq same]
      decide
  · have upper := (hexDigit_plain (b.toNat / 16) (by omega)).1
    have lower := (hexDigit_plain (b.toNat % 16) (by omega)).1
    simp [upper.symm, lower.symm]

-- Only a byte that is a dot, where dots are kept, is spelled by a dot.
theorem spellByte_speaks {keepDots : Bool} {b : UInt8} (speaks : b ≠ dot ∨ keepDots = false) :
    ∃ c ∈ spellByte keepDots b, c ≠ '.' := by
  have small := UInt8.toNat_lt b
  unfold spellByte
  split
  · rename_i kept
    rcases Bool.or_eq_true_iff.mp kept with plain | dotted
    · exact ⟨_, List.mem_singleton_self _, (plainByte_plain plain).2.1⟩
    · obtain ⟨same, dots⟩ := Bool.and_eq_true_iff.mp dotted
      rcases speaks with other | spelled
      · exact absurd (eq_of_beq same) other
      · rw [spelled] at dots
        cases dots
  · exact ⟨'%', List.mem_cons_self, by decide⟩

theorem hexDigit_injective : ∀ m < 16, ∀ n < 16, hexDigit m = hexDigit n → m = n := by decide

theorem spellByte_cases (keepDots : Bool) (b : UInt8) :
    (spellByte keepDots b = [Char.ofNat b.toNat] ∧ Char.ofNat b.toNat ≠ '%') ∨
      spellByte keepDots b = ['%', hexDigit (b.toNat / 16), hexDigit (b.toNat % 16)] := by
  unfold spellByte
  split
  · rename_i kept
    refine Or.inl ⟨rfl, ?_⟩
    rcases Bool.or_eq_true_iff.mp kept with plain | dotted
    · exact (plainByte_plain plain).2.2
    · rw [eq_of_beq (Bool.and_eq_true_iff.mp dotted).1]
      decide
  · exact Or.inr rfl

theorem spellByte_append {keepDots keepOther : Bool} {b other : UInt8} {rest more : List Char}
    (same : spellByte keepDots b ++ rest = spellByte keepOther other ++ more) :
    b = other ∧ rest = more := by
  have smallLeft := UInt8.toNat_lt b
  have smallRight := UInt8.toNat_lt other
  rcases spellByte_cases keepDots b with ⟨left, leftPlain⟩ | left <;>
    rcases spellByte_cases keepOther other with ⟨right, rightPlain⟩ | right <;>
    rw [left, right] at same
  · obtain ⟨char, after⟩ := List.cons.inj same
    refine ⟨UInt8.toNat_inj.mp ?_, after⟩
    rw [← toNat_spelled smallLeft, char, toNat_spelled smallRight]
  · exact absurd (List.cons.inj same).1 leftPlain
  · exact absurd (List.cons.inj same).1.symm rightPlain
  · obtain ⟨-, digits⟩ := List.cons.inj same
    obtain ⟨high, digits⟩ := List.cons.inj digits
    obtain ⟨low, after⟩ := List.cons.inj digits
    have highs := hexDigit_injective _ (by omega) _ (by omega) high
    have lows := hexDigit_injective _ (by omega) _ (by omega) low
    exact ⟨UInt8.toNat_inj.mp (by omega), after⟩

theorem spellByte_ne_nil (keepDots : Bool) (b : UInt8) : spellByte keepDots b ≠ [] := by
  rcases spellByte_cases keepDots b with ⟨same, -⟩ | same <;> simp [same]

theorem spelled_injective {keepDots keepOther : Bool} {bytes others : List UInt8}
    (same : bytes.flatMap (spellByte keepDots) = others.flatMap (spellByte keepOther)) :
    bytes = others := by
  induction bytes generalizing others with
  | nil =>
      cases others with
      | nil => rfl
      | cons other rest =>
          rw [List.flatMap_cons] at same
          exact absurd (List.append_eq_nil_iff.mp same.symm).1 (spellByte_ne_nil _ _)
  | cons b rest ih =>
      cases others with
      | nil =>
          rw [List.flatMap_cons] at same
          exact absurd (List.append_eq_nil_iff.mp same).1 (spellByte_ne_nil _ _)
      | cons other more =>
          rw [List.flatMap_cons, List.flatMap_cons] at same
          obtain ⟨rfl, after⟩ := spellByte_append same
          rw [ih after]

theorem spelled_ne_empty (keepDots : Bool) (bytes : List UInt8) :
    bytes.flatMap (spellByte keepDots) ≠ ['%'] := by
  cases bytes with
  | nil => simp
  | cons b rest =>
      intro same
      rw [List.flatMap_cons] at same
      rcases spellByte_cases keepDots b with ⟨spelled, plain⟩ | spelled
      · rw [spelled] at same
        exact plain (List.cons.inj same).1
      · rw [spelled] at same
        cases (List.cons.inj same).2

theorem tag_injective {first second : Platform} (same : first.tag = second.tag) :
    first = second := by
  obtain ⟨_⟩ := first
  obtain ⟨_⟩ := second
  rw [Platform.mk.injEq]
  exact same

theorem dirName_injective {first second : Platform} (same : first.dirName = second.dirName) :
    first = second := by
  have spelled (platform : Platform) : platform.dirName.toList =
      if platform.tag.toByteArray.data.toList.isEmpty then ['%']
      else platform.tag.toByteArray.data.toList.flatMap (spellByte
        !(platform.tag.toByteArray.data.toList.all (· == dot))) := by
    unfold dirName
    dsimp only
    split
    · decide
    · exact String.toList_ofList
  have bytes : first.tag.toByteArray.data.toList = second.tag.toByteArray.data.toList := by
    have chars := congrArg String.toList same
    rw [spelled, spelled] at chars
    split at chars
    · rename_i empty
      split at chars
      · rename_i other
        rw [List.isEmpty_iff.mp empty, List.isEmpty_iff.mp other]
      · exact absurd chars.symm (spelled_ne_empty _ _)
    · split at chars
      · exact absurd chars (spelled_ne_empty _ _)
      · exact spelled_injective chars
  exact tag_injective (String.toByteArray_inj.mp (ByteArray.ext (Array.toList_inj.mp bytes)))

theorem dirName_speaks (platform : Platform) : ∃ c ∈ platform.dirName.toList, c ≠ '.' := by
  unfold dirName
  dsimp only
  split
  · exact ⟨'%', by decide, by decide⟩
  · rename_i filled
    generalize platform.tag.toByteArray.data.toList = bytes at filled
    have loud : ∃ b ∈ bytes, b ≠ dot ∨ (!bytes.all (· == dot)) = false := by
      cases dots : bytes.all (· == dot) with
      | true =>
          obtain ⟨b, rest, rfl⟩ := List.exists_cons_of_ne_nil (by simpa using filled)
          exact ⟨b, List.mem_cons_self, Or.inr rfl⟩
      | false =>
          obtain ⟨b, member, other⟩ := List.all_eq_false.mp dots
          exact ⟨b, member, Or.inl (by simpa using other)⟩
    obtain ⟨b, member, speaks⟩ := loud
    obtain ⟨c, spelled, notDot⟩ := spellByte_speaks speaks
    rw [String.toList_ofList]
    exact ⟨c, List.mem_flatMap.mpr ⟨b, member, spelled⟩, notDot⟩

theorem dirName_whole (platform : Platform) : '/' ∉ platform.dirName.toList := by
  unfold dirName
  dsimp only
  split
  · decide
  · rw [String.toList_ofList]
    intro listed
    obtain ⟨b, -, spelled⟩ := List.mem_flatMap.mp listed
    exact spellByte_whole _ b spelled

theorem isProper_dirName (platform : Platform) : IsProper platform.dirName := by
  obtain ⟨c, listed, notDot⟩ := platform.dirName_speaks
  refine ⟨⟨List.ne_nil_of_mem listed, platform.dirName_whole⟩, ?_, ?_⟩
  · intro same
    rw [same] at listed
    exact notDot (by simpa using listed)
  · intro same
    rw [same] at listed
    exact notDot (by simpa using listed)

end Platform

theorem stagingBase_eq {workdir : RealPath} {settings : Settings}
    (proper : ∀ name ∈ workdir, IsProper name) (accepted : settings.Accepted workdir) :
    ∃ names, (∀ name ∈ names, IsProper name) ∧ settings.stagingBase = Path.ofReal names ∧
      ∀ platform, settings.stagingRoot platform = Path.ofReal (names ++ [platform.dirName]) := by
  obtain ⟨path, base⟩ := accepted.baseAbsolute
  have inside := path.spelled_proper proper
  refine ⟨path.spelled workdir, inside, base, fun platform => ?_⟩
  rw [Settings.stagingRoot, base, Path.absolutize]
  exact Path.ofReal_div_name (segments_of_proper inside) platform.isProper_dirName.toIsSegment

theorem stagingRoot_eq {workdir : RealPath} {settings : Settings}
    (proper : ∀ name ∈ workdir, IsProper name) (accepted : settings.Accepted workdir)
    (platform : Platform) : ∃ names, (∀ name ∈ names ++ [platform.dirName], IsProper name) ∧
      settings.stagingRoot platform = Path.ofReal (names ++ [platform.dirName]) := by
  obtain ⟨names, inside, -, roots⟩ := stagingBase_eq proper accepted
  exact ⟨names, proper_append_one inside platform.isProper_dirName, roots platform⟩

end PlatformBundle
