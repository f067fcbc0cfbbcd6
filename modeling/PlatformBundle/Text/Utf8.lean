/-!
Reading bytes as UTF-8 text when some of them may be wrong. A sequence that breaks off, or a byte
that no sequence can begin with, is read as one replacement character, and reading goes on with
the next byte. A newline byte always stands for itself, so a stream can be cut at its newlines and
read piece by piece: `decodeFrom_newline`.
-/

namespace PlatformBundle.Text

def replacement : Char := '\uFFFD'

/-- A sequence under way: the bytes still missing, the bits read, and the range of the next byte. -/
structure Pending where
  missing : Nat
  bits : Nat
  low : UInt8
  high : UInt8

-- The second byte's range keeps out overlong forms, surrogates and values past the last character.
def lead (b : UInt8) : Option Pending :=
  if 0xC2 ≤ b && b ≤ 0xDF then some ⟨1, b.toNat % 32, 0x80, 0xBF⟩
  else if b == 0xE0 then some ⟨2, 0, 0xA0, 0xBF⟩
  else if b == 0xED then some ⟨2, 13, 0x80, 0x9F⟩
  else if 0xE1 ≤ b && b ≤ 0xEF then some ⟨2, b.toNat % 16, 0x80, 0xBF⟩
  else if b == 0xF0 then some ⟨3, 0, 0x90, 0xBF⟩
  else if 0xF1 ≤ b && b ≤ 0xF3 then some ⟨3, b.toNat % 8, 0x80, 0xBF⟩
  else if b == 0xF4 then some ⟨3, 4, 0x80, 0x8F⟩
  else none

def beginSequence (b : UInt8) : List Char × Option Pending :=
  if b < 0x80 then ([Char.ofNat b.toNat], none)
  else match lead b with
    | some pending => ([], some pending)
    | none => ([replacement], none)

def accept (state : Option Pending) (b : UInt8) : List Char × Option Pending :=
  match state with
  | none => beginSequence b
  | some pending =>
      if pending.low ≤ b && b ≤ pending.high then
        let bits := pending.bits * 64 + b.toNat % 64
        if pending.missing ≤ 1 then ([Char.ofNat bits], none)
        else ([], some ⟨pending.missing - 1, bits, 0x80, 0xBF⟩)
      else
        let (out, next) := beginSequence b
        (replacement :: out, next)

def decodeFrom : Option Pending → List UInt8 → List Char
  | none, [] => []
  | some _, [] => [replacement]
  | state, b :: rest =>
      let (out, next) := accept state b
      out ++ decodeFrom next rest

def decodeLossy (bytes : List UInt8) : List Char := decodeFrom none bytes

def Pending.Continues (pending : Pending) : Prop := 0x80 ≤ pending.low

theorem lead_continues (b : UInt8) (pending : Pending) (found : lead b = some pending) :
    pending.Continues := by
  unfold lead at found
  repeat' split at found
  all_goals cases found
  all_goals simp [Pending.Continues]

theorem accept_continues (state : Option Pending) (b : UInt8) (pending : Pending)
    (found : (accept state b).2 = some pending) : pending.Continues := by
  have begun : ∀ next, (beginSequence b).2 = some next → next.Continues := by
    intro next h
    unfold beginSequence at h
    split at h
    · simp at h
    · split at h
      · rename_i next' eq
        simp only [Option.some.injEq] at h
        exact h ▸ lead_continues b next' eq
      · simp at h
  cases state with
  | none => exact begun pending found
  | some p =>
      simp only [accept] at found
      split at found
      · split at found
        · simp at found
        · simp only [Option.some.injEq] at found
          subst found
          simp [Pending.Continues]
      · exact begun pending found

theorem decodeFrom_newline (state : Option Pending) (before after : List UInt8)
    (continues : ∀ pending, state = some pending → pending.Continues) :
    decodeFrom state (before ++ 10 :: after) =
      decodeFrom state before ++ '\n' :: decodeFrom none after := by
  induction before generalizing state with
  | nil =>
      cases state with
      | none => simp [decodeFrom, accept, beginSequence]
      | some pending =>
          have low := continues pending rfl
          have outside : (pending.low ≤ (10 : UInt8) && (10 : UInt8) ≤ pending.high) = false := by
            have : ¬ pending.low ≤ (10 : UInt8) := by
              intro le
              have : (0x80 : UInt8) ≤ 10 := UInt8.le_trans low le
              exact absurd this (by decide)
            simp [this]
          simp [decodeFrom, accept, outside, beginSequence]
  | cons b rest ih =>
      have next := ih (accept state b).2 (fun pending h => accept_continues state b pending h)
      cases state <;> simp [decodeFrom, next]

theorem decodeLossy_newline (before after : List UInt8) :
    decodeLossy (before ++ 10 :: after) = decodeLossy before ++ '\n' :: decodeLossy after :=
  decodeFrom_newline none before after (by simp)

end PlatformBundle.Text
