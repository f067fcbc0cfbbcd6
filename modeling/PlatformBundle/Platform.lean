/-!
Target platforms. A platform is a tag; the `os` and `server` families, bare or with a suffix after
a dot, are servers. Each platform has a staging directory of its own, because the name of the
directory spells the tag: every byte but ASCII letters, digits, `.`, `_` and `-` is written as `%`
and two hexadecimal digits.
-/

namespace PlatformBundle

structure Platform where
  tag : String
  deriving DecidableEq

structure Capabilities where
  /-- There is a browser-style global object. -/
  ambientGlobal : Bool
  /-- The runtime shows the sharing namespace to the entries by itself. -/
  linksSharedNamespace : Bool
  deriving DecidableEq

namespace Capabilities

def client : Capabilities := ⟨true, true⟩

def server : Capabilities := ⟨false, false⟩

/-- Servers of one architecture, whose runtime links the namespace. -/
def serverArch : Capabilities := ⟨false, true⟩

end Capabilities

namespace Platform

def serverFamilies : List String := ["os", "server"]

def inFamily (tag family : String) : Bool :=
  tag == family || (family.toList ++ ['.']).isPrefixOf tag.toList

def isServer (platform : Platform) : Bool := serverFamilies.any (inFamily platform.tag)

def defaultCapabilities (platform : Platform) : Capabilities :=
  if serverFamilies.contains platform.tag then .server
  else if platform.isServer then .serverArch
  else .client

def hexDigit (n : Nat) : Char := if n < 10 then Char.ofNat (48 + n) else Char.ofNat (55 + n)

def isPlainByte (b : UInt8) : Bool :=
  (48 ≤ b && b ≤ 57) || (65 ≤ b && b ≤ 90) || (97 ≤ b && b ≤ 122) || b == 95 || b == 45

def dot : UInt8 := 46

def spellByte (keepDots : Bool) (b : UInt8) : List Char :=
  if isPlainByte b || (b == dot && keepDots) then [Char.ofNat b.toNat]
  else ['%', hexDigit (b.toNat / 16), hexDigit (b.toNat % 16)]

/-- A tag of dots alone has them spelled out, and the empty tag is a lone `%`. -/
def dirName (platform : Platform) : String :=
  let bytes := platform.tag.toByteArray.data.toList
  if bytes.isEmpty then "%"
  else String.ofList (bytes.flatMap (spellByte !(bytes.all (· == dot))))

end Platform

end PlatformBundle
