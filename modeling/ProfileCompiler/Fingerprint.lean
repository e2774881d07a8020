import ProfileCompiler.Digest.Sha256
import ProfileCompiler.Json.Writer
import ProfileCompiler.Members

/-!
# Fingerprints of profile lists

The fingerprint of a list of active profiles is the start of the SHA-256 digest of the list's
JSON text.  It names the compiled map of that list, so the order of the profiles matters.  A list
that cannot be written has no fingerprint.
-/

namespace ProfileCompiler

namespace Fingerprint

/-- The text that is digested. -/
def source? (profiles : List Value) : Option (List Char) := Json.write? (.list profiles)

/-- The bytes of a source.  It is ASCII, so each character is one byte. -/
def message (source : List Char) : List UInt8 := source.map fun c => UInt8.ofNat c.toNat

/-- The number of hexadecimal digits in a fingerprint. -/
def size : Nat := 16

/-- The fingerprint that a source makes. -/
def ofSource (source : List Char) : String :=
  String.ofList ((Sha256.hexDigits (Sha256.digest (message source))).take size)

/-- The fingerprint of a list of profiles. -/
def ofList? (profiles : List Value) : Option String := (source? profiles).map ofSource

/-- The fingerprint of the members of a value. -/
def ofValue (v : Value) : Except Fault String := do
  let profiles ← v.members
  Text.written .overlongNumber (ofList? profiles)

end Fingerprint

end ProfileCompiler
