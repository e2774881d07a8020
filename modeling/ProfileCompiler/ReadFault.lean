/-!
# What can be wrong with a file
-/

namespace ProfileCompiler

/-- Why a file cannot be read. -/
inductive ReadFault where
  /-- The bytes are no UTF-8 text. -/
  | undecodable
  /-- The path leads to a directory. -/
  | isDirectory
  /-- The file must not be opened. -/
  | sealed
  /-- The path leads nowhere. -/
  | absent
  /-- The path goes on below a file. -/
  | notDirectory
  /-- The path or a name in it is too long. -/
  | overlongPath
  /-- A null character is in the path. -/
  | nullInPath
  /-- The text is no JSON value. -/
  | badJson
  /-- The text is no YAML document of plain values. -/
  | badYaml
  /-- A number has no digits or too many of them, or is too large for a character. -/
  | badNumber
  /-- A number is so large that nothing can be made of it. -/
  | beyondRange
  /-- Nothing is written where a number is announced. -/
  | noNumber
  /-- A word stands for no truth value where one is announced. -/
  | noTruth (word : String)
deriving DecidableEq, Repr

namespace ReadFault

/-- Whether a file with the fault is passed over when documents are looked for.  The other
faults end the search. -/
def isPassedOver : ReadFault → Bool
  | .beyondRange | .noNumber | .noTruth _ => false
  | _ => true

end ReadFault

end ProfileCompiler
