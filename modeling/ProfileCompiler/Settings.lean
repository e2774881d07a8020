import ProfileCompiler.Complaint
import ProfileCompiler.Json.Reader

/-!
# Settings

Settings are given by keywords and by environment variables.  A keyword counts before a
variable, and a field given by neither has a default.  The names of keywords and variables are
compared without regard to case.  A list in a variable is written as JSON.
-/

namespace ProfileCompiler

/-- The settings of an application. -/
structure Settings where
  appName : String
  debug : Bool
  logLevel : String
  dataDir : Option String
  modulePaths : List String
  auxPaths : List String
  loadPaths : List String
  enforcementMode : String
  enforcementKey : String
deriving Repr, Inhabited

/-- Why settings cannot be read. -/
inductive SettingsFault where
  /-- A variable that holds a list is no JSON text. -/
  | unreadableList
  | complaints (cs : List Complaint)
deriving Repr

namespace Settings

/-- The settings when nothing is given. -/
def standard : Settings where
  appName := "Compliance Engine"
  debug := false
  logLevel := "INFO"
  dataDir := none
  modulePaths := []
  auxPaths := []
  loadPaths := ["SIMP/compliance_profiles", "simp/compliance_profiles"]
  enforcementMode := "value"
  enforcementKey := "compliance_markup::enforcement"

/-- The directories that take the place of the search roots, if any are given. -/
def dataDirs (s : Settings) : Option (List String) :=
  s.dataDir.map fun dirs =>
    ((Text.pieces (· == ':') dirs.toList).filter fun dir => !dir.isEmpty).map String.ofList

/-- The name under which the data directories are given first of all. -/
def dataDirName : String := "HIERA_compliance_data_dir"

/-- The other name under which the data directories are given. -/
def dataDirOtherName : String := "compliance_data_dir"

/-- The names of the fields that hold lists. -/
def listNames : List String := ["module_paths", "aux_paths", "load_paths"]

/-- The names of the fields that hold one value and have one name. -/
def plainNames : List String :=
  ["app_name", "debug", "log_level", "enforcement_mode", "enforcement_key"]

/-- The words for false and for true, in small letters. -/
def falseWords : List String := ["0", "off", "f", "false", "n", "no"]

@[inherit_doc falseWords]
def trueWords : List String := ["1", "on", "t", "true", "y", "yes"]

/-- The truth value of an integer: one or zero. -/
def truthOfInt (n : Int) : Reading Bool :=
  if n = 0 then .ok false else if n = 1 then .ok true else Reading.flawed .unclearBoolean

/-- A truth value: a boolean, a word for one, or a number that is one or zero. -/
def truth (v : Value) : Reading Bool :=
  match v with
  | .scalar (.bool b) => .ok b
  | .scalar (.text s) =>
    let word := String.ofList (Text.lower s.toList)
    if falseWords.contains word then .ok false
    else if trueWords.contains word then .ok true
    else Reading.flawed .unclearBoolean
  | .scalar (.int n) =>
    if -Int.pow 2 63 ≤ n ∧ n < Int.pow 2 63 then truthOfInt n else Reading.flawed .notBoolean
  | .scalar (.float x) =>
    match x.quantity with
    | .finite q =>
      if q.den = 1 ∧ -Int.pow 2 63 < q.num ∧ q.num < Int.pow 2 63 then truthOfInt q.num
      else Reading.flawed .notBoolean
    | .infinite _ => Reading.flawed .notBoolean
  | _ => Reading.flawed .notBoolean

/-- Whether two names are the same but for letter case. -/
def sameName (a b : String) : Bool := Text.small a.toList == Text.small b.toList

/-- The first of the given names that is present, with its value. -/
def firstGiven {α : Type} (names : List String) (get? : String → Option α) : Option α :=
  (names.filterMap get?).head?

/-- The value of the first keyword of a name. -/
def keywordNamed? (keywords : Entries) (name : String) : Option Value :=
  (keywords.find? fun e => e.1.text?.any (sameName name)).map Prod.snd

/-- The fields that the keywords give. -/
def fromKeywords (keywords : Entries) : Entries :=
  let others := (plainNames ++ listNames).filterMap fun name =>
    (keywordNamed? keywords name).map fun v => (Scalar.text name, v)
  match firstGiven [dataDirName, dataDirOtherName] (keywordNamed? keywords) with
  | some v => (.text dataDirName, v) :: others
  | none => others

/-- The name under which complaints about the data directories are made: the name by which
keywords give them, letter for letter, if they do. -/
def dataDirPlace (keywords : Entries) : String :=
  ([dataDirName, dataDirOtherName].find? fun name => keywords.has (.text name)).getD dataDirName

/-- The value of the last variable of a name. -/
def variableNamed? (vars : List (String × String)) (name : String) : Option String :=
  (vars.reverse.find? fun e => sameName e.1 name).map Prod.snd

/-- The list fields that the variables give.  A null gives nothing. -/
def listsFromVariables (vars : List (String × String)) :
    List String → Except SettingsFault Entries
  | [] => .ok []
  | name :: rest =>
    match variableNamed? vars name with
    | none => listsFromVariables vars rest
    | some s =>
      match Json.read? s.toList with
      | none => .error .unreadableList
      | some (.scalar .null) => listsFromVariables vars rest
      | some v => (listsFromVariables vars rest).map ((.text name, v) :: ·)

/-- The fields that the variables give. -/
def fromVariables (vars : List (String × String)) : Except SettingsFault Entries := do
  let lists ← listsFromVariables vars listNames
  let plain := plainNames.filterMap fun name =>
    (variableNamed? vars name).map fun s => (Scalar.text name, Value.text s)
  match firstGiven [dataDirName, dataDirOtherName] (variableNamed? vars) with
  | some s => .ok ((.text dataDirName, .text s) :: (plain ++ lists))
  | none => .ok (plain ++ lists)

/-- The settings that fields make, all fields that are wrong being complained about in the
order of the fields.  Complaints about the data directories are made under the given name. -/
def ofFields (place : String) (fields : Entries) : Reading Settings :=
  let field {α : Type} (name : String) (default : α) (read : Value → Reading α) : Reading α :=
    Reading.defaulted name default read fields
  let texts := Reading.list Reading.text
  let application :=
    Reading.both (field "app_name" standard.appName Reading.text)
      (Reading.both (field "debug" standard.debug truth)
        (field "log_level" standard.logLevel Reading.text))
  let paths :=
    Reading.both
      (match fields.get? (.text dataDirName) with
        | some v => Reading.under place (Reading.optionalText v)
        | none => .ok standard.dataDir)
      (Reading.both (field "module_paths" standard.modulePaths texts)
        (Reading.both (field "aux_paths" standard.auxPaths texts)
          (field "load_paths" standard.loadPaths texts)))
  let enforcement :=
    Reading.both (field "enforcement_mode" standard.enforcementMode Reading.text)
      (field "enforcement_key" standard.enforcementKey Reading.text)
  (Reading.both application (Reading.both paths enforcement)).map
    fun ((appName, debug, logLevel), (dataDir, modulePaths, auxPaths, loadPaths), mode, key) =>
      { appName := appName, debug := debug, logLevel := logLevel, dataDir := dataDir,
        modulePaths := modulePaths, auxPaths := auxPaths, loadPaths := loadPaths,
        enforcementMode := mode, enforcementKey := key }

/-- The settings that keywords and variables make. -/
def ofSources (keywords : Entries) (vars : List (String × String)) :
    Except SettingsFault Settings := do
  let given ← fromVariables vars
  (ofFields (dataDirPlace keywords) (fromKeywords keywords ++ given)).mapError .complaints

end Settings

end ProfileCompiler
