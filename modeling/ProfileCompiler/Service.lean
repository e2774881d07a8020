import ProfileCompiler.Files.Discovery
import ProfileCompiler.Journal.Setup
import ProfileCompiler.Service.Request
import ProfileCompiler.Service.Target
import ProfileCompiler.Session.Enforcement

/-!
# The lookup service

The service answers two requests: whether it is up, and the value of a key on a host that the
request describes.  Each lookup is a session of its own.  The service also has pages for people
who want to know about it.

* `Service.start` starts the service, `Service.respond` answers one request.
* `Service.run` answers requests up to the first whose response cannot be read.
-/

namespace ProfileCompiler

namespace Service

/-- What a response says. -/
inductive Content where
  | value (v : Value)
  | complaints (cs : List Complaint)
  /-- Nothing, or a page for people. -/
  | page
deriving Repr

/-- A response. -/
structure Response where
  status : Nat
  content : Content
deriving Repr

/-- Why a request gets no response. -/
inductive RequestFault where
  /-- The target is no address. -/
  | badTarget
  /-- The body has a number in it that cannot be sent. -/
  | unsendable
  /-- The response has an integer in it with too many digits. -/
  | overlongNumber
  /-- The directories of documents cannot be looked into. -/
  | unsearchable (fault : ReadFault)
deriving DecidableEq, Repr

/-- Why the service does not start. -/
inductive StartFault where
  /-- The application has no name. -/
  | nameless
  /-- The journal cannot be set up. -/
  | journal (fault : JournalFault)
deriving DecidableEq, Repr

/-- What the service works with. -/
structure Equipment where
  settings : Settings
  documents : Except ReadFault (Told (List (String × Value)))

/-- What settings and a file system make the service work with. -/
def Equipment.of (settings : Settings) (fs : FileSystem) : Equipment where
  settings := settings
  documents := (SearchPath.ofSettings fs settings).map (SearchPath.discover Content.parsers fs)

/-- A response that gives the reason for a refusal. -/
def refusal (status : Nat) (reason : String) : Response :=
  ⟨status, .value (.ofTexts [("detail", .text reason)])⟩

/-! ## Values in responses -/

/-- The key of a JSON object that a key becomes. -/
def memberName? : Scalar → Option String
  | .null => some "None"
  | .bool b => some (if b then "true" else "false")
  | k => k.plain?

mutual

/-- The value as it is answered, if all its integers can be written: with texts as the keys of all
its mappings, and with null for infinite numbers. -/
def answered? : Value → Option Value
  | .scalar s => if isInfinite s then some .null else s.plain?.map fun _ => .scalar s
  | .list items => (answeredItems? items).map Value.list
  | .mapping entries => (answeredEntries? entries).map fun es => .mapping (Table.ofList es)

/-- The items as they are answered. -/
def answeredItems? : List Value → Option (List Value)
  | [] => some []
  | v :: rest => do
    let v ← answered? v
    let rest ← answeredItems? rest
    some (v :: rest)

/-- The entries as they are answered. -/
def answeredEntries? : List (Scalar × Value) → Option (List (Scalar × Value))
  | [] => some []
  | (k, v) :: rest => do
    let name ← memberName? k
    let v ← answered? v
    let rest ← answeredEntries? rest
    some ((.text name, v) :: rest)

end

/-! ## Lookups -/

/-- The site that a lookup request describes.  The profiles of the request stand under the
enforcement key, whatever else is given there. -/
def siteOf (settings : Settings) (r : LookupRequest) : Site where
  values := r.values.put (.text settings.enforcementKey) (.list (r.profiles.map .text))
  facts := r.facts
  modules := .list (r.modules.map ModuleInfo.toValue)

/-- The mode of a lookup request; an empty one counts as none. -/
def modeOf (settings : Settings) (r : LookupRequest) : String :=
  match r.mode with
  | some mode => if mode = "" then settings.enforcementMode else mode
  | none => settings.enforcementMode

/-- The answer to a lookup request, and the notes left. -/
def lookup (settings : Settings) (documents : Told (List (String × Value))) (r : LookupRequest) :
    Except RequestFault Response × List Note :=
  let env : Environment :=
    { host := (siteOf settings r).toHost, documents := documents,
      enforcementKey := settings.enforcementKey, mode := .text (modeOf settings r) }
  let (answer, session) := Session.enforce env .never r.key .fresh
  match answer with
  | some v =>
    let response (v : Value) : Response :=
      let fields := [("key", .text r.key), ("found", .bool true), ("value", v)]
      ⟨200, .value (.ofTexts fields)⟩
    ((Text.written .overlongNumber (answered? v)).map response, session.notes)
  | none => (.ok (refusal 404 ("No enforced value for key: " ++ r.key)), session.notes)

/-! ## Routes -/

/-- What a path leads to. -/
inductive Endpoint where
  | health
  | lookup
  | page
deriving DecidableEq, Repr

namespace Endpoint

/-- The method that an endpoint answers. -/
def method : Endpoint → String
  | .health | .page => "GET"
  | .lookup => "POST"

end Endpoint

/-- The paths of the service. -/
def routes : List (String × Endpoint) :=
  [("/health", .health), ("/compliance/lookup", .lookup), ("/docs", .page),
    ("/docs/oauth2-redirect", .page), ("/redoc", .page), ("/openapi.json", .page)]

/-- What a path leads to.  A line end at the end of the path counts for nothing. -/
def endpoint? (path : String) : Option Endpoint :=
  (routes.find? fun route => path == route.1 || path == route.1 ++ "\n").map Prod.snd

/-- The path without the slashes at its end. -/
def withoutSlashes (path : String) : String :=
  String.ofList (path.toList.reverse.dropWhile (· == '/')).reverse

/-- Whether a path leads somewhere but for the slashes at its end.  Such a request is sent on
without them. -/
def isRedirected (path : String) : Bool :=
  path.toList.getLast? == some '/' && (endpoint? (withoutSlashes path)).isSome

/-- The method whose responses have no content. -/
def contentless : String := "HEAD"

/-- The response of an endpoint to a body, and the notes left. -/
def serve (e : Equipment) (body : Option Value) :
    Endpoint → Except RequestFault Response × List Note
  | .page => (.ok ⟨200, .page⟩, [])
  | .health =>
    let fields := [("status", .text "ok"), ("app", .text e.settings.appName)]
    (.ok ⟨200, .value (.ofTexts fields)⟩, [])
  | .lookup =>
    match readBody body, e.documents with
    | .ok request, .ok documents => lookup e.settings documents request
    | .ok _, .error fault => (.error (.unsearchable fault), [])
    | .error cs, _ => (.ok ⟨422, .complaints cs⟩, [])

/-- The response at a path, and the notes left. -/
def respondAt (e : Equipment) (method path : String) (body : Option Value) :
    Except RequestFault Response × List Note :=
  match endpoint? path with
  | some endpoint =>
    if method = endpoint.method then serve e body endpoint
    else (.ok (refusal 405 "Method Not Allowed"), [])
  | none => (.ok (if isRedirected path then ⟨307, .page⟩ else refusal 404 "Not Found"), [])

/-- The response to a request, and the notes left. -/
def respond (e : Equipment) (r : Request) : Except RequestFault Response × List Note :=
  let method := String.ofList (r.method.toList.map Char.toUpper)
  match Target.path? r.target, r.body.mapM sent? with
  | none, _ => (.error .badTarget, [])
  | some _, none => (.error .unsendable, [])
  | some path, some body =>
    let (response, notes) := respondAt e method path body
    (if method = contentless then response.map fun r => { r with content := .page } else response,
      notes)

/-! ## Runs -/

/-- The notes as the service starts. -/
def start (s : Settings) : Except StartFault (List Note) := do
  if s.appName = "" then throw .nameless
  let _ ← (Journal.setUp s.logLevel false).mapError .journal
  .ok [.starting s.appName, .dataDirectories s.dataDirs]

/-- Whether a client that expects a value or complaints can read a response. -/
def isReadable : Except RequestFault Response → Bool
  | .ok r =>
    match r.content with
    | .value _ | .complaints _ => true
    | .page => false
  | .error _ => false

/-- What comes of requests, up to the first with no response that can be read, and the notes
left, also as the service ends. -/
def run (e : Equipment) : List Request → List (Except RequestFault Response) × List Note
  | [] => ([], [.ending])
  | r :: rest =>
    let (response, notes) := respond e r
    if isReadable response then
      let (more, moreNotes) := run e rest
      (response :: more, notes ++ moreNotes)
    else ([response], notes ++ [.ending])

end Service

end ProfileCompiler
