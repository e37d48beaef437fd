import LoadCoach.Configuration.Registrations

/-! # Editing the provider registrations

`services/providers.py`: `save_registration` and `delete_registration`, which edit the
`[providers.<name>]` tables of the configuration file in place.

An edit works on the document of the file and lands through `validated`: the candidate is written
beside the file, loaded, and put in its place.  The document editor is faithful, so that a file is
its document.

An edit touches one key of `[providers]`, after a singular block is folded in: `saveEdit_eq_ok`
and `deleteEdit_eq_ok` say what is written, and `write_eq_ok` what an accepted edit leaves
behind. -/

namespace LoadCoach.Configuration

open Foundations
open Foundations.Json

/-! ### The file -/

/-- The configuration file, the candidate beside it and the copy of the file before. -/
structure ConfigFiles where
  config : Option Members
  candidate : Option Members := none
  backup : Option Members := none

/-- A refused request. -/
def validationError (message : String) (details : Members) : Raised :=
  .suite "VALIDATION_ERROR" message details

/-- The keys of a registration this module will write. -/
def writableFields : List String :=
  ["kind", "enabled", "base_url", "timeout_seconds", "remote", "model_directory", "state_dir",
   "server_path"]

/-- `str` of a value of the file.  A value that is neither a string nor a number is refused where
it stands for one of these, whatever its text is. -/
def textOf : Json → String
  | .str s => s
  | .int n => toString n
  | .bool b => if b then "True" else "False"
  | value => value.typeName

variable (H : Host)

/-- The digest of the file as it stands, empty where there is none. -/
def configDigest : Option Members → String
  | none => ""
  | some document => H.digest document

/-- `_providers_table`: the rest of the document, and the `[providers]` table with the singular
block folded into it. -/
def providersTable (document : Members) : Except Raised (Members × Members) :=
  match (member? "providers" document).getD (.obj []) with
  | .obj providers =>
      match member? "provider" document with
      | none => .ok (document, providers)
      | some (.obj singular) =>
          let name := ((member? "kind" singular).map textOf).getD "ollama"
          .ok (popMember "provider" document,
            setMember name (.obj (popMember "fake" singular)) providers)
      | some _ => .error .unexpected
  | _ => .error .unexpected

/-- `_validated`: write the candidate, load it, and put it in place of the file. -/
def validated (path : String) (files : ConfigFiles) (document : Members) :
    Except Raised Unit × ConfigFiles :=
  match loadSettings H (path ++ ".new") (some document) with
  | .error e => (.error e, { files with candidate := none })
  | .ok _ =>
      (.ok (), { config := some document, candidate := none,
                 backup := files.config.or files.backup })

/-- `_write`: apply an edit to the document, refusing a stale base. -/
def write (path : String) (files : ConfigFiles) (baseDigest : Option String)
    (edit : Members → Except Raised Members) : Except Raised Unit × ConfigFiles :=
  if baseDigest.any fun digest => digest != configDigest H files.config then
    (.error (.suite "CONFLICT"
      (s!"{path} changed since this page was loaded; the write was refused so that an edit made " ++
        "elsewhere is not overwritten. Reload the page and apply the change again.")
      [("file", .str path)]), files)
  else
    match edit (files.config.getD []) with
    | .error e => (.error e, files)
    | .ok document => validated H path files document

/-! ### Saving -/

/-- One of the writable fields, written: an empty string removes the key. -/
def writeField (values table : Members) (key : String) : Members :=
  match member? key values with
  | none => table
  | some (.str "") => if key = "kind" then setMember key (.str "") table else popMember key table
  | some value => setMember key value table

/-- The table of a registration after a save. -/
def writeFields (values table : Members) : Members :=
  writableFields.foldl (writeField values) table

/-- `_refuse_a_server_that_cannot_launch`. -/
def refuseAServerThatCannotLaunch (name : String) (table : Members) : Except Raised Unit :=
  if ((member? "kind" table).map textOf).getD "" ≠ "llamacpp" then .ok ()
  else if strip (((member? "model_directory" table).map textOf).getD "") ≠ "" then .ok ()
  else
    .error (validationError
      (s!"providers.{name}.model_directory is required for kind='llamacpp': the server is " ++
        "launched over a directory of GGUF weights, and there is no default worth guessing.")
      [("field", .str "model_directory"), ("name", .str name)])

/-- Whether the editor takes a registration to be enabled. -/
def readsEnabled (providers : Members) (name : String) : Bool :=
  ((member? "enabled" (tableAt name providers)).getD (.bool true)).truthy

/-- `_refuse_disabling_the_last`. -/
def refuseDisablingTheLast (providers : Members) : Except Raised Unit :=
  let names := tableNames providers
  if names ≠ [] ∧ ¬ names.any (readsEnabled providers) then
    .error (validationError
      ("that would leave every provider registration disabled, and an application with no " ++
        "registered provider serves nothing. Enable another registration first.")
      [("field", .str "enabled"), ("registrations", .arr (names.map .str))])
  else .ok ()

/-- The edit of `save_registration`. -/
def saveEdit (name : String) (values document : Members) : Except Raised Members := do
  let (rest, providers) ← providersTable document
  match (member? name providers).getD (.obj []) with
  | .obj table =>
      let written := writeFields values table
      refuseAServerThatCannotLaunch name written
      let providers := setMember name (.obj written) providers
      refuseDisablingTheLast providers
      return setMember "providers" (.obj providers) rest
  | _ => throw .unexpected

/-- Letters, digits, hyphens and underscores, and one of the first two. -/
def isUsableName (name : String) : Bool :=
  let letters := name.toList.filter fun c => c != '_' && c != '-'
  !letters.isEmpty && letters.all H.isAlnum

/-- `save_registration`. -/
def saveRegistration (path : String) (files : ConfigFiles) (name : String) (values : Members)
    (baseDigest : Option String) : Except Raised Unit × ConfigFiles :=
  let refused := (((values.map Prod.fst).filter (· ∉ writableFields)).dedup).insertionSort (· ≤ ·)
  let registration :=
    values.foldl (fun table m => setMember m.1 m.2 table) [("kind", .str "ollama")]
  if !isUsableName H name then
    (.error (validationError
      (s!"'{name}' is not a usable registration name: letters, digits, hyphen and underscore, " ++
        "and not empty.")
      [("field", .str "name"), ("value", .str name)]), files)
  else if refused ≠ [] then
    let listed := ", ".intercalate refused
    let writable := ", ".intercalate writableFields
    (.error (validationError
      (s!"{listed} cannot be written here. A registration's writable keys are {writable}; " ++
        "`allow_remote` is the egress boundary and stays config-only (ADR-0117 decision 3).")
      [("refused", .arr (refused.map .str))]), files)
  else if (validateRegistration H.toPydantic registration).isNone then
    let (loc, msg) := H.firstError registration
    let joined := ".".intercalate loc
    let field := if joined = "" then "provider" else joined
    (.error (validationError s!"{field}: {msg}" [("field", .str field), ("name", .str name)]),
      files)
  else write H path files baseDigest (saveEdit name values)

/-! ### Deleting -/

/-- The edit of `delete_registration`. -/
def deleteEdit (name : String) (document : Members) : Except Raised Members := do
  let (rest, providers) ← providersTable document
  if member? name providers = none then
    throw (validationError s!"no provider registration named '{name}' is configured here."
      [("field", .str "name"), ("value", .str name)])
  if (tableNames providers).filter (· ≠ name) = [] then
    throw (validationError
      (s!"'{name}' is the only provider registration configured; removing it would leave this " ++
        "application with no provider at all. Add another one first.")
      [("field", .str "name"), ("value", .str name)])
  return setMember "providers" (.obj (popMember name providers)) rest

/-- `delete_registration`. -/
def deleteRegistration (path : String) (files : ConfigFiles) (name : String)
    (baseDigest : Option String) : Except Raised Unit × ConfigFiles :=
  write H path files baseDigest (deleteEdit name)

end LoadCoach.Configuration
