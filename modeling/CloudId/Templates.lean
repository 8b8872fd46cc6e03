import Mathlib.Data.List.Sort
import CloudId.Library.FileSystem
import CloudId.Library.Json

/-! `templates.rs`: the template store on the data volume, the assignment and
oneshot files next to it, and variable substitution. Every file access goes
through `FileSystem`, so a store call runs under any pattern of failures. -/
namespace CloudId
open FileSystem

/-- Detected format of a template file. -/
inductive TemplateFormat where
  | ignition
  | kickstart
  | cloudConfig
  deriving DecidableEq

/-- `TemplateFormat::from_filename`. -/
def TemplateFormat.fromFilename (name : String) : TemplateFormat :=
  if Text.endsWith name ".ign.json" then .ignition
  else if Text.endsWith name ".ks" then .kickstart
  else .cloudConfig

/-- `TemplateFormat::as_content_type`. -/
def TemplateFormat.asContentType : TemplateFormat → String
  | .ignition => "application/json"
  | .kickstart => "text/plain"
  | .cloudConfig => "text/yaml"

/-- Template execution mode. -/
inductive TemplateMode where
  /-- First boot only, then reverts to local disk boot. -/
  | oneshot
  /-- Served on every boot. -/
  | forever
  deriving DecidableEq

instance : Inhabited TemplateMode where
  default := .forever

/-- A loaded template with metadata and content. -/
structure LoadedTemplate where
  imageType : String
  name : String
  format : TemplateFormat
  mode : TemplateMode
  content : String
  createdAt : String
  updatedAt : String
  deriving DecidableEq

/-- Summary entry for listing templates. -/
structure TemplateSummary where
  imageType : String
  name : String
  format : TemplateFormat
  mode : TemplateMode
  deriving DecidableEq

/-- Host-to-template assignment. -/
structure Assignment where
  imageType : String
  template : String
  deriving DecidableEq

/-- Assignments file stored on the data volume. -/
structure AssignmentsFile where
  assignments : HashMap String Assignment := ∅

/-- Oneshot completion state: hostname to completion timestamp. -/
structure OneshotState where
  completed : HashMap String String := ∅

/-- A single template entry in a backup bundle. -/
structure BundleEntry where
  imageType : String
  name : String
  format : TemplateFormat
  mode : TemplateMode
  content : String
  deriving DecidableEq

/-- Backup/restore bundle. -/
structure TemplateBundle where
  version : Nat
  exportedAt : String
  templates : List BundleEntry
  deriving DecidableEq

/-- Request body for creating or updating a template. -/
structure TemplateCreateRequest where
  mode : TemplateMode := default
  content : String
  deriving DecidableEq

/-- Request body for assigning a template to a host. -/
structure AssignmentRequest where
  imageType : String
  template : String
  deriving DecidableEq

/-- The metadata file stored alongside each template. -/
structure TemplateMeta where
  mode : TemplateMode
  createdAt : String
  updatedAt : String
  deriving DecidableEq

/-! ## Timestamps -/

/-- `days_to_ymd`: days since the epoch as year, month and day. -/
def daysToYmd (days : Nat) : Nat × Nat × Nat :=
  let z := days + 719468
  let era := z / 146097
  let doe := z - era * 146097
  let yoe := (doe - doe / 1460 + doe / 36524 - doe / 146096) / 365
  let y := yoe + era * 400
  let doy := doe - (365 * yoe + yoe / 4 - yoe / 100)
  let mp := (5 * doy + 2) / 153
  let d := doy - (153 * mp + 2) / 5 + 1
  let m := if mp < 10 then mp + 3 else mp - 9
  let y := if m ≤ 2 then y + 1 else y
  (y, m, d)

/-- The ISO 8601 text of a number of seconds since the epoch. -/
def utcTimestamp (secs : Nat) : String :=
  let days := secs / 86400
  let timeSecs := secs % 86400
  let hours := timeSecs / 3600
  let minutes := timeSecs % 3600 / 60
  let seconds := timeSecs % 60
  let (year, month, day) := daysToYmd days
  Text.paddedDecimal 4 year ++ "-" ++ Text.paddedDecimal 2 month ++ "-" ++
    Text.paddedDecimal 2 day ++ "T" ++ Text.paddedDecimal 2 hours ++ ":" ++
    Text.paddedDecimal 2 minutes ++ ":" ++ Text.paddedDecimal 2 seconds ++ "Z"

/-- `now_utc`. -/
def nowUtc : FileM String := return utcTimestamp (← now)

/-! ## The store -/

/-- Template store backed by the data volume. -/
structure TemplateStore where
  dataDir : String
  deriving DecidableEq

namespace TemplateStore

def templatesDir (store : TemplateStore) : String := join store.dataDir "templates"

def assignmentsPath (store : TemplateStore) : String := join store.dataDir "assignments.json"

def oneshotPath (store : TemplateStore) : String := join store.dataDir "oneshot.json"

def templatePath (store : TemplateStore) (imageType name : String) : String :=
  join (join store.templatesDir imageType) name

def metaPath (store : TemplateStore) (imageType name : String) : String :=
  join (join store.templatesDir imageType) (name ++ ".meta.json")

/-- Creates a directory that does not exist yet. -/
def ensureDir (path : String) : FileM Unit := do
  if !(← fileExists path) then createDirAll path

/-- `init`: ensures the base directories at start-up. -/
def init (store : TemplateStore) : FileM Unit := do
  ensureDir store.dataDir
  ensureDir store.templatesDir

section Meta

variable [Deserialize TemplateMeta]

/-- `read_meta`: absent when the file cannot be read or parsed. -/
def readMeta (store : TemplateStore) (imageType name : String) : FileM (Option TemplateMeta) := do
  match ← attempt (readToString (store.metaPath imageType name)) with
  | .ok data => return Deserialize.fromStr data
  | .error _ => return none

/-- The summaries of the files of one image type, metadata files skipped. -/
def summaries (store : TemplateStore) (imageType : String) :
    List (String × Bool) → FileM (List TemplateSummary)
  | [] => return []
  | (fname, _) :: files => do
    if Text.endsWith fname ".meta.json" then summaries store imageType files
    else
      let found ← store.readMeta imageType fname
      let mode := (found.map TemplateMeta.mode).getD default
      let summary :=
        { imageType, name := fname, format := TemplateFormat.fromFilename fname, mode }
      return summary :: (← summaries store imageType files)

/-- The summaries below each directory of the template tree. -/
def allSummaries (store : TemplateStore) : List (String × Bool) → FileM (List TemplateSummary)
  | [] => return []
  | (imageType, isDir) :: entries => do
    if isDir then
      let files ← readDir (join store.templatesDir imageType)
      let summaries ← store.summaries imageType files
      return summaries ++ (← allSummaries store entries)
    else allSummaries store entries

/-- `list_all`: all templates across all image types. -/
def listAll (store : TemplateStore) : FileM (List TemplateSummary) := do
  if !(← fileExists store.templatesDir) then return []
  let imageTypes ← readDir store.templatesDir
  let result ← store.allSummaries imageTypes
  return result.insertionSort fun a b =>
    a.imageType < b.imageType ∨ (a.imageType = b.imageType ∧ a.name ≤ b.name)

/-- `list_by_type`: the templates of one image type. -/
def listByType (store : TemplateStore) (imageType : String) : FileM (List TemplateSummary) := do
  let typeDir := join store.templatesDir imageType
  if !(← fileExists typeDir) then return []
  let files ← readDir typeDir
  let result ← store.summaries imageType files
  return result.insertionSort fun a b => a.name ≤ b.name

/-- The first of the candidate names that exists. -/
def firstExisting (store : TemplateStore) (imageType : String) :
    List String → FileM (Option String)
  | [] => return none
  | candidate :: rest => do
    if ← fileExists (store.templatePath imageType candidate) then return some candidate
    firstExisting store imageType rest

/-- `get`: the template of that name, or of that name with a known extension. -/
def get (store : TemplateStore) (imageType name : String) : FileM (Option LoadedTemplate) := do
  match ← store.firstExisting imageType
      [name, name ++ ".ign.json", name ++ ".ks", name ++ ".yaml"] with
  | none => return none
  | some resolved =>
    let content ← readToString (store.templatePath imageType resolved)
    let found ← match ← store.readMeta imageType resolved with
      | some found => pure found
      | none =>
        pure { mode := default, createdAt := ← nowUtc, updatedAt := ← nowUtc : TemplateMeta }
    return some {
      imageType
      name := resolved
      format := TemplateFormat.fromFilename resolved
      mode := found.mode
      content
      createdAt := found.createdAt
      updatedAt := found.updatedAt }

/-- `put`: creates or updates a template, keeping an existing creation time. -/
def put [Serialize TemplateMeta] (store : TemplateStore) (imageType name : String)
    (req : TemplateCreateRequest) : FileM LoadedTemplate := do
  createDirAll (join store.templatesDir imageType)
  let createdAt ← match ← store.readMeta imageType name with
    | some existing => pure existing.createdAt
    | none => nowUtc
  let updatedAt ← nowUtc
  let updated : TemplateMeta := { mode := req.mode, createdAt, updatedAt }
  write (store.templatePath imageType name) req.content.toUTF8
  write (store.metaPath imageType name) (Serialize.toStringPretty updated).toUTF8
  return {
    imageType
    name
    format := TemplateFormat.fromFilename name
    mode := req.mode
    content := req.content
    createdAt
    updatedAt }

/-- `delete`: false when there is no such template. -/
def delete (store : TemplateStore) (imageType name : String) : FileM Bool := do
  if !(← fileExists (store.templatePath imageType name)) then return false
  removeFile (store.templatePath imageType name)
  if ← fileExists (store.metaPath imageType name) then
    let _ ← attempt (removeFile (store.metaPath imageType name))
  return true

/-- The bundle entries of the listed templates that can still be loaded. -/
def exportEntries (store : TemplateStore) : List TemplateSummary → FileM (List BundleEntry)
  | [] => return []
  | summary :: rest => do
    match ← store.get summary.imageType summary.name with
    | some template =>
      let entry : BundleEntry :=
        { imageType := template.imageType, name := template.name, format := template.format
          mode := template.mode, content := template.content }
      return entry :: (← exportEntries store rest)
    | none => exportEntries store rest

/-- `backup`: all templates as a bundle. -/
def backup (store : TemplateStore) : FileM TemplateBundle := do
  let listed ← store.listAll
  let templates ← store.exportEntries listed
  return { version := 1, exportedAt := ← nowUtc, templates }

/-- Puts the entries of a bundle in turn. -/
def importEntries [Serialize TemplateMeta] (store : TemplateStore) :
    List BundleEntry → FileM Nat
  | [] => return 0
  | entry :: rest => do
    let _ ← store.put entry.imageType entry.name { mode := entry.mode, content := entry.content }
    return (← importEntries store rest) + 1

/-- `restore`: overwrites templates of the same name. -/
def restore [Serialize TemplateMeta] (store : TemplateStore) (bundle : TemplateBundle) :
    FileM Nat :=
  store.importEntries bundle.templates

end Meta

/-- `load_assignments`: the default when the file cannot be read or parsed. -/
def loadAssignments [Deserialize AssignmentsFile] (store : TemplateStore) :
    FileM AssignmentsFile := do
  match ← attempt (readToString store.assignmentsPath) with
  | .ok data => return (Deserialize.fromStr data).getD {}
  | .error _ => return {}

/-- `save_assignments`. -/
def saveAssignments [Serialize AssignmentsFile] (store : TemplateStore)
    (assignments : AssignmentsFile) : FileM Unit :=
  write store.assignmentsPath (Serialize.toStringPretty assignments).toUTF8

/-- `load_oneshot`: the default when the file cannot be read or parsed. -/
def loadOneshot [Deserialize OneshotState] (store : TemplateStore) : FileM OneshotState := do
  match ← attempt (readToString store.oneshotPath) with
  | .ok data => return (Deserialize.fromStr data).getD {}
  | .error _ => return {}

/-- `save_oneshot`. -/
def saveOneshot [Serialize OneshotState] (store : TemplateStore) (state : OneshotState) :
    FileM Unit :=
  write store.oneshotPath (Serialize.toStringPretty state).toUTF8

end TemplateStore

/-! ## Substitution -/

/-- The characters that `url_encode` and `url_encode_simple` escape. -/
def urlEncodeChar (c : Char) : List Char :=
  if c = ' ' then ['%', '2', '0']
  else if c = '%' then ['%', '2', '5']
  else if c = '\n' then ['%', '0', 'A']
  else if c = '\r' then ['%', '0', 'D']
  else if c = '#' then ['%', '2', '3']
  else [c]

/-- `url_encode_simple`. -/
def urlEncodeSimple (s : String) : String := String.ofList (s.toList.flatMap urlEncodeChar)

/-- `substitute_variables`. -/
def substituteVariables (content hostname ip instanceId availabilityZone domainSuffix
    templateName : String) : String :=
  let shortHostname :=
    Text.trimEndMatches ((Text.stripSuffix hostname domainSuffix).getD hostname) '.'
  let encodedHostname := urlEncodeSimple hostname
  let content := Text.replace content "\x7b\x7bHOSTNAME\x7d\x7d" hostname
  let content := Text.replace content "\x7b\x7bSHORT_HOSTNAME\x7d\x7d" shortHostname
  let content := Text.replace content "\x7b\x7bIP\x7d\x7d" ip
  let content := Text.replace content "\x7b\x7bINSTANCE_ID\x7d\x7d" instanceId
  let content := Text.replace content "\x7b\x7bAVAILABILITY_ZONE\x7d\x7d" availabilityZone
  let content := Text.replace content "\x7b\x7bHOSTNAME_ENCODED\x7d\x7d" encodedHostname
  let content := Text.replace content "\x7b\x7bDOMAIN_SUFFIX\x7d\x7d" domainSuffix
  Text.replace content "\x7b\x7bTEMPLATE_NAME\x7d\x7d" templateName

/-! ## Text forms -/

/-- The name of a mode in the files. -/
def TemplateMode.text : TemplateMode → String
  | .oneshot => "oneshot"
  | .forever => "forever"

/-- What `derive(Serialize)` makes of a metadata file. -/
def TemplateMeta.serialize (found : TemplateMeta) : Json :=
  .object [("mode", .string found.mode.text), ("created_at", .string found.createdAt),
    ("updated_at", .string found.updatedAt)]

/-- What `derive(Serialize)` makes of the assignments file. -/
def AssignmentsFile.serialize (file : AssignmentsFile) : Json :=
  .object [("assignments", .object ((HashMap.toList file.assignments).map fun entry =>
    (entry.1, .object [("image_type", .string entry.2.imageType),
      ("template", .string entry.2.template)])))]

/-- What `derive(Serialize)` makes of the oneshot file. -/
def OneshotState.serialize (state : OneshotState) : Json :=
  .object [("completed", .object ((HashMap.toList state.completed).map fun entry =>
    (entry.1, .string entry.2)))]

/-- The text codecs of the three files with the layout of `Json.pretty`. -/
@[reducible] def templateMetaText : Serialize TemplateMeta where
  toStringPretty found := found.serialize.pretty 0

@[reducible] def assignmentsText : Serialize AssignmentsFile where
  toStringPretty file := file.serialize.pretty 0

@[reducible] def oneshotText : Serialize OneshotState where
  toStringPretty state := state.serialize.pretty 0

/-- Reads a metadata file in that layout, whose strings need no escapes. -/
def TemplateMeta.read (text : String) : Option TemplateMeta :=
  match (text.toList.splitOn '"').map String.ofList with
  | [_, "mode", _, mode, _, "created_at", _, createdAt, _, "updated_at", _, updatedAt, _] =>
    if mode = "oneshot" then some { mode := .oneshot, createdAt, updatedAt }
    else if mode = "forever" then some { mode := .forever, createdAt, updatedAt }
    else none
  | _ => none

@[reducible] def templateMetaReader : Deserialize TemplateMeta where
  fromStr := TemplateMeta.read

end CloudId
