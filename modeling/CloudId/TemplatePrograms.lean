import CloudId.Library.FilePrograms
import CloudId.StoreFiles

/-! The operations of the template store as programs of file commands. Each program runs
as the operation does; as a program it also says which places the operation touches, and
operations can take turns. -/
namespace CloudId
open FileSystem Effects

/-- The clock reading of a program. -/
def nowUtcProgram : Program String := do return utcTimestamp (← Program.now)

namespace TemplateStore

section Meta

variable [Deserialize TemplateMeta]

def readMetaProgram (store : TemplateStore) (imageType name : String) :
    Program (Option TemplateMeta) := do
  match ← (Program.readToString (store.metaPath imageType name)).attempt with
  | .ok data => return Deserialize.fromStr data
  | .error _ => return none

def summariesProgram (store : TemplateStore) (imageType : String) :
    List (String × Bool) → Program (List TemplateSummary)
  | [] => return []
  | (fname, _) :: files => do
    if Text.endsWith fname ".meta.json" then summariesProgram store imageType files
    else
      let found ← store.readMetaProgram imageType fname
      let mode := (found.map TemplateMeta.mode).getD default
      let summary :=
        { imageType, name := fname, format := TemplateFormat.fromFilename fname, mode }
      return summary :: (← summariesProgram store imageType files)

def listByTypeProgram (store : TemplateStore) (imageType : String) :
    Program (List TemplateSummary) := do
  let typeDir := join store.templatesDir imageType
  if !(← Program.fileExists typeDir) then return []
  let files ← Program.readDir typeDir
  let result ← store.summariesProgram imageType files
  return result.insertionSort fun a b => a.name ≤ b.name

def firstExistingProgram (store : TemplateStore) (imageType : String) :
    List String → Program (Option String)
  | [] => return none
  | candidate :: rest => do
    if ← Program.fileExists (store.templatePath imageType candidate) then return some candidate
    firstExistingProgram store imageType rest

/-- What `get` does with the name that it has found. -/
def loadProgram (store : TemplateStore) (imageType resolved : String) :
    Program (Option LoadedTemplate) := do
  let content ← Program.readToString (store.templatePath imageType resolved)
  let found ← match ← store.readMetaProgram imageType resolved with
    | some found => pure found
    | none =>
      pure { mode := default, createdAt := ← nowUtcProgram, updatedAt := ← nowUtcProgram : TemplateMeta }
  return some {
    imageType
    name := resolved
    format := TemplateFormat.fromFilename resolved
    mode := found.mode
    content
    createdAt := found.createdAt
    updatedAt := found.updatedAt }

def getProgram (store : TemplateStore) (imageType name : String) :
    Program (Option LoadedTemplate) := do
  match ← store.firstExistingProgram imageType
      [name, name ++ ".ign.json", name ++ ".ks", name ++ ".yaml"] with
  | none => return none
  | some resolved => store.loadProgram imageType resolved

/-- The writes of a `put`. -/
def saveProgram [Serialize TemplateMeta] (store : TemplateStore) (imageType name : String)
    (req : TemplateCreateRequest) (createdAt : String) : Program LoadedTemplate := do
  let updatedAt ← nowUtcProgram
  let updated : TemplateMeta := { mode := req.mode, createdAt, updatedAt }
  Program.write (store.templatePath imageType name) req.content.toUTF8
  Program.write (store.metaPath imageType name) (Serialize.toStringPretty updated).toUTF8
  return {
    imageType
    name
    format := TemplateFormat.fromFilename name
    mode := req.mode
    content := req.content
    createdAt
    updatedAt }

def putProgram [Serialize TemplateMeta] (store : TemplateStore) (imageType name : String)
    (req : TemplateCreateRequest) : Program LoadedTemplate := do
  Program.createDirAll (join store.templatesDir imageType)
  let createdAt ← match ← store.readMetaProgram imageType name with
    | some existing => pure existing.createdAt
    | none => nowUtcProgram
  store.saveProgram imageType name req createdAt

def deleteProgram (store : TemplateStore) (imageType name : String) : Program Bool := do
  if !(← Program.fileExists (store.templatePath imageType name)) then return false
  Program.removeFile (store.templatePath imageType name)
  if ← Program.fileExists (store.metaPath imageType name) then
    let _ ← (Program.removeFile (store.metaPath imageType name)).attempt
  return true

def importProgram [Serialize TemplateMeta] (store : TemplateStore) :
    List BundleEntry → Program Nat
  | [] => return 0
  | entry :: rest => do
    let _ ← store.putProgram entry.imageType entry.name
      { mode := entry.mode, content := entry.content }
    return (← importProgram store rest) + 1

def restoreProgram [Serialize TemplateMeta] (store : TemplateStore) (bundle : TemplateBundle) :
    Program Nat :=
  store.importProgram bundle.templates

/-! ### They run as the operations do -/

open Program

omit [Deserialize TemplateMeta] in
@[simp] theorem run_now_utc : nowUtcProgram.run = nowUtc := by
  rw [nowUtcProgram, run_bind, run_now]
  rfl

@[simp] theorem run_read_meta (store : TemplateStore) (imageType name : String) :
    (store.readMetaProgram imageType name).run = store.readMeta imageType name := by
  rw [readMetaProgram, readMeta, run_bind, run_attempt, run_read_to_string]
  congr 1
  funext result
  cases result with
  | ok data => rfl
  | error error => rfl

@[simp] theorem run_summaries (store : TemplateStore) (imageType : String)
    (files : List (String × Bool)) :
    (store.summariesProgram imageType files).run = store.summaries imageType files := by
  induction files with
  | nil => rfl
  | cons entry files step =>
    obtain ⟨fname, kind⟩ := entry
    rw [summariesProgram, summaries]
    split
    · exact step
    · rw [run_bind, run_read_meta]
      congr 1
      funext found
      rw [run_bind, step]
      rfl

@[simp] theorem run_list_by_type (store : TemplateStore) (imageType : String) :
    (store.listByTypeProgram imageType).run = store.listByType imageType := by
  rw [listByTypeProgram, listByType, run_bind, run_file_exists]
  congr 1
  funext there
  cases there with
  | false => rfl
  | true =>
    rw [Bool.not_true, if_neg Bool.false_ne_true, if_neg Bool.false_ne_true, run_bind, run_read_dir]
    congr 1
    funext files
    rw [run_bind, run_summaries]
    rfl

omit [Deserialize TemplateMeta] in
@[simp] theorem run_first_existing (store : TemplateStore) (imageType : String)
    (names : List String) :
    (store.firstExistingProgram imageType names).run = store.firstExisting imageType names := by
  induction names with
  | nil => rfl
  | cons candidate rest step =>
    rw [firstExistingProgram, firstExisting, run_bind, run_file_exists]
    congr 1
    funext there
    cases there with
    | true => rfl
    | false => exact step

@[simp] theorem run_get (store : TemplateStore) (imageType name : String) :
    (store.getProgram imageType name).run = store.get imageType name := by
  rw [getProgram, get, run_bind, run_first_existing]
  congr 1
  funext found
  cases found with
  | none => rfl
  | some resolved =>
    dsimp only
    rw [loadProgram, run_bind, run_read_to_string]
    congr 1
    funext content
    rw [run_bind, run_read_meta]
    congr 1
    funext found
    cases found with
    | some found => rfl
    | none =>
      dsimp only
      rw [run_bind, run_now_utc]
      congr 1

@[simp] theorem run_put [Serialize TemplateMeta] (store : TemplateStore) (imageType name : String)
    (req : TemplateCreateRequest) :
    (store.putProgram imageType name req).run = store.put imageType name req := by
  have saved : ∀ createdAt, (store.saveProgram imageType name req createdAt).run = (do
      let updatedAt ← nowUtc
      let updated : TemplateMeta := { mode := req.mode, createdAt, updatedAt }
      FileSystem.write (store.templatePath imageType name) req.content.toUTF8
      FileSystem.write (store.metaPath imageType name) (Serialize.toStringPretty updated).toUTF8
      return {
        imageType
        name
        format := TemplateFormat.fromFilename name
        mode := req.mode
        content := req.content
        createdAt
        updatedAt } : FileM LoadedTemplate) := by
    intro createdAt
    rw [saveProgram, run_bind, run_now_utc]
    congr 1
    funext updatedAt
    rw [run_bind, run_write]
    congr 1
    funext _
    rw [run_bind, run_write]
    rfl
  rw [putProgram, put, run_bind, run_create_dir_all]
  congr 1
  funext _
  rw [run_bind, run_read_meta]
  congr 1
  funext existing
  cases existing with
  | some found =>
    rw [run_bind]
    congr 1
    funext createdAt
    exact saved createdAt
  | none =>
    rw [run_bind, run_now_utc]
    congr 1
    funext createdAt
    exact saved createdAt

omit [Deserialize TemplateMeta] in
@[simp] theorem run_delete (store : TemplateStore) (imageType name : String) :
    (store.deleteProgram imageType name).run = store.delete imageType name := by
  rw [deleteProgram, delete, run_bind, run_file_exists]
  congr 1
  funext there
  cases there with
  | false => rfl
  | true =>
    rw [Bool.not_true, if_neg Bool.false_ne_true, if_neg Bool.false_ne_true, run_bind,
      run_remove_file]
    congr 1
    funext _
    rw [run_bind, run_file_exists]
    congr 1
    funext meta_there
    cases meta_there with
    | false => rfl
    | true =>
      rw [if_pos rfl, if_pos rfl, run_bind, run_attempt, run_remove_file]
      rfl

theorem run_import [Serialize TemplateMeta] (store : TemplateStore) (entries : List BundleEntry) :
    (store.importProgram entries).run = store.importEntries entries := by
  induction entries with
  | nil => rfl
  | cons entry rest step =>
    rw [importProgram, importEntries, run_bind, run_put]
    congr 1
    funext _
    rw [run_bind, step]
    rfl

theorem run_restore [Serialize TemplateMeta] (store : TemplateStore) (bundle : TemplateBundle) :
    (store.restoreProgram bundle).run = store.restore bundle :=
  run_import store bundle.templates

end Meta

end TemplateStore

end CloudId
