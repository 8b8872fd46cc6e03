import CloudId.SafeMethods
import CloudId.TemplateMap
import CloudId.Persistence

/-! What the provisioning endpoints are for, without files. Three records are kept: the
templates, the assignments of hosts to templates, and the installations that were reported as
completed. A request reads or changes them in one step; which template a host gets is decided
by them and by what the host's own record and the configuration say. -/
namespace CloudId

/-! ## Records -/

structure ServiceRecords where
  templates : TemplateMap := ∅
  assignments : String → Option Assignment := fun _ => none
  completed : String → Option String := fun _ => none

/-- All templates, in ascending order of image type and name. -/
structure TemplateMap.Lists (held : TemplateMap) (listed : List TemplateSummary) : Prop where
  sorted : listed.Pairwise fun first second => first.imageType < second.imageType ∨
    first.imageType = second.imageType ∧ first.name < second.name
  members : ∀ summary, summary ∈ listed ↔ ∃ entry,
    held.lookup (summary.imageType, summary.name) = some entry ∧
      summary.mode = entry.found.mode ∧
      summary.format = TemplateFormat.fromFilename summary.name

/-- All templates, once each. -/
structure TemplateMap.Bundles (held : TemplateMap) (bundle : TemplateBundle) : Prop where
  distinct : (bundle.templates.map fun entry => (entry.imageType, entry.name)).Nodup
  members : ∀ entry, entry ∈ bundle.templates ↔ ∃ kept,
    held.lookup (entry.imageType, entry.name) = some kept ∧
      entry.mode = kept.found.mode ∧ entry.content = kept.content ∧
      entry.format = TemplateFormat.fromFilename entry.name

namespace ServiceRecords

/-- The template a host refers to: that of its own record, else that of its assignment, else
that of the configuration. -/
def reference (records : ServiceRecords) (config : TemplatesConfig) (hostname : String)
    (bmh : Option BareMetalHost) : Option (String × String) :=
  ((bmh.bind fun bmh => bmh.templateField.map fun tpl => parseTemplateRef tpl bmh).or
    ((records.assignments hostname).map fun assignment =>
      (assignment.imageType, assignment.template))).or
    ((configAssignment config hostname).map fun rule => parseConfigTemplateRef rule.template)

/-- The template a host gets: none once it has completed. -/
def chosen (records : ServiceRecords) (config : TemplatesConfig) (hostname : String)
    (bmh : Option BareMetalHost) : Option LoadedTemplate :=
  if (records.completed hostname).isSome then none
  else (records.reference config hostname bmh).bind fun key => records.templates.get key.1 key.2

/-- The records with another assignment of a host, or with none. -/
def assign (records : ServiceRecords) (hostname : String) (value : Option Assignment) : ServiceRecords :=
  { records with assignments := Function.update records.assignments hostname value }

/-- The records with another completion of a host, or with none. -/
def complete (records : ServiceRecords) (hostname : String) (value : Option String) : ServiceRecords :=
  { records with completed := Function.update records.completed hostname value }

theorem assign_none (records : ServiceRecords) {hostname : String}
    (absent : records.assignments hostname = none) : records.assign hostname none = records := by
  rw [assign, ← absent, Function.update_eq_self]

theorem complete_none (records : ServiceRecords) {hostname : String}
    (absent : records.completed hostname = none) : records.complete hostname none = records := by
  rw [complete, ← absent, Function.update_eq_self]

section Configs

variable [Serialize CloudConfig] [Serialize Json] [Deserialize Json]

/-- The config of a host: its template with its values, or the default of the endpoint. -/
def configFor (records : ServiceRecords) (app : AppState) (contentType : String)
    (build : HostMetadata → Option BareMetalHost → Except Panic String) (ip : IpAddr) :
    Except Panic Response :=
  match app.resolveOnDemand ip with
  | none => .ok (.status .notFound)
  | some metadata =>
    let bmh := app.getBmh metadata.localHostname
    match records.chosen app.config.templates metadata.localHostname bmh with
    | some loaded =>
      (renderTemplate app.config.metadata metadata loaded).map fun content =>
        .config loaded.format.asContentType content (some loaded)
    | none => (build metadata bmh).map fun content => .config contentType content none

variable [Serialize IgnitionConfig]

/-- What a request does to the records and what it answers, with the hosts that the shared
state knows. -/
inductive Step (app : AppState) : ServiceRecords → Request → Except Panic Response → ServiceRecords → Prop where
  | ignitionConfig (records : ServiceRecords) (ip : IpAddr) :
    Step app records (.ignitionConfig ip)
      (records.configFor app "application/json" buildIgnition ip) records
  | kickstartConfig (records : ServiceRecords) (ip : IpAddr) :
    Step app records (.kickstartConfig ip)
      (records.configFor app "text/plain" (fun metadata bmh => .ok (buildKickstart metadata bmh)) ip)
      records
  | userData (records : ServiceRecords) (ip : IpAddr) :
    Step app records (.userData ip)
      (records.configFor app "application/json" buildIgnition ip) records
  | templatesList {records : ServiceRecords} {listed : List TemplateSummary}
      (lists : records.templates.Lists listed) :
    Step app records .templatesList (.ok (.templates listed)) records
  | templatesListByType {records : ServiceRecords} {listed : List TemplateSummary} (imageType : String)
      (lists : records.templates.Lists listed) :
    Step app records (.templatesListByType imageType)
      (.ok (.templates (listed.filter fun summary => summary.imageType = imageType))) records
  | templatesGet (records : ServiceRecords) (imageType name : String) :
    Step app records (.templatesGet imageType name)
      (.ok (match records.templates.get imageType name with
        | some loaded => .template loaded
        | none => .status .notFound)) records
  | templatesPut (records : ServiceRecords) (imageType name : String) (req : TemplateCreateRequest)
      (created updated : Nat) :
    Step app records (.templatesPut imageType name req)
      (.ok (.template (TemplateMap.load imageType name
        (records.templates.putEntry (imageType, name) req created updated))))
      { records with templates := records.templates.put (imageType, name) req created updated }
  | templatesDelete (records : ServiceRecords) (imageType name : String) :
    Step app records (.templatesDelete imageType name)
      (.ok (.status (if (records.templates.lookup (imageType, name)).isSome then .noContent
        else .notFound)))
      { records with templates := records.templates.erase (imageType, name) }
  | templatesBackup {records : ServiceRecords} {bundle : TemplateBundle}
      (bundles : records.templates.Bundles bundle) :
    Step app records .templatesBackup (.ok (.bundle bundle)) records
  | templatesRestore {records : ServiceRecords} {templates : TemplateMap} (bundle : TemplateBundle)
      (puts : TemplateMap.Restores records.templates bundle.templates templates) :
    Step app records (.templatesRestore bundle) (.ok (.restored bundle.templates.length))
      { records with templates }
  | assignmentsList {records : ServiceRecords} {file : AssignmentsFile}
      (lists : file.assignments.lookup = records.assignments) :
    Step app records .assignmentsList (.ok (.assignments file)) records
  | assignmentsPut (records : ServiceRecords) (hostname : String) (req : AssignmentRequest) :
    Step app records (.assignmentsPut hostname req) (.ok (.status .ok))
      (records.assign hostname (some { imageType := req.imageType, template := req.template }))
  | assignmentsDelete (records : ServiceRecords) (hostname : String) :
    Step app records (.assignmentsDelete hostname)
      (.ok (.status (if (records.assignments hostname).isSome then .noContent else .notFound)))
      (records.assign hostname none)
  | oneshotList {records : ServiceRecords} {state : OneshotState}
      (lists : state.completed.lookup = records.completed) :
    Step app records .oneshotList (.ok (.oneshot state)) records
  | oneshotUnknown (records : ServiceRecords) {ip : IpAddr}
      (unknown : app.bmh.ipToHostname.lookup ip = none) :
    Step app records (.oneshotProvisioned ip) (.ok (.status .notFound)) records
  | oneshotProvisioned (records : ServiceRecords) {ip : IpAddr} {hostname : String}
      (known : app.bmh.ipToHostname.lookup ip = some hostname) (timestamp : Nat) :
    Step app records (.oneshotProvisioned ip) (.ok (.status .ok))
      (records.complete hostname (some (toString timestamp)))
  | oneshotDelete (records : ServiceRecords) (hostname : String) :
    Step app records (.oneshotDelete hostname)
      (.ok (.status (if (records.completed hostname).isSome then .noContent else .notFound)))
      (records.complete hostname none)

end Configs

end ServiceRecords

/-! ## Names -/

section Plain

variable [Serialize CloudConfig]

/-- If there is metadata for the address, the template that its host refers to has a plain
name. -/
def PlainReference (app : AppState) (ip : IpAddr) : Prop :=
  ∀ metadata, app.resolveOnDemand ip = some metadata → ∀ imageType name,
    resolveTemplateRef app metadata.localHostname (app.getBmh metadata.localHostname) =
      some (imageType, name) → PlainKey imageType name

/-- The names of a request are plain. -/
def Request.Plain (app : AppState) : Request → Prop
  | .ignitionConfig ip | .kickstartConfig ip | .userData ip => PlainReference app ip
  | .templatesListByType imageType => FileSystem.Ordinary imageType
  | .templatesGet imageType name | .templatesDelete imageType name => PlainKey imageType name
  | .templatesPut imageType name _ => EntryKey imageType name
  | .templatesRestore bundle => ∀ entry ∈ bundle.templates, EntryKey entry.imageType entry.name
  | _ => True

end Plain

end CloudId
