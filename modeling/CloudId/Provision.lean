import CloudId.Cache
import CloudId.Ignition
import CloudId.Kickstart

/-! The template half of `provision.rs`: which template applies to a host, and
what is served from it. Request handling runs on the state of the service
together with its data volume, and may panic; what was changed before a panic
stays changed. -/
namespace CloudId
open FileSystem

/-- The service: its shared state, and its data volume with the environment. -/
structure Service where
  app : AppState
  disk : Disk

/-- The body of a request handler. -/
abbrev Handler := EStateM Panic Service

namespace Handler

/-- The shared state. -/
def app : Handler AppState := return (← get).app

/-- Changes the shared state. -/
def modifyApp (change : AppState → AppState) : Handler Unit :=
  modify fun service => { service with app := change service.app }

/-- A file operation, with its error as a value. -/
def io {α : Type} (op : FileM α) : Handler (Except FileError α) := fun service =>
  match op service.disk with
  | .ok value disk => .ok (.ok value) { service with disk }
  | .error error disk => .ok (.error error) { service with disk }

/-- A reading of the clock. -/
def clock : Handler Nat := fun service =>
  .ok (service.disk.clock service.disk.ticks)
    { service with disk := { service.disk with ticks := service.disk.ticks + 1 } }

/-- A computation that may panic. -/
def orPanic {α : Type} : Except Panic α → Handler α
  | .ok value => pure value
  | .error panic => throw panic

end Handler

/-! ## Template references -/

/-- `extract_image_type`: without a version, a last part that starts with a digit. -/
def extractImageType (image : String) : String :=
  match Text.splitLast image '-' with
  | some (before, after) => if (after.toList.head?.map Char.isDigit).getD false then before else image
  | none => image

/-- `parse_template_ref`: without a slash the image type comes from the host's image. -/
def parseTemplateRef (tplRef : String) (bmh : BareMetalHost) : String × String :=
  (Text.splitFirst tplRef '/').getD (extractImageType bmh.spec.image, tplRef)

/-- `parse_config_template_ref`. -/
def parseConfigTemplateRef (tplRef : String) : String × String :=
  (Text.splitFirst tplRef '/').getD ("default", tplRef)

/-- The template a bare metal host asks for, if it asks for one. -/
def BareMetalHost.templateField (bmh : BareMetalHost) : Option String :=
  bmh.spec.template.filter (· ≠ "")

/-- The first configured assignment that applies to a host. -/
def configAssignment (config : TemplatesConfig) (hostname : String) :
    Option TemplateAssignmentConfig :=
  config.assignments.find? fun rule => rule.hosts.any fun host => host = hostname ∨ host = "*"

/-- `resolve_template_ref`: the host's own field, then the assignment of the REST
API, then the configuration. -/
def resolveTemplateRef (state : AppState) (hostname : String) (bmh : Option BareMetalHost) :
    Option (String × String) :=
  match bmh.bind fun bmh => bmh.templateField.map fun tpl => parseTemplateRef tpl bmh with
  | some reference => some reference
  | none =>
    match state.assignments.assignments.lookup hostname with
    | some assignment => some (assignment.imageType, assignment.template)
    | none =>
      (configAssignment state.config.templates hostname).map fun rule =>
        parseConfigTemplateRef rule.template

/-! ## Rendering -/

/-- The template with the host's values in place of the variables. -/
def substituted (config : MetadataConfig) (metadata : HostMetadata) (loaded : LoadedTemplate) :
    String :=
  substituteVariables loaded.content metadata.hostname metadata.localIpv4 metadata.instanceId
    metadata.availabilityZone config.domainSuffix loaded.name

section Render

variable [Serialize Json] [Deserialize Json]

/-- The config that is served from a template. -/
def renderTemplate (config : MetadataConfig) (metadata : HostMetadata) (loaded : LoadedTemplate) :
    Except Panic String :=
  let content := substituted config metadata loaded
  match loaded.format with
  | .ignition =>
    match (Deserialize.fromStr content : Option Json) with
    | some base => mergeIgnition base metadata
    | none => .ok content
  | .kickstart => .ok (mergeKickstart content metadata)
  | .cloudConfig => .ok content

/-- Result of template resolution. A config comes with the template it is
rendered from, which the function logs. -/
inductive TemplateResult where
  | config (content : String) (format : TemplateFormat) (loaded : LoadedTemplate)
  | none

variable [Deserialize TemplateMeta]

/-- The template that a reference leads to; absent when it cannot be loaded. -/
def loadTemplate (store : TemplateStore) : Option (String × String) →
    Handler (Option LoadedTemplate)
  | some (imageType, name) => do
    match ← Handler.io (store.get imageType name) with
    | .ok found => return found
    | .error _ => return .none
  | none => return .none

/-- `resolve_and_build`. -/
def resolveAndBuild (hostname : String) (metadata : HostMetadata) (bmh : Option BareMetalHost) :
    Handler TemplateResult := do
  let state ← Handler.app
  if hostname ∈ state.oneshot.completed then return .none
  match ← loadTemplate state.templateStore (resolveTemplateRef state hostname bmh) with
  | some loaded =>
    let content ← Handler.orPanic (renderTemplate state.config.metadata metadata loaded)
    return .config content loaded.format loaded
  | none => return .none

end Render

end CloudId
