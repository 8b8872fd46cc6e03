import CloudId.CacheProofs
import CloudId.IgnitionProofs
import CloudId.ServiceProofs
import CloudId.StoreFiles

/-! Oneshot completions over runs of requests: who has one, what that keeps from
being served, and what the mode of a template has to do with it. A completion is
recorded under the name that the bare metal hosts have for an address and looked
up under the name in the metadata of the request; the mode of a template is not
looked up at all. -/
namespace CloudId
open Effects FileSystem

/-! ## What requests leave alone -/

/-- The data that the watchers own, and the configuration. -/
structure SameData (before after : AppState) : Prop where
  identity : after.identity = before.identity
  bmh : after.bmh = before.bmh
  containers : after.containers = before.containers
  templateStore : after.templateStore = before.templateStore
  config : after.config = before.config

theorem SameData.refl (app : AppState) : SameData app app := ⟨rfl, rfl, rfl, rfl, rfl⟩

theorem SameData.trans {first second third : AppState} (before : SameData first second)
    (after : SameData second third) : SameData first third where
  identity := after.identity.trans before.identity
  bmh := after.bmh.trans before.bmh
  containers := after.containers.trans before.containers
  templateStore := after.templateStore.trans before.templateStore
  config := after.config.trans before.config

/-- The cache holds what a rebuild would put there. -/
def Cached [Serialize CloudConfig] (app : AppState) : Prop :=
  HashMap.Same app.metadataCache app.rebuildCache.metadataCache

/-- A request that records a completion of the host. -/
def Request.Completes (app : AppState) (hostname : String) (request : Request) : Prop :=
  ∃ ip, request = .oneshotProvisioned ip ∧ app.bmh.ipToHostname.lookup ip = some hostname

/-- The host has a completion that no reset came after: one that was there at the
start, or one recorded by a request. -/
def CompletedSinceReset (start : AppState) (hostname : String) (requests : List Request) : Prop :=
  (hostname ∈ start.oneshot.completed ∧ .oneshotDelete hostname ∉ requests) ∨
    ∃ before request after, requests = before ++ request :: after ∧
      request.Completes start hostname ∧ .oneshotDelete hostname ∉ after

/-- A completion after one more request. -/
theorem completed_since_reset_append (start : AppState) (hostname : String)
    (requests : List Request) (last : Request) :
    CompletedSinceReset start hostname (requests ++ [last]) ↔
      last.Completes start hostname ∨
        CompletedSinceReset start hostname requests ∧ last ≠ .oneshotDelete hostname := by
  constructor
  · rintro (⟨recorded, kept⟩ | ⟨before, request, after, split, completes, kept⟩)
    · rw [List.mem_append, List.mem_singleton, not_or] at kept
      exact Or.inr ⟨Or.inl ⟨recorded, kept.1⟩, Ne.symm kept.2⟩
    · rcases List.eq_nil_or_concat after with rfl | ⟨middle, final, rfl⟩
      · obtain ⟨-, same⟩ := List.append_inj' split rfl
        obtain rfl := List.singleton_inj.mp same
        exact Or.inl completes
      · rw [List.concat_eq_append, ← List.cons_append, ← List.append_assoc] at split
        obtain ⟨rfl, same⟩ := List.append_inj' split rfl
        obtain rfl := List.singleton_inj.mp same
        rw [List.concat_eq_append, List.mem_append, List.mem_singleton, not_or] at kept
        exact Or.inr ⟨Or.inr ⟨before, request, middle, rfl, completes, kept.1⟩, Ne.symm kept.2⟩
  · rintro (completes | ⟨recorded | ⟨before, request, after, rfl, completes, kept⟩, other⟩)
    · exact Or.inr ⟨requests, last, [], rfl, completes, List.not_mem_nil⟩
    · refine Or.inl ⟨recorded.1, ?_⟩
      rw [List.mem_append, List.mem_singleton, not_or]
      exact ⟨recorded.2, Ne.symm other⟩
    · refine Or.inr ⟨before, request, after ++ [last], by simp, completes, ?_⟩
      rw [List.mem_append, List.mem_singleton, not_or]
      exact ⟨kept, Ne.symm other⟩

section Requests

variable [Serialize CloudConfig]

theorem effect_same_data (timestamp : String) (request : Request) (app : AppState) :
    SameData app (request.effect timestamp app) := by
  cases request with
  | assignmentsDelete hostname => rw [Request.effect]; split <;> exact ⟨rfl, rfl, rfl, rfl, rfl⟩
  | oneshotProvisioned ip => rw [Request.effect]; split <;> exact ⟨rfl, rfl, rfl, rfl, rfl⟩
  | oneshotDelete hostname => rw [Request.effect]; split <;> exact ⟨rfl, rfl, rfl, rfl, rfl⟩
  | _ => exact ⟨rfl, rfl, rfl, rfl, rfl⟩

theorem effect_cached {app : AppState} (cached : Cached app) (timestamp : String)
    (request : Request) : Cached (request.effect timestamp app) := by
  cases request with
  | assignmentsDelete hostname => rw [Request.effect]; split <;> exact cached
  | oneshotProvisioned ip => rw [Request.effect]; split <;> exact cached
  | oneshotDelete hostname => rw [Request.effect]; split <;> exact cached
  | rebuildCache => exact fun _ => rfl
  | _ => exact cached

/-- The completions after a request. -/
theorem effect_completed_iff (timestamp hostname : String) (request : Request) (app : AppState) :
    hostname ∈ (request.effect timestamp app).oneshot.completed ↔
      request.Completes app hostname ∨
        hostname ∈ app.oneshot.completed ∧ request ≠ .oneshotDelete hostname := by
  cases request with
  | oneshotProvisioned ip =>
    rw [Request.effect]
    split
    · rename_i known named
      simp [Request.Completes, named, AList.mem_insert, eq_comm]
    · rename_i unknown
      simp [Request.Completes, unknown]
  | oneshotDelete other =>
    rw [Request.effect]
    split
    · simp [Request.Completes, AList.mem_erase, and_comm, eq_comm]
    · rename_i absent
      simp only [Request.Completes, reduceCtorEq, false_and, exists_false, false_or, ne_eq,
        Request.oneshotDelete.injEq]
      refine ⟨fun held => ⟨held, ?_⟩, And.left⟩
      rintro rfl
      exact absent held
  | assignmentsDelete other =>
    rw [Request.effect]
    split <;> simp [Request.Completes]
  | _ => simp [Request.Completes, Request.effect, AppState.rebuildCache]

end Requests

section Runs

variable [Serialize CloudConfig] [Serialize Json] [Deserialize Json] [Serialize IgnitionConfig]
  [Serialize TemplateMeta] [Deserialize TemplateMeta] [Serialize AssignmentsFile]
  [Serialize OneshotState]

theorem run_append (service : Service) (requests : List Request) (last : Request) :
    service.run (requests ++ [last]) = (service.run requests).after last := by
  simp [Service.run, List.foldl_append]

theorem run_same_data (service : Service) (requests : List Request) :
    SameData service.app (service.run requests).app := by
  induction requests using List.reverseRecOn with
  | nil => exact .refl _
  | append_singleton requests last step =>
    rw [run_append, after_app]
    exact step.trans (effect_same_data _ last _)

theorem run_cached {service : Service} (cached : Cached service.app) (requests : List Request) :
    Cached (service.run requests).app := by
  induction requests using List.reverseRecOn with
  | nil => exact cached
  | append_singleton requests last step =>
    rw [run_append, after_app]
    exact effect_cached step _ last

/-- **The completions after a run are those that no reset came after**, however
the file operations of the run end. -/
theorem run_completed_iff (start : Service) (hostname : String) (requests : List Request) :
    hostname ∈ (start.run requests).app.oneshot.completed ↔
      CompletedSinceReset start.app hostname requests := by
  induction requests using List.reverseRecOn with
  | nil => simp [Service.run, CompletedSinceReset]
  | append_singleton requests last step =>
    have same := (run_same_data start requests).bmh
    have completes : last.Completes (start.run requests).app hostname ↔
        last.Completes start.app hostname := by
      rw [Request.Completes, Request.Completes, same]
    rw [run_append, after_app, effect_completed_iff, completed_since_reset_append, completes, step]

end Runs

/-! ## Serving -/

section Serving

variable [Serialize Json] [Deserialize Json] [Deserialize TemplateMeta]

/-- The template a config was rendered from. -/
def Response.loaded : Response → Option LoadedTemplate
  | .config _ _ loaded => loaded
  | _ => none

/-- No template is built for a host with a completion. -/
theorem resolve_and_build_config {hostname : String} {metadata : HostMetadata}
    {bmh : Option BareMetalHost} {service after : Service}
    (built : resolveAndBuild hostname metadata bmh service =
      .ok (.config content format loaded) after) :
    hostname ∉ service.app.oneshot.completed := by
  intro completed
  rw [resolveAndBuild] at built
  obtain ⟨app, next, ⟨⟩, built⟩ := bind_eq_ok.mp built
  rw [if_pos completed] at built
  cases built

/-- A config from a template goes to a host that resolves, under a name without
a completion. -/
theorem serve_config_loaded [Serialize CloudConfig] {ip : IpAddr} {service after : Service}
    {build : HostMetadata → Option BareMetalHost → Except Panic String}
    (served : serveConfig contentType build ip service = .ok response after)
    (rendered : response.loaded = some loaded) :
    ∃ metadata, service.app.resolveOnDemand ip = some metadata ∧
      metadata.localHostname ∉ service.app.oneshot.completed := by
  rw [serveConfig] at served
  obtain ⟨app, next, ⟨⟩, served⟩ := bind_eq_ok.mp served
  cases resolved : service.app.resolveOnDemand ip with
  | none =>
    rw [resolved] at served
    cases served
    cases rendered
  | some metadata =>
    rw [resolved] at served
    obtain ⟨result, next, built, served⟩ := bind_eq_ok.mp served
    cases result with
    | config content format template =>
      exact ⟨metadata, rfl, resolve_and_build_config built⟩
    | none =>
      obtain ⟨content, last, -, ⟨⟩⟩ := bind_eq_ok.mp served
      cases rendered

end Serving

/-! ## A completed host -/

/-- The request asks for a provisioning config, from this address. -/
def Request.asksFrom : Request → Option IpAddr
  | .ignitionConfig ip => some ip
  | .kickstartConfig ip => some ip
  | .userData ip => some ip
  | _ => none

/-- The config comes from a oneshot template. -/
def Response.ServesOneshot (response : Response) : Prop :=
  ∃ loaded, response.loaded = some loaded ∧ loaded.mode = .oneshot

instance (response : Response) : Decidable response.ServesOneshot :=
  decidable_of_iff (response.loaded.any fun loaded => loaded.mode = .oneshot)
    (by simp [Response.ServesOneshot, Option.any_eq_true])

/-- A container at the address of a bare metal host, if its owner is an active
user with keys, has the name of that host. -/
def NamesAgree (app : AppState) (ip : IpAddr) : Prop :=
  ∀ hostname info owner user, app.bmh.ipToHostname.lookup ip = some hostname →
    app.containers.ipToContainer.lookup ip = some info →
    app.containers.namespaceOwners.lookup info.«namespace» = some owner →
    ActiveUser app.identity owner user → user.userKeys ≠ [] → info.hostname = hostname

section Metadata

variable [Serialize CloudConfig]

theorem bmh_metadata_name {identity : IdentityState} {bmh : BmhState} {config : MetadataConfig}
    (found : bmhMetadata identity bmh config ip hostname = some metadata) :
    metadata.localHostname = hostname := by
  rw [bmhMetadata, resolve_host_eq] at found
  split at found
  · cases found
  · cases found
    rfl

theorem resolve_container_name {identity : IdentityState} {config : MetadataConfig}
    (found : resolveContainer ip info owner identity config = some metadata) :
    metadata.localHostname = info.hostname := by
  rw [resolve_container_eq, Option.map_eq_some_iff] at found
  obtain ⟨user, _, rfl⟩ := found
  rfl

theorem container_metadata_name {app : AppState} (agree : NamesAgree app ip)
    (known : app.bmh.ipToHostname.lookup ip = some hostname)
    (listed : app.containers.ipToContainer.lookup ip = some info)
    (found : containerMetadata app.identity app.containers app.config.metadata ip info =
      some metadata) : metadata.localHostname = hostname := by
  rw [containerMetadata] at found
  split at found
  · rename_i owner owned
    obtain ⟨user, active, keys⟩ := (resolve_container_isSome_iff ip info owner app.identity
      app.config.metadata).mp (by rw [found]; rfl)
    exact (resolve_container_name found).trans
      (agree hostname info owner user known listed owned active keys)
  · cases found

/-- Whatever is resolved for the address of a bare metal host has its name, when
the names agree. -/
theorem resolve_on_demand_name {app : AppState} (cached : Cached app)
    (agree : NamesAgree app ip) (known : app.bmh.ipToHostname.lookup ip = some hostname)
    (found : app.resolveOnDemand ip = some metadata) :
    metadata.localHostname = hostname := by
  have from_host : ((app.bmh.ipToHostname.lookup ip).bind
      (bmhMetadata app.identity app.bmh app.config.metadata ip)) = some metadata →
        metadata.localHostname = hostname := by
    rw [known, Option.bind_some]
    exact bmh_metadata_name
  have from_container : ((app.containers.ipToContainer.lookup ip).bind
      (containerMetadata app.identity app.containers app.config.metadata ip)) = some metadata →
        metadata.localHostname = hostname := by
    intro resolved
    obtain ⟨info, listed, found⟩ := Option.bind_eq_some_iff.mp resolved
    exact container_metadata_name agree known listed found
  have rebuilt : app.getMetadata ip = app.rebuildCache.getMetadata ip := cached ip
  rw [AppState.resolveOnDemand] at found
  split at found
  · rename_i held
    cases found
    rw [rebuilt, rebuilt_cache_lookup, Option.or_eq_some_iff] at held
    rcases held with container | ⟨-, host⟩
    · exact from_container container
    · exact from_host host
  · rw [resolve_uncached_eq, Option.or_eq_some_iff] at found
    rcases found with host | ⟨-, container⟩
    · exact from_host host
    · exact from_container container

end Metadata

section Completed

variable [Serialize CloudConfig] [Serialize Json] [Deserialize Json] [Serialize IgnitionConfig]
  [Serialize TemplateMeta] [Deserialize TemplateMeta] [Serialize AssignmentsFile]
  [Serialize OneshotState]

/-- A template is served only to a host that resolves, under a name without a
completion. -/
theorem answer_loaded {service : Service} {request : Request}
    (asks : request.asksFrom = some ip) (rendered : (service.answer request).1.loaded = some loaded) :
    ∃ metadata, service.app.resolveOnDemand ip = some metadata ∧
      metadata.localHostname ∉ service.app.oneshot.completed := by
  rw [Service.answer] at rendered
  split at rendered
  · rename_i response after served
    cases request with
    | ignitionConfig | userData =>
      cases asks
      have ignition : serveConfig "application/json" buildIgnition ip service =
        .ok response after := served
      exact serve_config_loaded ignition rendered
    | kickstartConfig =>
      cases asks
      have kickstart : serveConfig "text/plain"
        (fun metadata bmh => .ok (buildKickstart metadata bmh)) ip service =
          .ok response after := served
      exact serve_config_loaded kickstart rendered
    | _ => cases asks
  · cases rendered

/-- A completion is accepted only from the address of a bare metal host. -/
theorem provisioned_ok_known {service : Service}
    (completed : (service.answer (.oneshotProvisioned ip)).1 = .status .ok) :
    ∃ hostname, service.app.bmh.ipToHostname.lookup ip = some hostname := by
  cases known : service.app.bmh.ipToHostname.lookup ip with
  | some hostname => exact ⟨hostname, rfl⟩
  | none =>
    have refused : oneshotProvisioned ip service = .ok (.status .notFound) service := by
      rw [oneshotProvisioned]
      refine bind_eq_ok.mpr ⟨service.app, service, rfl, ?_⟩
      rw [known]
      rfl
    have answered : service.answer (.oneshotProvisioned ip) = (.status .notFound, service) := by
      simp only [Service.answer, Request.handle, refused]
    rw [answered] at completed
    cases completed

/-- **A provisioned host is served no oneshot template until it is reset**, as
long as the names at its address agree.  Whatever requests follow a completion,
and however their file operations end: a later request from the same address is
answered without a oneshot template, unless one of them resets the host. -/
theorem provisioned_host_gets_no_oneshot (service : Service) (ip : IpAddr)
    (cached : Cached service.app) (agree : NamesAgree service.app ip)
    (completed : (service.answer (.oneshotProvisioned ip)).1 = .status .ok) :
    ∃ hostname, service.app.bmh.ipToHostname.lookup ip = some hostname ∧
      ∀ (later : List Request) (request : Request), .oneshotDelete hostname ∉ later →
        request.asksFrom = some ip →
        ¬ (((service.after (.oneshotProvisioned ip)).run later).answer request).1.ServesOneshot := by
  obtain ⟨hostname, known⟩ := provisioned_ok_known completed
  refine ⟨hostname, known, ?_⟩
  rintro later request kept asks ⟨loaded, rendered, -⟩
  have whole : (service.after (.oneshotProvisioned ip)).run later =
      service.run (.oneshotProvisioned ip :: later) := rfl
  have same := run_same_data service (.oneshotProvisioned ip :: later)
  rw [whole] at rendered
  obtain ⟨metadata, resolved, unrecorded⟩ := answer_loaded asks rendered
  have name : metadata.localHostname = hostname := by
    refine resolve_on_demand_name (run_cached cached _) ?_ ?_ resolved
    · rw [NamesAgree, same.bmh, same.containers, same.identity]
      exact agree
    · rw [same.bmh]
      exact known
  rw [name, run_completed_iff] at unrecorded
  exact unrecorded (Or.inr ⟨[], _, later, rfl, ⟨ip, rfl, known⟩, kept⟩)

end Completed

/-- Reads the empty JSON object. -/
@[reducible] def emptyObjectReader : Deserialize Json where
  fromStr text := if text = "\x7b\x7d" then some (.object []) else none

section Sample

attribute [local instance] cloudConfigText Json.prettyText emptyObjectReader ignitionText
  templateMetaText templateMetaReader assignmentsText oneshotText

/-- Root installs a host from a oneshot template. -/
def installHost (hostname template content : String) : List Request :=
  [.templatesPut "fedora" template { mode := .oneshot, content },
    .assignmentsPut hostname { imageType := "fedora", template }]

/-- The service with one bare metal host, `web1`. -/
def singleHost : Service where
  app := { sharedAddress with
    containers := {}, templateStore := { dataDir := "/data" } }.rebuildCache
  disk := emptyVolume

/-- At the address of `web1` there is no container. -/
theorem provisioned_host_gets_no_oneshot_web1 :
    ∃ hostname,
      (singleHost.run (installHost "web1" "install.yaml" "")).app.bmh.ipToHostname.lookup
        (.v4 10 0 0 5) = some hostname ∧
      ∀ (later : List Request) (request : Request), .oneshotDelete hostname ∉ later →
        request.asksFrom = some (.v4 10 0 0 5) →
        ¬ ((((singleHost.run (installHost "web1" "install.yaml" "")).after
          (.oneshotProvisioned (.v4 10 0 0 5))).run later).answer request).1.ServesOneshot := by
  refine provisioned_host_gets_no_oneshot _ _ (run_cached (fun _ => rfl) _) ?_ (by decide +kernel)
  have same := run_same_data singleHost (installHost "web1" "install.yaml" "")
  rw [NamesAgree, same.containers]
  rintro _ _ _ _ _ ⟨⟩

/-- The service with a container of another name at the address of `web1`. -/
def sharedHost : Service where
  app := { sharedAddress with templateStore := { dataDir := "/data" } }.rebuildCache
  disk := emptyVolume

/-- The completion goes to `web1`, and the template of the container's name is
served once more. -/
theorem completed_host_gets_oneshot_again :
    Cached (sharedHost.run (installHost "main.build" "install.yaml" "")).app ∧
    ((sharedHost.run (installHost "main.build" "install.yaml" "")).answer
      (.oneshotProvisioned (.v4 10 0 0 5))).1 = .status .ok ∧
    (((sharedHost.run (installHost "main.build" "install.yaml" "")).after
      (.oneshotProvisioned (.v4 10 0 0 5))).answer
        (.ignitionConfig (.v4 10 0 0 5))).1.ServesOneshot := by
  refine ⟨run_cached (fun _ => rfl) _, ?_⟩
  decide +kernel

end Sample

/-! ## Modes -/

section Modes

variable [Serialize Json] [Deserialize Json]

/-- An Ignition template whose text is JSON can be merged into. -/
def Renderable (config : MetadataConfig) (metadata : HostMetadata) (loaded : LoadedTemplate) :
    Prop :=
  loaded.format = .ignition → ∀ base : Json,
    Deserialize.fromStr (substituted config metadata loaded) = some base → Mergeable base

/-- A template that cannot be rendered makes the request panic. -/
theorem render_template_ok_iff (config : MetadataConfig) (metadata : HostMetadata)
    (loaded : LoadedTemplate) :
    (∃ content, renderTemplate config metadata loaded = .ok content) ↔
      Renderable config metadata loaded := by
  rw [renderTemplate, Renderable]
  cases format : loaded.format with
  | ignition =>
    cases parsed : (Deserialize.fromStr (substituted config metadata loaded) : Option Json) with
    | none => simp
    | some base =>
      simp only [Option.some.injEq, forall_eq', true_imp_iff]
      rw [← merged_config_ok_iff base metadata, mergeIgnition]
      cases mergedConfig base metadata with
      | ok merged => simp [Except.map]
      | error panic => simp [Except.map]
  | kickstart => simp
  | cloudConfig => simp

variable [Deserialize TemplateMeta]

/-- `resolve_and_build` serves the host a config rendered from this template. -/
def Service.Serves (service : Service) (hostname : String) (metadata : HostMetadata)
    (bmh : Option BareMetalHost) (loaded : LoadedTemplate) : Prop :=
  ∃ content after,
    renderTemplate service.app.config.metadata metadata loaded = .ok content ∧
    resolveAndBuild hostname metadata bmh service =
      .ok (.config content loaded.format loaded) after

/-- The template a host refers to is served exactly when the host has no
completion and the template can be rendered, whatever its mode. -/
theorem serves_iff {service : Service} {hostname : String} {bmh : Option BareMetalHost}
    (refers : resolveTemplateRef service.app hostname bmh = some (imageType, name))
    (present : service.app.templateStore.get imageType name service.disk =
      .ok (some loaded) disk) (metadata : HostMetadata) :
    service.Serves hostname metadata bmh loaded ↔
      hostname ∉ service.app.oneshot.completed ∧
        Renderable service.app.config.metadata metadata loaded := by
  constructor
  · rintro ⟨content, after, rendered, built⟩
    exact ⟨resolve_and_build_config built,
      (render_template_ok_iff _ _ _).mp ⟨content, rendered⟩⟩
  · rintro ⟨fresh, renderable⟩
    obtain ⟨content, rendered⟩ := (render_template_ok_iff _ _ _).mpr renderable
    have found : loadTemplate service.app.templateStore (some (imageType, name)) service =
        .ok (some loaded) { service with disk } := by
      have read : Handler.io (service.app.templateStore.get imageType name) service =
          .ok (.ok (some loaded)) { service with disk } := by
        rw [Handler.io, present]
      exact bind_eq_ok.mpr ⟨_, _, read, rfl⟩
    refine ⟨content, { service with disk }, rendered, ?_⟩
    rw [resolveAndBuild]
    refine bind_eq_ok.mpr ⟨service.app, service, rfl, ?_⟩
    rw [if_neg fresh, refers]
    refine bind_eq_ok.mpr ⟨some loaded, { service with disk }, found, ?_⟩
    refine bind_eq_ok.mpr ⟨content, { service with disk }, ?_, rfl⟩
    rw [rendered]
    rfl

variable [Serialize CloudConfig] [Serialize IgnitionConfig] [Serialize TemplateMeta]
  [Serialize AssignmentsFile] [Serialize OneshotState]

/-- **The mode decides what completion means exactly as long as every completed
host has a oneshot template.**  After every run of requests, for every host whose
reference leads to a template: the template is served if and only if its mode is
forever or the host has no completion since its last reset, provided that a
completed host has a oneshot template and any other host one that can be
rendered; and only then. -/
theorem mode_decides_iff (start : Service) (requests : List Request) (hostname : String)
    (metadata : HostMetadata) (bmh : Option BareMetalHost) (imageType name : String)
    (loaded : LoadedTemplate) (disk : Disk)
    (refers : resolveTemplateRef (start.run requests).app hostname bmh = some (imageType, name))
    (present : (start.run requests).app.templateStore.get imageType name
      (start.run requests).disk = .ok (some loaded) disk) :
    ((start.run requests).Serves hostname metadata bmh loaded ↔
      loaded.mode = .forever ∨ ¬ CompletedSinceReset start.app hostname requests) ↔
      (CompletedSinceReset start.app hostname requests → loaded.mode = .oneshot) ∧
      (¬ CompletedSinceReset start.app hostname requests →
        Renderable start.app.config.metadata metadata loaded) := by
  rw [serves_iff refers present, run_completed_iff, (run_same_data start requests).config]
  by_cases completed : CompletedSinceReset start.app hostname requests
  · simp only [completed, not_true_eq_false, false_and, or_false, true_imp_iff, false_imp_iff,
      and_true, false_iff]
    cases loaded.mode <;> simp
  · simp [completed]

end Modes

/-- The mode of the template that a lookup has found. -/
def foundMode : EStateM.Result FileError Disk (Option LoadedTemplate) → Option TemplateMode
  | .ok (some loaded) _ => some loaded.mode
  | _ => none

theorem found_mode_eq_some {result : EStateM.Result FileError Disk (Option LoadedTemplate)}
    (found : foundMode result = some mode) :
    ∃ loaded disk, result = .ok (some loaded) disk ∧ loaded.mode = mode := by
  rw [foundMode.eq_def] at found
  split at found
  · rename_i loaded disk
    cases found
    exact ⟨loaded, disk, rfl, rfl⟩
  · cases found

section Sample

attribute [local instance] cloudConfigText Json.prettyText emptyObjectReader ignitionText
  templateMetaText templateMetaReader assignmentsText oneshotText

/-- The metadata of a host without users. -/
def bareMetadata (hostname : String) : HostMetadata where
  instanceId := hostname
  hostname := hostname ++ ".g8.lo"
  localHostname := hostname
  localIpv4 := "10.0.0.5"
  availabilityZone := "g8"
  publicKeys := []
  userData := ""
  cloudConfig := { users := [] }

/-- The last assignment of a host is its reference. -/
theorem assigned_reference (service : Service) (requests : List Request) (hostname : String)
    (req : AssignmentRequest) :
    resolveTemplateRef (service.run (requests ++ [.assignmentsPut hostname req])).app hostname none =
      some (req.imageType, req.template) := by
  rw [run_append, after_app]
  simp [resolveTemplateRef, Request.effect]

/-- A host whose oneshot template is an empty Ignition config. -/
theorem mode_decides_iff_empty_config :
    ∃ loaded, ((singleHost.run (installHost "web1" "agent.ign.json" "\x7b\x7d")).Serves "web1"
        (bareMetadata "web1") none loaded ↔
      loaded.mode = .forever ∨ ¬ CompletedSinceReset singleHost.app "web1"
        (installHost "web1" "agent.ign.json" "\x7b\x7d")) ↔
      (CompletedSinceReset singleHost.app "web1"
        (installHost "web1" "agent.ign.json" "\x7b\x7d") → loaded.mode = .oneshot) ∧
      (¬ CompletedSinceReset singleHost.app "web1"
        (installHost "web1" "agent.ign.json" "\x7b\x7d") →
        Renderable singleHost.app.config.metadata (bareMetadata "web1") loaded) := by
  have oneshot : foundMode
      ((singleHost.run (installHost "web1" "agent.ign.json" "\x7b\x7d")).app.templateStore.get
        "fedora" "agent.ign.json"
        (singleHost.run (installHost "web1" "agent.ign.json" "\x7b\x7d")).disk) =
      some .oneshot := by decide +kernel
  obtain ⟨loaded, disk, present, -⟩ := found_mode_eq_some oneshot
  exact ⟨loaded, mode_decides_iff singleHost _ "web1" (bareMetadata "web1") none "fedora"
    "agent.ign.json" loaded disk (assigned_reference singleHost [_] "web1" _) present⟩

/-- A host that has completed its oneshot template is given one to be served on
every boot. -/
def reassigned : List Request :=
  installHost "web1" "install.yaml" "" ++
    [.oneshotProvisioned (.v4 10 0 0 5),
      .templatesPut "fedora" "agent.yaml" { mode := .forever, content := "" },
      .assignmentsPut "web1" { imageType := "fedora", template := "agent.yaml" }]

theorem reassigned_reference : resolveTemplateRef (singleHost.run reassigned).app "web1" none =
    some ("fedora", "agent.yaml") :=
  assigned_reference singleHost reassigned.dropLast "web1" _

theorem reassigned_completed : "web1" ∈ (singleHost.run reassigned).app.oneshot.completed := by
  have split : reassigned = installHost "web1" "install.yaml" "" ++
      .oneshotProvisioned (.v4 10 0 0 5) :: reassigned.drop 3 := rfl
  have known : singleHost.app.bmh.ipToHostname.lookup (.v4 10 0 0 5) = some "web1" := by
    decide +kernel
  have kept : .oneshotDelete "web1" ∉ reassigned.drop 3 := by
    simp [reassigned, installHost]
  rw [run_completed_iff]
  exact Or.inr ⟨_, _, _, split, ⟨_, rfl, known⟩, kept⟩

/-- The new template is in the store, has mode forever, and is not served. -/
theorem forever_template_not_served :
    resolveTemplateRef (singleHost.run reassigned).app "web1" none =
      some ("fedora", "agent.yaml") ∧
    ∃ loaded disk, (singleHost.run reassigned).app.templateStore.get "fedora" "agent.yaml"
        (singleHost.run reassigned).disk = .ok (some loaded) disk ∧
      loaded.mode = .forever ∧
      ¬ (singleHost.run reassigned).Serves "web1" (bareMetadata "web1") none loaded := by
  have forever : foundMode ((singleHost.run reassigned).app.templateStore.get "fedora" "agent.yaml"
      (singleHost.run reassigned).disk) = some .forever := by decide +kernel
  obtain ⟨loaded, disk, present, mode⟩ := found_mode_eq_some forever
  refine ⟨reassigned_reference, loaded, disk, present, mode, ?_⟩
  rw [serves_iff reassigned_reference present]
  exact fun served => served.1 reassigned_completed

end Sample

end CloudId
