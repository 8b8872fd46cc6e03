import CloudId.Records
import CloudId.TemplateNames

/-! The service as a machine over records. The templates are the files below the template
directory, the assignments and the completions are kept in memory and in a file each beside
it. As long as the data volume works, every answer over HTTP is that of the machine, through
changes of what the service knows of the hosts and through restarts. -/
namespace CloudId
open Effects FileSystem Disk GuardedRun

/-! ## Beside the templates -/

/-- The directories of the store are open, and what lies beside the template directory is as
it was before. -/
structure Beside (store : TemplateStore) (base : List String) (before disk : Disk) : Prop where
  healthy : disk.Healthy
  opens : disk.Opens store.dataDir base
  templates : disk.Opens store.templatesDir (base ++ ["templates"])
  same : ∀ file, file ≠ "templates" → disk.node? (base ++ [file]) = before.node? (base ++ [file])

namespace Beside

variable {store : TemplateStore} {base : List String} {before disk : Disk}

theorem change {next : Disk} (beside : Beside store base before disk) (healthy : next.Healthy)
    (keeps : KeepsDirs disk next)
    (same : ∀ file, next.node? (base ++ [file]) = disk.node? (base ++ [file])) :
    Beside store base before next where
  healthy := healthy
  opens := beside.opens.of_keeps_dirs keeps
  templates := beside.templates.of_keeps_dirs keeps
  same := fun file other => (same file).trans (beside.same file other)

theorem tick (disk : Disk) (beside : Beside store base before disk) :
    Beside store base before disk.tick :=
  beside.change beside.healthy (same_dirs_tick disk).keeps fun _ => rfl

/-- A path of a template that leads anywhere leads below the template directory. -/
theorem template_place (beside : Beside store base before disk) {imageType file : String}
    (ordinary : Ordinary imageType) (ordinary' : Ordinary file) {found : List String}
    (resolved : disk.resolve (store.templatePath imageType file) = .ok found) :
    found = base ++ ["templates", imageType, file] := by
  obtain ⟨parent, opens, rfl, -⟩ := opens_of_resolve_join ordinary' resolved
  by_cases is_dir : disk.node? (base ++ ["templates"] ++ [imageType]) = some .dir
  · have no_nul : '\x00' ∉ imageType.toList := by
      have clean := opens.no_nul
      rw [mem_join ordinary.relative (by decide), not_or] at clean
      exact clean.2
    rw [opens.unique (beside.templates.join ordinary no_nul is_dir)]
    simp
  · exact absurd resolved (resolve_in_closed beside.templates ordinary is_dir ordinary' _)

theorem create_type {imageType : String} (ordinary : Ordinary imageType) :
    Preserves (Beside store base before) (createDirAll (join store.templatesDir imageType)) := by
  intro disk beside
  by_cases nul : '\x00' ∈ imageType.toList
  · have in_path : '\x00' ∈ (join store.templatesDir imageType).toList :=
      (mem_join ordinary.relative (by decide)).mpr (.inr nul)
    rw [create_dir_all_nul in_path]
    exact tick disk beside
  · rw [create_dir_all_entry beside.healthy beside.templates ordinary nul]
    split
    · exact tick disk beside
    · exact tick disk beside
    · refine (tick disk beside).change beside.healthy (keeps_dirs_make_dir _ _) fun file => ?_
      rw [finalState, node_make_dir, if_neg (by simp)]

theorem write_template {imageType file : String} (ordinary : Ordinary imageType)
    (ordinary' : Ordinary file) (bytes : ByteArray) :
    Preserves (Beside store base before) (write (store.templatePath imageType file) bytes) := by
  intro disk beside
  rcases write_changes (store.templatePath imageType file) bytes disk with
    same | ⟨found, written, target, stored⟩
  · rw [same]
    exact tick disk beside
  · rw [stored]
    obtain ⟨resolved, open_⟩ := target_eq_ok.mp target
    have open_ : disk.tick.node? found ≠ some .dir := open_
    refine (tick disk beside).change beside.healthy (same_dirs_store open_ written).keeps fun file => ?_
    rw [node_store (ne_root_of_not_dir open_),
      if_neg (by rw [beside.template_place ordinary ordinary' resolved]; simp)]

theorem remove_template {imageType file : String} (ordinary : Ordinary imageType)
    (ordinary' : Ordinary file) :
    Preserves (Beside store base before) (removeFile (store.templatePath imageType file)) := by
  intro disk beside
  rcases remove_file_end (store.templatePath imageType file) disk with
    same | ⟨found, bytes, located, removed⟩
  · rw [same]
    exact tick disk beside
  · rw [removed]
    obtain ⟨resolved, node⟩ := find_eq_ok.mp located
    have open_ : disk.tick.node? found ≠ some .dir := by
      have node : disk.tick.node? found = some (.file bytes) := node
      rw [node]
      simp
    refine (tick disk beside).change beside.healthy (same_dirs_remove open_).keeps fun file => ?_
    rw [node_remove (ne_root_of_not_dir open_),
      if_neg (by rw [beside.template_place ordinary ordinary' resolved]; simp)]

section Store

variable [Deserialize TemplateMeta]

theorem put [Serialize TemplateMeta] {imageType name : String} (req : TemplateCreateRequest)
    (ordinary : Ordinary imageType) (ordinary' : Ordinary name) :
    Preserves (Beside store base before) (store.put imageType name req) := by
  refine put_preserves_of tick (create_type ordinary) ?_ req
  rintro own (rfl | rfl) content
  · exact write_template ordinary ordinary' content
  · exact write_template ordinary (meta_name_ordinary ordinary') content

omit [Deserialize TemplateMeta] in
theorem delete {imageType name : String} (ordinary : Ordinary imageType)
    (ordinary' : Ordinary name) :
    Preserves (Beside store base before) (store.delete imageType name) := by
  refine (file_exists_preserves tick _).bind fun there => ?_
  cases there with
  | false => exact preserves_pure _ _
  | true =>
    refine (remove_template ordinary ordinary').bind fun _ => ?_
    refine (file_exists_preserves tick _).bind fun meta_there => ?_
    cases meta_there with
    | false => exact preserves_pure _ _
    | true =>
      exact (attempt_preserves (remove_template ordinary (meta_name_ordinary ordinary'))).bind
        fun _ => preserves_pure _ _

end Store

end Beside

theorem Shows.elsewhere {store : TemplateStore} {disk next : Disk} {place : List String}
    {files : FileTable} (shown : Shows store disk place files) (healthy : next.Healthy)
    (dirs : SameDirs disk next)
    (same : ∀ rest, rest ≠ [] → next.node? (place ++ rest) = disk.node? (place ++ rest)) :
    Shows store next place files where
  healthy := healthy
  opens := shown.opens.of_same_dirs dirs
  types := by
    intro imageType node held
    rw [same [imageType] (by simp)] at held
    exact shown.types imageType node held
  entries := by
    intro imageType file
    rw [same [imageType, file] (by simp)]
    exact shown.entries imageType file
  within := by
    intro imageType file held
    rw [same [imageType] (by simp)]
    exact shown.within imageType file held

/-- What is read from a file depends on its entry alone. -/
theorem read_text_entry {disk next : Disk} {base : String} {place : List String} {file : String}
    (opens : disk.Opens base place) (opens' : next.Opens base place) (ordinary : Ordinary file)
    (same : next.node? (place ++ [file]) = disk.node? (place ++ [file])) :
    next.readText (join base file) = disk.readText (join base file) := by
  rw [readText, readText]
  congr 1
  apply Option.ext
  intro content
  rw [file_at_entry opens' ordinary, file_at_entry opens ordinary, same]

theorem same_dirs_ticks (disk : Disk) (ticks : Nat) : SameDirs disk { disk with ticks } :=
  ⟨rfl, fun _ => Iff.rfl⟩

/-! ## The records of a service -/

/-- The files beside the template directory. -/
def recordFiles : List String := ["assignments.json", "oneshot.json"]

section Keeps

variable [Serialize TemplateMeta] [Deserialize AssignmentsFile] [Deserialize OneshotState]

/-- The service keeps these records: the templates on the data volume, the others in memory
and in their files. -/
structure KeepsRecords (service : Service) (base : List String) (records : ServiceRecords) : Prop where
  opens : service.disk.Opens service.app.templateStore.dataDir base
  keeping : Keeping service.app.templateStore service.disk (base ++ ["templates"]) records.templates
  writable : ∀ file ∈ recordFiles, service.disk.node? (base ++ [file]) ≠ some .dir
  assignments : service.app.assignments.assignments.lookup = records.assignments
  completed : service.app.oneshot.completed.lookup = records.completed
  saved_assignments : service.reloadedAssignments.lookup = records.assignments
  saved_completed : service.reloadedCompletions.lookup = records.completed

namespace KeepsRecords

variable {service : Service} {base : List String} {records : ServiceRecords}

theorem beside (keeps : KeepsRecords service base records) :
    Beside service.app.templateStore base service.disk service.disk :=
  ⟨keeps.keeping.shown.healthy, keeps.opens, keeps.keeping.shown.opens, fun _ _ => rfl⟩

/-- A change of the templates. -/
theorem change_templates (keeps : KeepsRecords service base records) {next : Disk}
    (beside : Beside service.app.templateStore base service.disk next) {templates : TemplateMap}
    (keeping : Keeping service.app.templateStore next (base ++ ["templates"]) templates) :
    KeepsRecords { service with disk := next } base { records with templates } where
  opens := beside.opens
  keeping := keeping
  writable := by
    intro file listed
    have other : file ≠ "templates" := by
      rintro rfl
      exact absurd listed (by decide)
    rw [beside.same file other]
    exact keeps.writable file listed
  assignments := keeps.assignments
  completed := keeps.completed
  saved_assignments := by
    have same : next.readText service.app.templateStore.assignmentsPath =
        service.disk.readText service.app.templateStore.assignmentsPath :=
      read_text_entry keeps.opens beside.opens assignments_ordinary (beside.same _ (by decide))
    rw [← keeps.saved_assignments, reloaded_assignments_eq, reloaded_assignments_eq, same]
  saved_completed := by
    have same : next.readText service.app.templateStore.oneshotPath =
        service.disk.readText service.app.templateStore.oneshotPath :=
      read_text_entry keeps.opens beside.opens oneshot_ordinary (beside.same _ (by decide))
    rw [← keeps.saved_completed, reloaded_completions_eq, reloaded_completions_eq, same]

/-- What else the shared state holds does not matter. -/
theorem transfer (keeps : KeepsRecords service base records) {next : Service}
    (store : next.app.templateStore = service.app.templateStore)
    (assignments : next.app.assignments = service.app.assignments)
    (oneshot : next.app.oneshot = service.app.oneshot) (disk : next.disk = service.disk) :
    KeepsRecords next base records where
  opens := by rw [store, disk]; exact keeps.opens
  keeping := by rw [store, disk]; exact keeps.keeping
  writable := by rw [disk]; exact keeps.writable
  assignments := by rw [assignments]; exact keeps.assignments
  completed := by rw [oneshot]; exact keeps.completed
  saved_assignments := by
    rw [reloaded_assignments_eq, store, disk, ← reloaded_assignments_eq]
    exact keeps.saved_assignments
  saved_completed := by
    rw [reloaded_completions_eq, store, disk, ← reloaded_completions_eq]
    exact keeps.saved_completed

/-- Reading leaves the records as they are. -/
theorem untouched (keeps : KeepsRecords service base records) {next : Service}
    (untouched : service.Untouched next) : KeepsRecords next base records := by
  obtain ⟨ticks, rfl⟩ := untouched
  have shown := keeps.keeping.shown
  have same := same_dirs_ticks service.disk ticks
  have beside : Beside service.app.templateStore base service.disk { service.disk with ticks } :=
    ⟨shown.healthy, keeps.opens.of_same_dirs same, shown.opens.of_same_dirs same, fun _ _ => rfl⟩
  exact keeps.change_templates beside
    ⟨shown.elsewhere shown.healthy same fun _ _ => rfl, keeps.keeping.unmarked⟩

/-- A save writes its file. -/
theorem save_ends (keeps : KeepsRecords service base records) {file : String}
    (listed : file ∈ recordFiles) (size : Nat) :
    service.disk.writeEnd (join service.app.templateStore.dataDir file) size = .saved := by
  have ordinary : ∀ file ∈ recordFiles, Ordinary file ∧ '\x00' ∉ file.toList := by decide
  have resolved := keeps.opens.resolve_join (ordinary file listed).1 (ordinary file listed).2
  rw [writeEnd, keeps.keeping.shown.healthy,
    target_eq_ok.mpr ⟨resolved, keeps.writable file listed⟩]

/-- It leaves the templates, the directories and the other file as they are. -/
theorem save_beside (keeps : KeepsRecords service base records) {file : String}
    (listed : file ∈ recordFiles) (bytes : ByteArray) :
    let next := finalState (write (join service.app.templateStore.dataDir file) bytes service.disk)
    next.Opens service.app.templateStore.dataDir base ∧
      Keeping service.app.templateStore next (base ++ ["templates"]) records.templates ∧
      ∀ other ∈ recordFiles, next.node? (base ++ [other]) ≠ some .dir := by
  have ordinary : ∀ file ∈ recordFiles, Ordinary file ∧ '\x00' ∉ file.toList := by decide
  have resolved := keeps.opens.resolve_join (ordinary file listed).1 (ordinary file listed).2
  have open_ : service.disk.tick.node? (base ++ [file]) ≠ some .dir := keeps.writable file listed
  have dirs : SameDirs service.disk (service.disk.tick.store (base ++ [file]) bytes) :=
    (same_dirs_tick service.disk).trans (same_dirs_store open_ bytes)
  have written := write_ok keeps.keeping.shown.healthy
    (target_eq_ok.mpr ⟨resolved, keeps.writable file listed⟩) bytes
  have not_templates : file ≠ "templates" := by
    rintro rfl
    exact absurd listed (by decide)
  dsimp only
  rw [written, finalState]
  refine ⟨keeps.opens.of_same_dirs dirs, ⟨?_, keeps.keeping.unmarked⟩, ?_⟩
  · refine keeps.keeping.shown.elsewhere keeps.keeping.shown.healthy dirs fun rest _ => ?_
    rw [node_store (ne_root_of_not_dir open_), List.append_assoc,
      if_neg (by simp [Ne.symm not_templates])]
    rfl
  · intro other listed' is_dir
    exact keeps.writable other listed' ((dirs.2 _).mpr is_dir)

section Saves

variable [Serialize AssignmentsFile] [Serialize OneshotState]

omit [Serialize OneshotState] in
theorem assign (codec : TextCodec AssignmentsFile AssignmentsFile.Same)
    (keeps : KeepsRecords service base records) (hostname : String) (value : Option Assignment)
    (success : StatusCode) : ∃ next, changeAssignments (assigned · hostname value) success service =
        .ok (.status success) next ∧ KeepsRecords next base (records.assign hostname value) := by
  have listed : "assignments.json" ∈ recordFiles := by decide
  have saved : (service.assignmentSave hostname value).ends = .saved := keeps.save_ends listed _
  obtain ⟨opens, keeping, writable⟩ :=
    keeps.save_beside listed (service.assignmentsTextAfter hostname value).toUTF8
  refine ⟨_, (change_assignments_eq service hostname value success).trans (by rw [saved]; rfl), ?_⟩
  exact
    { opens, keeping, writable
      assignments := by
        rw [Service.afterAssignmentSave, lookup_assigned, keeps.assignments]
        rfl
      completed := keeps.completed
      saved_assignments := by
        rw [reloaded_after_assignment_save codec, saved, keeps.assignments]
        rfl
      saved_completed := by
        rw [completions_after_assignment_save]
        exact keeps.saved_completed }

omit [Serialize AssignmentsFile] in
theorem complete (codec : TextCodec OneshotState OneshotState.Same)
    (keeps : KeepsRecords service base records) (hostname : String) (value : Option String)
    (success : StatusCode) : ∃ next, changeOneshot (assigned · hostname value) success service =
        .ok (.status success) next ∧ KeepsRecords next base (records.complete hostname value) := by
  have listed : "oneshot.json" ∈ recordFiles := by decide
  have saved : (service.completionSave hostname value).ends = .saved := keeps.save_ends listed _
  obtain ⟨opens, keeping, writable⟩ :=
    keeps.save_beside listed (service.oneshotTextAfter hostname value).toUTF8
  refine ⟨_, (change_oneshot_eq service hostname value success).trans (by rw [saved]; rfl), ?_⟩
  exact
    { opens, keeping, writable
      assignments := keeps.assignments
      completed := by
        rw [Service.afterCompletionSave, lookup_assigned, keeps.completed]
        rfl
      saved_assignments := by
        rw [assignments_after_completion_save]
        exact keeps.saved_assignments
      saved_completed := by
        rw [reloaded_after_completion_save codec, saved, keeps.completed]
        rfl }

end Saves

end KeepsRecords

end Keeps

/-! ## One request -/

/-- What a handler returns. -/
def outcome {α : Type} : EStateM.Result Panic Service α → Except Panic α
  | .ok value _ => .ok value
  | .error panic _ => .error panic

theorem or_panic_outcome {α β : Type} (result : Except Panic α) (made : α → β)
    (service : Service) :
    outcome ((do return made (← Handler.orPanic result)) service) = result.map made := by
  cases result <;> rfl

/-- What follows a handler returns what it does whatever state it begins in. -/
theorem outcome_bind {α β : Type} (handler : Handler α) {rest : α → Handler β}
    {answer : α → Except Panic β} (later : ∀ value next, outcome (rest value next) = answer value)
    (service : Service) :
    outcome ((handler >>= rest) service) = (outcome (handler service)).bind answer := by
  cases result : handler service with
  | ok value next =>
    rw [bind_ok result]
    exact later value next
  | error panic next =>
    rw [bind_error result]
    rfl

/-- A handler that answers with a file operation that succeeds. -/
theorem store_answer {α : Type} {service : Service} {op : AppState → FileM α} {value : α}
    {next : Disk} (ran : op service.app service.disk = .ok value next)
    (answer : Except FileError α → Response) :
    (do
      let state ← Handler.app
      let result ← Handler.io (op state)
      return answer result : Handler Response) service =
        .ok (answer (.ok value)) { service with disk := next } := by
  have io : Handler.io (op service.app) service = .ok (.ok value) { service with disk := next } := by
    rw [Handler.io, ran]
  exact (bind_ok (show Handler.app service = .ok service.app service from rfl)).trans (bind_ok io)

section Requests

variable [Serialize TemplateMeta] [Deserialize TemplateMeta] [Deserialize AssignmentsFile]
  [Deserialize OneshotState] {service : Service} {base : List String} {records : ServiceRecords}

omit [Deserialize TemplateMeta] in
theorem reference_eq (keeps : KeepsRecords service base records) (hostname : String)
    (bmh : Option BareMetalHost) :
    resolveTemplateRef service.app hostname bmh =
      records.reference service.app.config.templates hostname bmh := by
  have same : service.app.assignments.assignments.lookup hostname = records.assignments hostname :=
    congrFun keeps.assignments hostname
  rw [resolveTemplateRef, ServiceRecords.reference, same]
  cases bmh.bind fun bmh => bmh.templateField.map fun tpl => parseTemplateRef tpl bmh with
  | some own => rfl
  | none => cases records.assignments hostname <;> rfl

omit [Deserialize TemplateMeta] in
theorem completed_iff (keeps : KeepsRecords service base records) (hostname : String) :
    hostname ∈ service.app.oneshot.completed ↔ (records.completed hostname).isSome := by
  have same : service.app.oneshot.completed.lookup hostname = records.completed hostname :=
    congrFun keeps.completed hostname
  rw [← same, AList.lookup_isSome]

omit [Deserialize TemplateMeta] in
theorem assigned_iff (keeps : KeepsRecords service base records) (hostname : String) :
    hostname ∈ service.app.assignments.assignments ↔ (records.assignments hostname).isSome := by
  have same : service.app.assignments.assignments.lookup hostname = records.assignments hostname :=
    congrFun keeps.assignments hostname
  rw [← same, AList.lookup_isSome]

/-- The template that a plain reference leads to. -/
theorem load_reference (codec : ReadsBack) (keeps : KeepsRecords service base records)
    {reference : Option (String × String)}
    (plain : ∀ imageType name, reference = some (imageType, name) → PlainKey imageType name) :
    ∃ next, loadTemplate service.app.templateStore reference service =
      .ok (reference.bind fun key => records.templates.get key.1 key.2) next := by
  cases reference with
  | none => exact ⟨service, rfl⟩
  | some key =>
    obtain ⟨imageType, name⟩ := key
    have key := plain imageType name rfl
    obtain ⟨created, updated, next, got, -⟩ :=
      keeps.keeping.shown.get_eq key.type_ordinary key.name_ordinary
    rw [files_get codec records.templates imageType key.unmarked] at got
    have io : Handler.io (service.app.templateStore.get imageType name) service =
        .ok (.ok (records.templates.get imageType name)) { service with disk := next } := by
      rw [Handler.io, got]
    exact ⟨_, bind_ok io⟩

variable [Serialize Json] [Deserialize Json]

/-- The template of a host is served unless rendering it panics. -/
theorem resolve_and_build_chosen (codec : ReadsBack) (keeps : KeepsRecords service base records)
    (hostname : String) (metadata : HostMetadata) (bmh : Option BareMetalHost)
    (plain : ∀ imageType name, resolveTemplateRef service.app hostname bmh =
      some (imageType, name) → PlainKey imageType name) :
    outcome (resolveAndBuild hostname metadata bmh service) =
      match records.chosen service.app.config.templates hostname bmh with
      | some loaded => (renderTemplate service.app.config.metadata metadata loaded).map
          fun content => .config content loaded.format loaded
      | none => .ok .none := by
  rw [resolve_and_build_begins, ServiceRecords.chosen]
  by_cases completed : hostname ∈ service.app.oneshot.completed
  · rw [if_pos completed, if_pos ((completed_iff keeps hostname).mp completed)]
    rfl
  · rw [if_neg completed, if_neg fun held => completed ((completed_iff keeps hostname).mpr held),
      ← reference_eq keeps]
    obtain ⟨next, loaded⟩ := load_reference codec keeps plain
    rw [bind_ok loaded]
    cases (resolveTemplateRef service.app hostname bmh).bind
        fun key => records.templates.get key.1 key.2 with
    | none => rfl
    | some found => exact or_panic_outcome _ _ next

variable [Serialize CloudConfig]

/-- What is served for the outcome of a template's resolution. -/
def configAnswer (contentType : String) (default : Except Panic String) :
    TemplateResult → Except Panic Response
  | .config content format loaded => .ok (.config format.asContentType content (some loaded))
  | .none => default.map fun content => .config contentType content none

theorem serve_config_chosen (codec : ReadsBack) (keeps : KeepsRecords service base records)
    (contentType : String) (build : HostMetadata → Option BareMetalHost → Except Panic String)
    {ip : IpAddr} (plain : PlainReference service.app ip) :
    outcome (serveConfig contentType build ip service) =
      records.configFor service.app contentType build ip := by
  rw [serveConfig, bind_ok (show Handler.app service = .ok service.app service from rfl),
    ServiceRecords.configFor]
  cases known : service.app.resolveOnDemand ip with
  | none => rfl
  | some metadata =>
    have built := resolve_and_build_chosen codec keeps metadata.localHostname metadata
      (service.app.getBmh metadata.localHostname) (plain metadata known)
    dsimp only
    have later : ∀ result next, outcome ((match result with
        | .config content format loaded =>
          return .config format.asContentType content (some loaded)
        | .none => do
          let content ← Handler.orPanic (build metadata (service.app.getBmh metadata.localHostname))
          return .config contentType content none : Handler Response) next) =
        configAnswer contentType (build metadata (service.app.getBmh metadata.localHostname))
          result := by
      rintro (_ | _) next
      · rfl
      · exact or_panic_outcome _ _ next
    refine (outcome_bind _ later service).trans ?_
    rw [built]
    cases records.chosen service.app.config.templates metadata.localHostname
        (service.app.getBmh metadata.localHostname) with
    | none => rfl
    | some loaded =>
      dsimp only
      cases renderTemplate service.app.config.metadata metadata loaded <;> rfl

/-! ### The store -/

omit [Deserialize AssignmentsFile] [Deserialize OneshotState] [Serialize Json] [Deserialize Json]
  [Serialize CloudConfig] in
theorem keeping_lists (codec : ReadsBack) {store : TemplateStore} {disk : Disk} {place : List String}
    {held : TemplateMap} (keeping : Keeping store disk place held) :
    ∃ listed next, held.Lists listed ∧ store.listAll disk = .ok listed next ∧
      ∀ imageType, Ordinary imageType → ∃ next, store.listByType imageType disk =
        .ok (listed.filter fun summary => summary.imageType = imageType) next := by
  obtain ⟨listed, next, all, sorted, members, by_type⟩ := (keeping_reads codec keeping).lists
  exact ⟨listed, next, ⟨sorted, members⟩, all, by_type⟩

omit [Deserialize AssignmentsFile] [Deserialize OneshotState] [Serialize Json] [Deserialize Json]
  [Serialize CloudConfig] in
theorem keeping_bundles (codec : ReadsBack) {store : TemplateStore} {disk : Disk}
    {place : List String} {held : TemplateMap} (keeping : Keeping store disk place held) :
    ∃ bundle next, held.Bundles bundle ∧ store.backup disk = .ok bundle next := by
  obtain ⟨listed, bundle, ⟨next, backed, -⟩, sorted, members, templates⟩ := keeping.shown.backup_eq
  refine ⟨bundle, next, ⟨?_, ?_⟩, backed⟩
  · rw [templates, List.map_map]
    exact sorted.nodup
  · intro entry
    rw [templates, List.mem_map]
    constructor
    · rintro ⟨summary, listed, rfl⟩
      obtain ⟨imageType, name, shown, rfl⟩ := (members summary).mp listed
      obtain ⟨kept, present⟩ :=
        Option.isSome_iff_exists.mp ((files_listed keeping.unmarked imageType name).mp shown)
      have content := files_content held imageType shown.2
      rw [present, Option.map_some] at content
      refine ⟨kept, present, ?_, ?_, rfl⟩
      · exact congrArg TemplateSummary.mode (files_summary codec present)
      · change (held.files imageType name).getD "" = kept.content
        rw [content]
        rfl
    · rintro ⟨kept, present, mode, content, format⟩
      have shown : held.files.Listed entry.imageType entry.name := by
        rw [files_listed keeping.unmarked, present]
        rfl
      have text := files_content held entry.imageType shown.2
      rw [present, Option.map_some] at text
      refine ⟨held.files.summary entry.imageType entry.name,
        (members _).mpr ⟨_, _, shown, rfl⟩, ?_⟩
      have same : (held.files entry.imageType entry.name).getD "" = kept.content := by
        rw [text]
        rfl
      change held.files.bundleEntry entry.imageType entry.name
        ((held.files entry.imageType entry.name).getD "") = entry
      rw [same, FileTable.bundleEntry, files_summary codec present, ← mode, ← content, ← format]

omit [Serialize CloudConfig] [Serialize Json] [Deserialize Json] [Serialize TemplateMeta]
  [Deserialize TemplateMeta] [Deserialize AssignmentsFile] [Deserialize OneshotState] in
theorem provisioned_unknown [Serialize OneshotState] {ip : IpAddr}
    (unknown : service.app.bmh.ipToHostname.lookup ip = none) :
    CloudId.oneshotProvisioned ip service = .ok (.status .notFound) service := by
  unfold oneshotProvisioned
  refine (bind_ok rfl).trans ?_
  rw [unknown]
  rfl

omit [Serialize CloudConfig] [Serialize Json] [Deserialize Json] [Serialize TemplateMeta]
  [Deserialize TemplateMeta] [Deserialize AssignmentsFile] [Deserialize OneshotState] in
/-- The completion of a known host is stamped and saved. -/
theorem provisioned_known [Serialize OneshotState] {ip : IpAddr} {hostname : String}
    (known : service.app.bmh.ipToHostname.lookup ip = some hostname) :
    CloudId.oneshotProvisioned ip service =
      changeOneshot (assigned · hostname (some (toString (service.disk.clock service.disk.ticks))))
        .ok { service with disk := service.disk.tick } := by
  unfold oneshotProvisioned
  refine (bind_ok rfl).trans ?_
  rw [known]
  exact bind_ok rfl

section Steps

variable [Serialize IgnitionConfig] [Serialize AssignmentsFile] [Serialize OneshotState]

/-- The request is a step of the machine, and the service keeps its records. -/
def Steps (service : Service) (base : List String) (records : ServiceRecords)
    (request : Request) : Prop :=
  ∃ next, ServiceRecords.Step service.app records request (outcome (request.handle service)) next ∧
    KeepsRecords (finalState (request.handle service)) base next

/-- A request that only reads. -/
theorem reading_steps (keeps : KeepsRecords service base records) {request : Request}
    (reads : request.Reads)
    (step : ServiceRecords.Step service.app records request (outcome (request.handle service)) records) :
    Steps service base records request := by
  have kept : KeepsRecords (service.after request) base records :=
    keeps.untouched (reads_untouched reads service)
  rw [after_eq] at kept
  exact ⟨records, step, kept⟩

theorem templates_list_steps (codec : ReadsBack) (keeps : KeepsRecords service base records) :
    Steps service base records .templatesList := by
  obtain ⟨listed, next, lists, all, -⟩ := keeping_lists codec keeps.keeping
  have answered := @store_answer _ service (fun state => state.templateStore.listAll) _ _ all
    (orServerError .templates)
  refine reading_steps keeps trivial ?_
  rw [show Request.handle .templatesList service = _ from answered]
  exact .templatesList lists

theorem templates_list_by_type_steps (codec : ReadsBack) (keeps : KeepsRecords service base records)
    {imageType : String} (plain : (Request.templatesListByType imageType).Plain service.app) :
    Steps service base records (.templatesListByType imageType) := by
  obtain ⟨listed, -, lists, -, by_type⟩ := keeping_lists codec keeps.keeping
  obtain ⟨next, by_type⟩ := by_type imageType plain
  have answered := @store_answer _ service
    (fun state => state.templateStore.listByType imageType) _ _ by_type (orServerError .templates)
  refine reading_steps keeps trivial ?_
  rw [show Request.handle (.templatesListByType imageType) service = _ from answered]
  exact .templatesListByType imageType lists

theorem templates_get_steps (codec : ReadsBack) (keeps : KeepsRecords service base records)
    {imageType name : String} (plain : (Request.templatesGet imageType name).Plain service.app) :
    Steps service base records (.templatesGet imageType name) := by
  obtain ⟨next, got⟩ := (keeping_reads codec keeps.keeping).get imageType name plain
  have answered := @store_answer _ service
    (fun state => state.templateStore.get imageType name) _ _ got
  refine reading_steps keeps trivial ?_
  rw [show Request.handle (.templatesGet imageType name) service = _ from answered (orServerError _)]
  exact .templatesGet records imageType name

theorem templates_put_steps (codec : ReadsBack) (keeps : KeepsRecords service base records)
    {imageType name : String} {req : TemplateCreateRequest}
    (plain : (Request.templatesPut imageType name req).Plain service.app) :
    Steps service base records (.templatesPut imageType name req) := by
  obtain ⟨created, updated, put⟩ := put_refines codec keeps.keeping plain.type_entry
    plain.name_entry plain.unmarked req
  obtain ⟨next, put, keeping, beside⟩ := put.preserves
    (Beside.put req plain.type_entry.toOrdinary plain.name_entry.toOrdinary) keeps.beside
  have answered := @store_answer _ service
    (fun state => state.templateStore.put imageType name req) _ _ put (orServerError .template)
  rw [Steps, show Request.handle (.templatesPut imageType name req) service = _ from answered]
  exact ⟨_, .templatesPut records imageType name req created updated,
    keeps.change_templates beside keeping⟩

theorem templates_delete_steps (keeps : KeepsRecords service base records) {imageType name : String}
    (plain : (Request.templatesDelete imageType name).Plain service.app) :
    Steps service base records (.templatesDelete imageType name) := by
  obtain ⟨next, deleted, keeping, beside⟩ := (delete_refines keeps.keeping plain).preserves
    (Beside.delete plain.type_ordinary plain.name_ordinary) keeps.beside
  have answered := @store_answer _ service
    (fun state => state.templateStore.delete imageType name) _ _ deleted
    (orServerError fun found => .status (if found then .noContent else .notFound))
  rw [Steps, show Request.handle (.templatesDelete imageType name) service = _ from answered]
  exact ⟨_, .templatesDelete records imageType name, keeps.change_templates beside keeping⟩

theorem templates_backup_steps (codec : ReadsBack) (keeps : KeepsRecords service base records) :
    Steps service base records .templatesBackup := by
  obtain ⟨bundle, next, bundles, backed⟩ := keeping_bundles codec keeps.keeping
  have answered := @store_answer _ service (fun state => state.templateStore.backup) _ _ backed
    (orServerError .bundle)
  refine reading_steps keeps trivial ?_
  rw [show Request.handle .templatesBackup service = _ from answered]
  exact .templatesBackup bundles

theorem templates_restore_steps (codec : ReadsBack) (keeps : KeepsRecords service base records)
    {bundle : TemplateBundle} (plain : (Request.templatesRestore bundle).Plain service.app) :
    Steps service base records (.templatesRestore bundle) := by
  obtain ⟨templates, restores, imported⟩ := import_succeeds codec bundle.templates keeps.keeping
    fun entry listed => ⟨(plain entry listed).type_entry, (plain entry listed).name_entry,
      (plain entry listed).unmarked⟩
  obtain ⟨next, restored, keeping, beside⟩ := imported.preserves
    (import_preserves (fun _ _ req => Beside.put req) bundle.templates fun entry listed =>
      ⟨(plain entry listed).type_entry.toOrdinary, (plain entry listed).name_entry.toOrdinary⟩)
    keeps.beside
  have answered := @store_answer _ service (fun state => state.templateStore.restore bundle) _ _
    restored (orServerError .restored)
  rw [Steps, show Request.handle (.templatesRestore bundle) service = _ from answered]
  exact ⟨_, .templatesRestore bundle restores, keeps.change_templates beside keeping⟩

theorem assignments_put_steps (codec : TextCodec AssignmentsFile AssignmentsFile.Same)
    (keeps : KeepsRecords service base records) (hostname : String) (req : AssignmentRequest) :
    Steps service base records (.assignmentsPut hostname req) := by
  obtain ⟨next, changed, keeps⟩ := keeps.assign codec hostname
    (some { imageType := req.imageType, template := req.template }) .ok
  rw [Steps, show Request.handle (.assignmentsPut hostname req) service = _ from changed]
  exact ⟨_, .assignmentsPut records hostname req, keeps⟩

/-- An assignment is removed if there is one. -/
theorem assignments_delete_steps (codec : TextCodec AssignmentsFile AssignmentsFile.Same)
    (keeps : KeepsRecords service base records) (hostname : String) :
    Steps service base records (.assignmentsDelete hostname) := by
  have held : hostname ∈ service.app.assignments.assignments ↔
      (records.assignments hostname).isSome := assigned_iff keeps hostname
  have begins : Request.handle (.assignmentsDelete hostname) service =
      (if hostname ∉ service.app.assignments.assignments then return .status .notFound
      else changeAssignments (assigned · hostname none) .noContent : Handler Response) service :=
    bind_ok rfl
  have step : ServiceRecords.Step service.app records (.assignmentsDelete hostname) _ _ :=
    .assignmentsDelete records hostname
  rw [Steps, begins]
  by_cases there : hostname ∈ service.app.assignments.assignments
  · obtain ⟨next, changed, keeps⟩ := keeps.assign codec hostname none .noContent
    rw [if_neg (not_not.mpr there), changed]
    rw [if_pos (held.mp there)] at step
    exact ⟨_, step, keeps⟩
  · rw [if_pos there]
    rw [if_neg fun some_ => there (held.mpr some_)] at step
    refine ⟨_, step, ?_⟩
    rw [records.assign_none (Option.not_isSome_iff_eq_none.mp fun some_ => there (held.mpr some_))]
    exact keeps

/-- A host that is known by its address is recorded with the time. -/
theorem oneshot_provisioned_steps (codec : TextCodec OneshotState OneshotState.Same)
    (keeps : KeepsRecords service base records) (ip : IpAddr) :
    Steps service base records (.oneshotProvisioned ip) := by
  cases known : service.app.bmh.ipToHostname.lookup ip with
  | none =>
    rw [Steps, show Request.handle (.oneshotProvisioned ip) service = _ from provisioned_unknown known]
    exact ⟨records, .oneshotUnknown records known, keeps⟩
  | some hostname =>
    let stamped : Service := { service with disk := service.disk.tick }
    have ticked : KeepsRecords stamped base records := keeps.untouched ⟨_, rfl⟩
    obtain ⟨next, changed, keeps⟩ := ticked.complete codec hostname
      (some (toString (service.disk.clock service.disk.ticks))) .ok
    rw [Steps, show Request.handle (.oneshotProvisioned ip) service = _ from
      (provisioned_known known).trans changed]
    exact ⟨_, .oneshotProvisioned records known _, keeps⟩

theorem oneshot_delete_steps (codec : TextCodec OneshotState OneshotState.Same)
    (keeps : KeepsRecords service base records) (hostname : String) :
    Steps service base records (.oneshotDelete hostname) := by
  have held : hostname ∈ service.app.oneshot.completed ↔ (records.completed hostname).isSome :=
    completed_iff keeps hostname
  have begins : Request.handle (.oneshotDelete hostname) service =
      (if hostname ∉ service.app.oneshot.completed then return .status .notFound
      else changeOneshot (assigned · hostname none) .noContent : Handler Response) service :=
    bind_ok rfl
  have step : ServiceRecords.Step service.app records (.oneshotDelete hostname) _ _ :=
    .oneshotDelete records hostname
  rw [Steps, begins]
  by_cases there : hostname ∈ service.app.oneshot.completed
  · obtain ⟨next, changed, keeps⟩ := keeps.complete codec hostname none .noContent
    rw [if_neg (not_not.mpr there), changed]
    rw [if_pos (held.mp there)] at step
    exact ⟨_, step, keeps⟩
  · rw [if_pos there]
    rw [if_neg fun some_ => there (held.mpr some_)] at step
    refine ⟨_, step, ?_⟩
    rw [records.complete_none (Option.not_isSome_iff_eq_none.mp fun some_ => there (held.mpr some_))]
    exact keeps

/-- **One request is a step of the machine.** -/
theorem handle_step (codec : ReadsBack)
    (assignmentsCodec : TextCodec AssignmentsFile AssignmentsFile.Same)
    (oneshotCodec : TextCodec OneshotState OneshotState.Same)
    (keeps : KeepsRecords service base records) {request : Request}
    (plain : request.Plain service.app) (own : request ≠ .rebuildCache) :
    ∃ next, ServiceRecords.Step service.app records request (outcome (request.handle service)) next ∧
      KeepsRecords (service.after request) base next := by
  rw [after_eq]
  cases request with
  | ignitionConfig ip =>
    refine reading_steps keeps trivial ?_
    rw [show outcome (Request.handle (.ignitionConfig ip) service) = _ from
      serve_config_chosen codec keeps _ _ plain]
    exact .ignitionConfig records ip
  | kickstartConfig ip =>
    refine reading_steps keeps trivial ?_
    rw [show outcome (Request.handle (.kickstartConfig ip) service) = _ from
      serve_config_chosen codec keeps "text/plain"
        (fun metadata bmh => .ok (buildKickstart metadata bmh)) plain]
    exact .kickstartConfig records ip
  | userData ip =>
    refine reading_steps keeps trivial ?_
    rw [show outcome (Request.handle (.userData ip) service) = _ from
      serve_config_chosen codec keeps _ _ plain]
    exact .userData records ip
  | templatesList => exact templates_list_steps codec keeps
  | templatesListByType imageType => exact templates_list_by_type_steps codec keeps plain
  | templatesGet imageType name => exact templates_get_steps codec keeps plain
  | templatesPut imageType name req => exact templates_put_steps codec keeps plain
  | templatesDelete imageType name => exact templates_delete_steps keeps plain
  | templatesBackup => exact templates_backup_steps codec keeps
  | templatesRestore bundle => exact templates_restore_steps codec keeps plain
  | assignmentsList =>
    exact reading_steps keeps trivial (.assignmentsList keeps.assignments)
  | assignmentsPut hostname req => exact assignments_put_steps assignmentsCodec keeps hostname req
  | assignmentsDelete hostname => exact assignments_delete_steps assignmentsCodec keeps hostname
  | oneshotList => exact reading_steps keeps trivial (.oneshotList keeps.completed)
  | oneshotProvisioned ip => exact oneshot_provisioned_steps oneshotCodec keeps ip
  | oneshotDelete hostname => exact oneshot_delete_steps oneshotCodec keeps hostname
  | rebuildCache => exact absurd rfl own

end Steps

end Requests

/-! ## Starts -/

/-- A directory that is open is made without a change. -/
theorem create_dir_all_open {disk : Disk} {path : String} {place : List String}
    (healthy : disk.Healthy) (opens : disk.Opens path place) :
    createDirAll path disk = .ok () disk.tick := by
  rw [createDirAll]
  refine (bind_ok rfl).trans ?_
  rw [healthy, if_neg opens.no_nul]
  refine (bind_ok rfl).trans ((bind_ok rfl).trans ?_)
  dsimp only
  rw [components_eq]
  have passed := make_dirs_existing (walk_ok_of_keeps_dirs (same_dirs_tick disk).keeps opens.walked)
    opens.is_dir (if endsInSlash path then ["."] else [])
  refine passed.trans ?_
  split
  · rw [makeDirs, if_pos rfl]
    rfl
  · rfl

theorem ensure_dir_open {disk : Disk} {path : String} {place : List String}
    (healthy : disk.Healthy) (opens : disk.Opens path place) :
    ∃ ticks, TemplateStore.ensureDir path disk = .ok () { disk with ticks } := by
  have asked := file_exists_eq healthy path
  rw [TemplateStore.ensureDir, bind_ok asked]
  cases (disk.find path).toBool with
  | true => exact ⟨_, rfl⟩
  | false =>
    exact ⟨_, create_dir_all_open healthy (opens.of_same_dirs (same_dirs_tick disk))⟩

/-- An empty data directory. -/
structure EmptyVolume (disk : Disk) (dataDir : String) (base : List String) : Prop where
  healthy : disk.Healthy
  opens : disk.Opens dataDir base
  nothing : ∀ rest, rest ≠ [] → disk.node? (base ++ rest) = none

section Starts

variable [Deserialize AssignmentsFile] [Deserialize OneshotState]

/-- The shared state of a start, by what is read from the two files. -/
def AppState.started (readFile : String → Option String) (config : Config) (disk : Disk) :
    AppState :=
  let templateStore : TemplateStore := { dataDir := config.templates.dataDir }
  { identity := loadStaticIdentity readFile config
    templateStore
    assignments := ((disk.readText templateStore.assignmentsPath).bind Deserialize.fromStr).getD {}
    oneshot := ((disk.readText templateStore.oneshotPath).bind Deserialize.fromStr).getD {}
    config }

theorem new_after_init {readFile : String → Option String} {config : Config} {disk next : Disk}
    (healthy : next.Healthy)
    (init : TemplateStore.init { dataDir := config.templates.dataDir } disk = .ok () next) :
    ∃ ticks, AppState.new readFile config disk =
      .ok (.started readFile config next) { next with ticks } := by
  have attempted : attempt (TemplateStore.init { dataDir := config.templates.dataDir }) disk =
      .ok (.ok ()) next := by rw [attempt, init]
  have oneshot := load_oneshot_eq (show next.tick.Healthy from healthy)
    { dataDir := config.templates.dataDir }
  have same : next.tick.readText (TemplateStore.oneshotPath { dataDir := config.templates.dataDir }) =
      next.readText (TemplateStore.oneshotPath { dataDir := config.templates.dataDir }) := by
    rw [readText, readText, file_at_tick]
  rw [same] at oneshot
  refine ⟨next.ticks + 1 + 1, ?_⟩
  exact (bind_ok attempted).trans ((bind_ok (load_assignments_eq healthy _)).trans (bind_ok oneshot))

variable [Serialize TemplateMeta]

omit [Deserialize AssignmentsFile] [Deserialize OneshotState] [Serialize TemplateMeta] in
/-- What is not there has no text. -/
theorem read_text_absent {disk : Disk} {base file : String} {place : List String}
    (opens : disk.Opens base place) (ordinary : Ordinary file)
    (absent : disk.node? (place ++ [file]) = none) : disk.readText (join base file) = none := by
  rw [readText, Option.bind_eq_none_iff]
  intro content held
  rw [file_at_entry opens ordinary, absent] at held
  cases held.2

/-- **A first start keeps nothing.** -/
theorem new_keeps_nothing (readFile : String → Option String) {config : Config} {disk : Disk}
    {base : List String} (empty : EmptyVolume disk config.templates.dataDir base) :
    ∃ service : Service, AppState.new readFile config disk = .ok service.app service.disk ∧
      service.app.templateStore.dataDir = config.templates.dataDir ∧
      KeepsRecords service base {} := by
  have ordinary : Ordinary "templates" := by decide
  obtain ⟨ticks, first⟩ := ensure_dir_open empty.healthy empty.opens
  let opened : Disk := { disk with ticks }
  let made := opened.tick.tick.makeDir (base ++ ["templates"])
  have opens : opened.tick.Opens config.templates.dataDir base :=
    empty.opens.of_same_dirs ((same_dirs_ticks disk ticks).trans (same_dirs_tick opened))
  have absent : opened.tick.node? (base ++ ["templates"]) = none := empty.nothing _ (by simp)
  have second : TemplateStore.ensureDir (join config.templates.dataDir "templates") opened =
      .ok () made := by
    have missing : fileExists (join config.templates.dataDir "templates") opened =
        .ok false opened.tick := by
      rw [file_exists_eq (show opened.Healthy from empty.healthy), ← find_tick,
        find_entry opens ordinary (by decide), absent]
      rfl
    rw [TemplateStore.ensureDir, bind_ok missing]
    refine (create_dir_all_entry (show opened.tick.Healthy from empty.healthy) opens ordinary
      (by decide)).trans ?_
    rw [absent]
  have init : TemplateStore.init { dataDir := config.templates.dataDir } disk = .ok () made :=
    (bind_ok first).trans second
  obtain ⟨ticks', started⟩ := @new_after_init _ _ readFile config _ _
    (show made.Healthy from empty.healthy) init
  have nodes : ∀ rest, rest ≠ [] → rest ≠ ["templates"] → made.node? (base ++ rest) = none := by
    intro rest below other
    rw [node_make_dir, if_neg (by simpa using other)]
    exact empty.nothing rest below
  have made_opens : made.Opens config.templates.dataDir base :=
    opens.of_keeps_dirs (keeps_dirs_make_dir opened.tick _)
  have made_last := same_dirs_ticks made ticks'
  have no_text : ∀ ticks file, Ordinary file → file ≠ "templates" →
      Disk.readText { made with ticks } (join config.templates.dataDir file) = none :=
    fun ticks file ordinary other =>
      read_text_absent (made_opens.of_same_dirs (same_dirs_ticks made ticks)) ordinary
        (nodes [file] (by simp) (by simpa using other))
  have store : EmptyStore { dataDir := config.templates.dataDir } { made with ticks := ticks' }
      (base ++ ["templates"]) := by
    refine ⟨empty.healthy, ?_, fun rest below => ?_⟩
    · refine (made_opens.of_same_dirs made_last).join ordinary (by decide) ?_
      exact (node_make_dir _).trans (if_pos rfl)
    · rw [List.append_assoc]
      exact nodes _ (by simp) (by simpa using below)
  refine ⟨⟨.started readFile config made, { made with ticks := ticks' }⟩, started, rfl,
    made_opens.of_same_dirs made_last, empty_keeping store, ?_, ?_, ?_, ?_, ?_⟩
  · intro file listed
    have below : file ≠ "templates" := by
      rintro rfl
      exact absurd listed (by decide)
    have nothing : made.node? (base ++ [file]) = none := nodes [file] (by simp) (by simpa using below)
    exact fun is_dir => absurd (nothing.symm.trans is_dir) (by simp)
  · simp only [AppState.started, TemplateStore.assignmentsPath,
      no_text made.ticks _ assignments_ordinary (by decide)]
    rfl
  · simp only [AppState.started, TemplateStore.oneshotPath,
      no_text made.ticks _ oneshot_ordinary (by decide)]
    rfl
  · rw [reloaded_assignments_eq]
    simp only [AppState.started, TemplateStore.assignmentsPath,
      no_text ticks' _ assignments_ordinary (by decide)]
    rfl
  · rw [reloaded_completions_eq]
    simp only [AppState.started, TemplateStore.oneshotPath,
      no_text ticks' _ oneshot_ordinary (by decide)]
    rfl

/-- **A restart finds the records.** -/
theorem new_keeps_records (readFile : String → Option String) {config : Config} {service : Service}
    {base : List String} {records : ServiceRecords} (keeps : KeepsRecords service base records)
    (same_dir : config.templates.dataDir = service.app.templateStore.dataDir) :
    ∃ next : Service, AppState.new readFile config service.disk = .ok next.app next.disk ∧
      KeepsRecords next base records := by
  have shown := keeps.keeping.shown
  have store : service.app.templateStore = { dataDir := config.templates.dataDir } := by
    rw [same_dir]
  obtain ⟨ticks, first⟩ := ensure_dir_open shown.healthy keeps.opens
  obtain ⟨ticks', second⟩ := ensure_dir_open (show Disk.Healthy { service.disk with ticks } from
    shown.healthy) (shown.opens.of_same_dirs (same_dirs_ticks service.disk ticks))
  have init : TemplateStore.init service.app.templateStore service.disk =
      .ok () { service.disk with ticks := ticks' } := (bind_ok first).trans second
  rw [store] at init
  obtain ⟨ticks'', made⟩ := @new_after_init _ _ readFile config _ _
    (show Disk.Healthy { service.disk with ticks := ticks' } from shown.healthy) init
  have untouched : KeepsRecords { service with disk := { service.disk with ticks := ticks'' } } base
      records := keeps.untouched ⟨ticks'', rfl⟩
  have same_text : ∀ ticks file, Ordinary file →
      Disk.readText { service.disk with ticks } (join config.templates.dataDir file) =
        service.disk.readText (join service.app.templateStore.dataDir file) := by
    intro ticks file ordinary
    rw [same_dir]
    exact read_text_entry keeps.opens (keeps.opens.of_same_dirs (same_dirs_ticks service.disk ticks))
      ordinary rfl
  have opens := untouched.opens
  have keeping := untouched.keeping
  have assignments := keeps.saved_assignments
  have completed := keeps.saved_completed
  rw [store] at opens keeping
  rw [reloaded_assignments_eq] at assignments
  rw [reloaded_completions_eq] at completed
  refine ⟨⟨.started readFile config { service.disk with ticks := ticks' },
    { service.disk with ticks := ticks'' }⟩, made, opens, keeping, untouched.writable, ?_, ?_, ?_, ?_⟩
  · rw [← assignments]
    simp only [AppState.started, TemplateStore.assignmentsPath,
      same_text _ _ assignments_ordinary]
  · rw [← completed]
    simp only [AppState.started, TemplateStore.oneshotPath, same_text _ _ oneshot_ordinary]
  · rw [← assignments, reloaded_assignments_eq]
    simp only [AppState.started, TemplateStore.assignmentsPath,
      same_text _ _ assignments_ordinary]
  · rw [← completed, reloaded_completions_eq]
    simp only [AppState.started, TemplateStore.oneshotPath, same_text _ _ oneshot_ordinary]

end Starts

/-! ## Runs -/

section Runs

variable [Serialize CloudConfig] [Serialize Json] [Deserialize Json] [Serialize IgnitionConfig]
  [Serialize TemplateMeta] [Deserialize TemplateMeta] [Serialize AssignmentsFile]
  [Deserialize AssignmentsFile] [Serialize OneshotState] [Deserialize OneshotState]
  (library : HttpLibrary)

/-- What happens to the service: a request over HTTP, a change of what the watchers have
learned, or a restart. -/
inductive ServiceEvent where
  | http (request : HttpRequest)
  | learned (identity : IdentityState) (bmh : BmhState) (containers : ContainerState)
      (dataNamespaces : List String) (metadataCache : HashMap IpAddr HostMetadata)
  | restart (readFile : String → Option String) (config : Config)

/-- The service after an event. -/
def Service.next (service : Service) : ServiceEvent → Service
  | .http request => service.afterHttp library request
  | .learned identity bmh containers dataNamespaces metadataCache =>
    { service with app :=
      { service.app with identity, bmh, containers, dataNamespaces, metadataCache } }
  | .restart readFile config =>
    match AppState.new readFile config service.disk with
    | .ok app disk => { app, disk }
    | .error _ disk => { service with disk }

/-- The names of a request are plain, and a restart is on the same data directory. -/
def ServiceEvent.Plain (service : Service) : ServiceEvent → Prop
  | .http request => ∀ named, library.request? request = some named → named.Plain service.app
  | .learned _ _ _ _ _ => True
  | .restart _ config => config.templates.dataDir = service.app.templateStore.dataDir

/-- An answer of the machine, as it is sent. -/
def sent : Except Panic Response → Reply
  | .ok response => .served response
  | .error _ => .panicked

/-- The answers of a run are those of the machine, and nothing but requests changes the
records. -/
inductive ServiceRecords.Run : Service → ServiceRecords → List ServiceEvent → ServiceRecords → Prop where
  | done (service : Service) (records : ServiceRecords) : Run service records [] records
  | request {service : Service} {records next last : ServiceRecords} {request : HttpRequest}
      {named : Request} {result : Except Panic Response} {events : List ServiceEvent}
      (asks : library.request? request = some named)
      (answered : (service.http library request).1 = sent result)
      (step : ServiceRecords.Step service.app records named result next)
      (later : Run (service.next library (.http request)) next events last) :
      Run service records (.http request :: events) last
  | other {service : Service} {records last : ServiceRecords} {event : ServiceEvent}
      {events : List ServiceEvent}
      (no_record : ∀ request, event = .http request → library.request? request = none)
      (later : Run (service.next library event) records events last) :
      Run service records (event :: events) last

variable {library} {service : Service} {base : List String} {records : ServiceRecords}

theorem http_step (codec : ReadsBack)
    (assignmentsCodec : TextCodec AssignmentsFile AssignmentsFile.Same)
    (oneshotCodec : TextCodec OneshotState OneshotState.Same)
    (keeps : KeepsRecords service base records) {request : HttpRequest} {named : Request}
    (asks : library.request? request = some named) (plain : named.Plain service.app) :
    ∃ result next, (service.http library request).1 = sent result ∧
      ServiceRecords.Step service.app records named result next ∧
      KeepsRecords (service.afterHttp library request) base next := by
  obtain ⟨next, step, kept⟩ := handle_step codec assignmentsCodec oneshotCodec keeps plain
    (request_ne_rebuild asks)
  refine ⟨_, next, ?_, step, ?_⟩
  · rw [http_of_request asks]
    rw [answerRequest]
    cases handled : named.handle service with
    | ok response after => rw [bind_ok handled]; rfl
    | error panic after => rw [bind_error handled]; rfl
  · rw [Service.afterHttp, http_of_request asks]
    exact kept

/-- The other requests leave the records as they are, a request for a token among them. -/
theorem http_other (keeps : KeepsRecords service base records) {request : HttpRequest}
    (no_record : library.request? request = none) :
    KeepsRecords (service.afterHttp library request) base records := by
  rcases http_cases library service request with ⟨named, asks, -⟩ | ⟨header, -, after⟩ | ⟨-, same⟩
  · rw [no_record] at asks
    cases asks
  · rw [after]
    have ticked : KeepsRecords { service with disk := service.disk.tick.tick } base records :=
      keeps.untouched ⟨_, rfl⟩
    exact ticked.transfer rfl rfl rfl rfl
  · rw [same]
    exact keeps

theorem next_other (keeps : KeepsRecords service base records) {event : ServiceEvent}
    (plain : event.Plain library service)
    (no_record : ∀ request, event = .http request → library.request? request = none) :
    KeepsRecords (service.next library event) base records := by
  cases event with
  | http request => exact http_other keeps (no_record request rfl)
  | learned identity bmh containers dataNamespaces metadataCache =>
    exact keeps.transfer rfl rfl rfl rfl
  | restart readFile config =>
    obtain ⟨next, started, kept⟩ := new_keeps_records readFile keeps plain
    rw [Service.next, started]
    exact kept

theorem records_run (codec : ReadsBack)
    (assignmentsCodec : TextCodec AssignmentsFile AssignmentsFile.Same)
    (oneshotCodec : TextCodec OneshotState OneshotState.Same)
    (keeps : KeepsRecords service base records) {events : List ServiceEvent}
    (plain : Each (Service.next library) (ServiceEvent.Plain library) service events) :
    ∃ last, ServiceRecords.Run library service records events last ∧
      KeepsRecords (events.foldl (Service.next library) service) base last := by
  induction events generalizing service records with
  | nil => exact ⟨records, .done service records, keeps⟩
  | cons event events step =>
    obtain ⟨own, rest⟩ := plain
    by_cases asks : ∃ request named, event = .http request ∧
        library.request? request = some named
    · obtain ⟨request, named, rfl, asks⟩ := asks
      obtain ⟨result, next, answered, step', kept⟩ :=
        http_step codec assignmentsCodec oneshotCodec keeps asks (own named asks)
      obtain ⟨last, later, kept⟩ := step kept rest
      exact ⟨last, .request asks answered step' later, kept⟩
    · have no_record : ∀ request, event = .http request → library.request? request = none := by
        intro request same
        by_contra present
        obtain ⟨named, asks'⟩ := Option.ne_none_iff_exists'.mp present
        exact asks ⟨request, named, same, asks'⟩
      obtain ⟨last, later, kept⟩ := step (next_other keeps own no_record) rest
      exact ⟨last, .other no_record later, kept⟩

/-- **The service is its records.** After a first start on an empty data volume, the service
answers the requests to the provisioning endpoints as the machine does that begins without
records, and it keeps the records of the machine in memory and on the volume: across changes of
what the watchers have learned, requests of other kinds and restarts. -/
theorem service_is_its_records (codec : ReadsBack)
    (assignmentsCodec : TextCodec AssignmentsFile AssignmentsFile.Same)
    (oneshotCodec : TextCodec OneshotState OneshotState.Same)
    {readFile : String → Option String} {config : Config} {disk : Disk} {base : List String}
    (empty : EmptyVolume disk config.templates.dataDir base) {service : Service}
    (started : AppState.new readFile config disk = .ok service.app service.disk)
    {events : List ServiceEvent}
    (plain : Each (Service.next library) (ServiceEvent.Plain library) service events) :
    ∃ last, ServiceRecords.Run library service {} events last ∧
      KeepsRecords (events.foldl (Service.next library) service) base last := by
  obtain ⟨made, started', -, keeps⟩ := new_keeps_nothing readFile empty
  rw [started'] at started
  injection started with same_app same_disk
  have same : made = service := by
    cases made
    cases service
    simp_all
  rw [same] at keeps
  exact records_run codec assignmentsCodec oneshotCodec keeps plain

end Runs

section Sample

attribute [local instance] cloudConfigText Json.prettyText emptyObjectReader ignitionText
  templateMetaText templateMetaParser assignmentsText assignmentsReader oneshotText oneshotReader

/-- A data volume before the first start. -/
def freshVolume : Disk where
  nodes := (∅ : HashMap (List String) Node).insert ["data"] .dir

def freshConfig : Config := { sharedAddress.config with templates := { dataDir := "/data" } }

theorem fresh_volume_empty : EmptyVolume freshVolume freshConfig.templates.dataDir ["data"] where
  healthy _ := rfl
  opens := ⟨by decide, by decide +kernel, by rfl⟩
  nothing := by
    intro rest nonempty
    have keys : freshVolume.nodes.keys = [["data"]] := by decide
    rw [node?, if_neg (by simp), AList.lookup_eq_none, AList.mem_keys, keys]
    simp [nonempty]

/-- The service after the first start. -/
def firstStart : Service :=
  match AppState.new (fun _ => none) freshConfig freshVolume with
  | .ok app disk => { app, disk }
  | .error _ disk => { app := { templateStore := { dataDir := "/data" }, config := freshConfig }, disk }

theorem first_start_made :
    AppState.new (fun _ => none) freshConfig freshVolume = .ok firstStart.app firstStart.disk := by
  obtain ⟨made, started, -⟩ := new_keeps_nothing (fun _ => none) fresh_volume_empty
  rw [firstStart, started]

/-- Root puts a oneshot template and assigns it to `web1`. -/
def installTemplate : HttpRequest where
  method := .put
  uri := "/api/v1/templates/fedora/web.ks"
  body := "\x7b\"mode\": \"oneshot\", \"content\": \"reboot\"\x7d"
  ip := .v4 10 0 0 1

def installAssignment : HttpRequest where
  method := .put
  uri := "/api/v1/assignments/web1"
  body := "\x7b\"image_type\": \"fedora\", \"template\": \"web.ks\"\x7d"
  ip := .v4 10 0 0 1

/-- The host `web1` asks for its installer, and reports that it is installed. -/
def kickstartRequest : HttpRequest where
  method := .get
  uri := "/config/kickstart"
  ip := .v4 10 0 0 5

def provisionedRequest : HttpRequest where
  method := .post
  uri := "/config/provisioned"
  ip := .v4 10 0 0 5

def completionsRequest : HttpRequest where
  method := .get
  uri := "/api/v1/oneshot"
  ip := .v4 10 0 0 1

def installCalls : HttpLibrary := .knowing [
  (installTemplate, .handled .templatesPut
    ("fedora", "web.ks", { mode := .oneshot, content := "reboot" })),
  (installAssignment, .handled .assignmentsPut
    ("web1", { imageType := "fedora", template := "web.ks" })),
  (kickstartRequest, .handled .kickstartConfig ()),
  (provisionedRequest, .handled .oneshotProvisioned ()),
  (completionsRequest, .handled .oneshotList ())]

theorem install_called : installCalls installTemplate = .handled .templatesPut
    ("fedora", "web.ks", { mode := .oneshot, content := "reboot" }) :=
  knowing_head _ _ _

theorem assignment_called : installCalls installAssignment = .handled .assignmentsPut
    ("web1", { imageType := "fedora", template := "web.ks" }) :=
  (knowing_next (by decide)).trans (knowing_head _ _ _)

theorem kickstart_called : installCalls kickstartRequest = .handled .kickstartConfig () :=
  (knowing_next (by decide)).trans ((knowing_next (by decide)).trans (knowing_head _ _ _))

theorem provisioned_called : installCalls provisionedRequest = .handled .oneshotProvisioned () :=
  (knowing_next (by decide)).trans ((knowing_next (by decide)).trans ((knowing_next (by decide)).trans
    (knowing_head _ _ _)))

theorem completions_called : installCalls completionsRequest = .handled .oneshotList () :=
  (knowing_next (by decide)).trans ((knowing_next (by decide)).trans ((knowing_next (by decide)).trans
    ((knowing_next (by decide)).trans (knowing_head _ _ _))))

/-- What is plain of the request that is made is plain of the request. -/
theorem plain_of_called {library : HttpLibrary} {request : HttpRequest} {endpoint : Endpoint}
    {args : endpoint.Args} (called : library request = .handled endpoint args) {app : AppState}
    {own : Request} (asks : endpoint.request? request.ip args = some own) (plain : own.Plain app) :
    ∀ named, library.request? request = some named → named.Plain app := by
  intro named asked
  have same : endpoint.request? request.ip args = some named := by
    rw [← asked, HttpLibrary.request?, called]
  rw [asks] at same
  rwa [← Option.some.inj same]

/-- What the watchers learn: the host `web1`, and who has access to it. -/
def labLearned : ServiceEvent := .learned overlappingRules sharedAddress.bmh {} [] ∅

/-- The service when the host asks for its installer. -/
def installing : Service :=
  ((firstStart.next installCalls labLearned).next installCalls (.http installTemplate)).next
    installCalls (.http installAssignment)

theorem installing_plain {service : Service} (same : service = installing) :
    PlainReference service.app (.v4 10 0 0 5) := by
  have host : (installing.app.resolveOnDemand (.v4 10 0 0 5)).map HostMetadata.localHostname =
      some "web1" := by decide +kernel
  have leads : resolveTemplateRef installing.app "web1" (installing.app.getBmh "web1") =
      some ("fedora", "web.ks") := by decide +kernel
  intro metadata known imageType name reference
  rw [same] at known reference
  rw [known, Option.map_some, Option.some.injEq] at host
  rw [host, leads] at reference
  obtain ⟨rfl, rfl⟩ := Prod.mk.inj (Option.some.inj reference)
  exact ⟨by decide, by decide, by decide⟩

/-- The host is installed, and the service is restarted. -/
def firstInstall : List ServiceEvent := [labLearned, .http installTemplate,
  .http installAssignment, .http kickstartRequest, .http provisionedRequest,
  .restart (fun _ => none) freshConfig, .http completionsRequest]

theorem service_is_its_records_first_install :
    ∃ last, ServiceRecords.Run installCalls firstStart {} firstInstall last ∧
      KeepsRecords (firstInstall.foldl (Service.next installCalls) firstStart) ["data"] last := by
  refine service_is_its_records template_meta_reads_back assignments_codec oneshot_codec
    fresh_volume_empty first_start_made ⟨trivial, ?_, ?_, ?_, ?_, ?_, ?_, trivial⟩
  · exact plain_of_called install_called rfl ⟨by decide, by decide, by decide⟩
  · exact plain_of_called assignment_called rfl trivial
  · exact plain_of_called kickstart_called rfl (installing_plain rfl)
  · exact plain_of_called provisioned_called rfl trivial
  · change "/data" = _
    decide +kernel
  · exact plain_of_called completions_called rfl trivial

end Sample

end CloudId
