import CloudId.Persistence

/-! Requests that are refused because their change could not be persisted, on a
data volume where a failing save leaves the file as it was. The handlers change
the memory first, so a refusal leaves it ahead of the file, unless the change was
none. -/
namespace CloudId
open Effects FileSystem GuardedRun WriteThrough

theorem refused_answer_iff {success : StatusCode} (counts : success = .ok ∨ success = .noContent)
    {ends : WriteEnd} (whole : ends = .refused ∨ ends = .saved) :
    saveAnswer success ends = .status .internalServerError ↔ ends = .refused := by
  rcases whole with rfl | rfl
  · simp [saveAnswer]
  · rcases counts with rfl | rfl <;> simp [saveAnswer]

/-- A refused change of an entry leaves a map as it was exactly when it is none. -/
theorem same_assigned_iff {υ : Type} (held : HashMap String υ) (key : String) (value : Option υ) :
    HashMap.Same (assigned held key value) held ↔ held.lookup key = value := by
  have lookups : HashMap.Same (assigned held key value) held ↔
      (assigned held key value).lookup = held.lookup := funext_iff.symm
  rw [lookups, lookup_assigned, Function.update_eq_self_iff, eq_comm]

section Refusals

variable [Serialize AssignmentsFile] [Serialize OneshotState]

def Service.afterEvent (service : Service) (event : RecordEvent) : Service :=
  (service.respond event).2

/-- No write of the volume stops half way: it is done, or it changes nothing. -/
def Service.Uncut (service : Service) : Prop :=
  ∀ tick written, service.disk.fault tick ≠ some (.cut written)

/-- A request that is refused leaves the assignments and the completions as they
were. -/
def Service.RefusalChangesNothing (service : Service) (event : RecordEvent) : Prop :=
  (service.respond event).1 = .status .internalServerError →
    HashMap.Same (service.afterEvent event).app.assignments.assignments
      service.app.assignments.assignments ∧
    HashMap.Same (service.afterEvent event).app.oneshot.completed service.app.oneshot.completed

/-- If the save that comes with the event fails, the event asks for the entry that
the memory has already. -/
def Service.IdleWhenRefused (service : Service) (event : RecordEvent) : Prop :=
  (∀ change, service.assignmentChange event = some change → change.ends = .refused →
    service.app.assignments.assignments.lookup change.key = change.value) ∧
  ∀ change, service.completionChange event = some change → change.ends = .refused →
    service.app.oneshot.completed.lookup change.key = change.value

theorem uncut_after {service : Service} (uncut : service.Uncut) (event : RecordEvent) :
    (service.afterEvent event).Uncut := by
  have saved : ∀ path content,
      (finalState (write path content service.disk)).fault = service.disk.fault :=
    fun _ _ => write_keeps_fault ..
  have fault : (service.afterEvent event).disk.fault = service.disk.fault := by
    rw [Service.afterEvent, respond_eq]
    cases event with
    | assignmentsPut hostname req => exact saved _ _
    | assignmentsDelete hostname =>
      dsimp only
      split
      · exact saved _ _
      · rfl
    | oneshotProvisioned ip =>
      dsimp only
      split
      · rfl
      · exact write_keeps_fault ..
    | oneshotDelete hostname =>
      dsimp only
      split
      · exact saved _ _
      · rfl
    | hostsLearned bmh => rfl
  intro tick written
  rw [fault]
  exact uncut tick written

omit [Serialize OneshotState] in
theorem assignment_refusal_iff {service : Service} (uncut : service.Uncut) {success : StatusCode}
    (counts : success = .ok ∨ success = .noContent) (hostname : String)
    (value : Option Assignment) :
    (saveAnswer success (service.assignmentSave hostname value).ends =
        .status .internalServerError →
      HashMap.Same (service.afterAssignmentSave hostname value).app.assignments.assignments
        service.app.assignments.assignments ∧
      HashMap.Same (service.afterAssignmentSave hostname value).app.oneshot.completed
        service.app.oneshot.completed) ↔
    ((service.assignmentSave hostname value).ends = .refused →
      service.app.assignments.assignments.lookup hostname = value) := by
  have whole : (service.assignmentSave hostname value).ends = .refused ∨
      (service.assignmentSave hostname value).ends = .saved :=
    write_end_of_uncut (uncut service.disk.ticks) _ _
  rw [refused_answer_iff counts whole, ← same_assigned_iff]
  exact imp_congr Iff.rfl (and_iff_left fun _ => rfl)

omit [Serialize AssignmentsFile] in
theorem completion_refusal_iff {service : Service} (uncut : service.Uncut) {success : StatusCode}
    (counts : success = .ok ∨ success = .noContent) (hostname : String)
    (value : Option String) :
    (saveAnswer success (service.completionSave hostname value).ends =
        .status .internalServerError →
      HashMap.Same (service.afterCompletionSave hostname value).app.assignments.assignments
        service.app.assignments.assignments ∧
      HashMap.Same (service.afterCompletionSave hostname value).app.oneshot.completed
        service.app.oneshot.completed) ↔
    ((service.completionSave hostname value).ends = .refused →
      service.app.oneshot.completed.lookup hostname = value) := by
  have whole : (service.completionSave hostname value).ends = .refused ∨
      (service.completionSave hostname value).ends = .saved :=
    write_end_of_uncut (uncut service.disk.ticks) _ _
  rw [refused_answer_iff counts whole, ← same_assigned_iff]
  exact imp_congr Iff.rfl (and_iff_right fun _ => rfl)

/-- **A refusal changes nothing exactly when it refuses nothing.** -/
theorem refusal_changes_nothing_iff {service : Service} (uncut : service.Uncut)
    (event : RecordEvent) :
    service.RefusalChangesNothing event ↔ service.IdleWhenRefused event := by
  rw [Service.RefusalChangesNothing, Service.IdleWhenRefused, Service.afterEvent, respond_eq]
  cases event with
  | assignmentsPut hostname req =>
    simp only [Service.assignmentChange, Service.completionChange, Option.some.injEq,
      forall_eq', reduceCtorEq, false_imp_iff, implies_true, and_true]
    exact assignment_refusal_iff uncut (Or.inl rfl) hostname _
  | assignmentsDelete hostname =>
    by_cases held : hostname ∈ service.app.assignments.assignments
    · simp only [Service.assignmentChange, Service.completionChange, held, if_true,
        Option.some.injEq, forall_eq', reduceCtorEq, false_imp_iff, implies_true, and_true]
      exact assignment_refusal_iff uncut (Or.inr rfl) hostname none
    · simp [Service.assignmentChange, Service.completionChange, held, Response.status.injEq]
  | oneshotProvisioned ip =>
    cases known : service.app.bmh.ipToHostname.lookup ip with
    | none => simp [Service.assignmentChange, Service.completionChange, known]
    | some hostname =>
      simp only [Service.assignmentChange, Service.completionChange, known, Option.map_some,
        Option.some.injEq, forall_eq', reduceCtorEq, false_imp_iff, implies_true, true_and]
      have uncut' : { service with disk := service.disk.tick : Service }.Uncut := uncut
      exact completion_refusal_iff uncut' (Or.inl rfl) hostname _
  | oneshotDelete hostname =>
    by_cases held : hostname ∈ service.app.oneshot.completed
    · simp only [Service.assignmentChange, Service.completionChange, held, if_true,
        Option.some.injEq, forall_eq', reduceCtorEq, false_imp_iff, implies_true, true_and]
      exact completion_refusal_iff uncut (Or.inr rfl) hostname none
    · simp [Service.assignmentChange, Service.completionChange, held]
  | hostsLearned bmh => simp [Service.assignmentChange, Service.completionChange]

end Refusals

/-! ## What is served -/

/-- Two states that differ at most in how the assignments and the completions are
enumerated. -/
structure SameRecords (first second : AppState) : Prop where
  config : first.config = second.config
  templateStore : first.templateStore = second.templateStore
  assignments : HashMap.Same first.assignments.assignments second.assignments.assignments
  completions : HashMap.Same first.oneshot.completed second.oneshot.completed

theorem same_keys {υ : Type} {first second : HashMap String υ} (same : HashMap.Same first second)
    (key : String) : key ∈ first ↔ key ∈ second := by
  rw [← AList.lookup_isSome, ← AList.lookup_isSome, same key]

theorem resolve_template_ref_same {first second : AppState} (same : SameRecords first second)
    (hostname : String) (bmh : Option BareMetalHost) :
    resolveTemplateRef first hostname bmh = resolveTemplateRef second hostname bmh := by
  rw [resolveTemplateRef, resolveTemplateRef, same.assignments hostname, same.config]

section Serving

variable [Serialize Json] [Deserialize Json] [Deserialize TemplateMeta]

/-- What `resolve_and_build` returns. -/
def Service.served (service : Service) (hostname : String) (metadata : HostMetadata)
    (bmh : Option BareMetalHost) : Except Panic TemplateResult :=
  match resolveAndBuild hostname metadata bmh service with
  | .ok result _ => .ok result
  | .error panic _ => .error panic

omit [Serialize Json] [Deserialize Json] in
theorem load_template_same (first second : AppState) (store : TemplateStore)
    (reference : Option (String × String)) (disk : Disk) :
    ∃ loaded next, loadTemplate store reference { app := first, disk } =
        .ok loaded { app := first, disk := next } ∧
      loadTemplate store reference { app := second, disk } =
        .ok loaded { app := second, disk := next } := by
  cases reference with
  | none => exact ⟨none, disk, rfl, rfl⟩
  | some reference =>
    obtain ⟨imageType, name⟩ := reference
    cases got : store.get imageType name disk with
    | ok found next =>
      have io : ∀ app : AppState, Handler.io (store.get imageType name) { app, disk } =
          .ok (.ok found) { app, disk := next } := by
        intro app
        rw [Handler.io, got]
      exact ⟨found, next, bind_ok (io first), bind_ok (io second)⟩
    | error error next =>
      have io : ∀ app : AppState, Handler.io (store.get imageType name) { app, disk } =
          .ok (.error error) { app, disk := next } := by
        intro app
        rw [Handler.io, got]
      exact ⟨none, next, bind_ok (io first), bind_ok (io second)⟩

/-- The same is served from the same records. -/
theorem served_same {first second : AppState} (same : SameRecords first second) (disk : Disk)
    (hostname : String) (metadata : HostMetadata) (bmh : Option BareMetalHost) :
    Service.served { app := first, disk } hostname metadata bmh =
      Service.served { app := second, disk } hostname metadata bmh := by
  rw [Service.served, Service.served, resolve_and_build_begins, resolve_and_build_begins]
  dsimp only
  by_cases completed : hostname ∈ second.oneshot.completed
  · rw [if_pos completed, if_pos ((same_keys same.completions hostname).mpr completed)]
    rfl
  · rw [if_neg completed, if_neg (mt (same_keys same.completions hostname).mp completed)]
    obtain ⟨loaded, next, found, found'⟩ := load_template_same first second first.templateStore
      (resolveTemplateRef first hostname bmh) disk
    rw [bind_ok found]
    rw [same.templateStore, resolve_template_ref_same same] at found'
    rw [bind_ok found', same.config]
    cases loaded with
    | none => rfl
    | some loaded =>
      rw [builtFrom]
      cases renderTemplate second.config.metadata metadata loaded with
      | ok content => rfl
      | error panic => rfl

variable [Deserialize AssignmentsFile] [Deserialize OneshotState]

/-- The service with what a restart would load. -/
def Service.restarted (service : Service) : Service where
  app := { service.app with
    assignments := { assignments := service.reloadedAssignments }
    oneshot := { completed := service.reloadedCompletions } }
  disk := service.disk

/-- What is served is what would be served after a restart. -/
def Service.ServesAsRestarted (service : Service) : Prop :=
  ∀ hostname metadata bmh,
    service.served hostname metadata bmh = service.restarted.served hostname metadata bmh

theorem loaded_serves_as_restarted {service : Service} (loaded : service.Loaded) :
    service.ServesAsRestarted := by
  have same : SameRecords service.app service.restarted.app :=
    ⟨rfl, rfl, loaded.assignments, loaded.completions⟩
  exact served_same same service.disk

omit [Serialize Json] [Deserialize Json] [Deserialize TemplateMeta] in
theorem loaded_iff_agrees (history : History) :
    history.service.Loaded ↔
      history.assignmentTable.Agrees ∧ history.completionTable.Agrees :=
  ⟨fun loaded => ⟨funext loaded.assignments, funext loaded.completions⟩,
    fun agrees => ⟨congrFun agrees.1, congrFun agrees.2⟩⟩

variable [Serialize AssignmentsFile] [Serialize OneshotState]

omit [Serialize Json] [Deserialize Json] [Deserialize TemplateMeta] [Deserialize AssignmentsFile]
  [Deserialize OneshotState] in
/-- Without a write that is cut short no save is torn. -/
theorem change_not_torn {service : Service} (uncut : service.Uncut) (event : RecordEvent) :
    (∀ change, service.assignmentChange event = some change → change.ends ≠ .torn) ∧
      ∀ change, service.completionChange event = some change → change.ends ≠ .torn := by
  have whole : ∀ disk : Disk, disk.fault = service.disk.fault → ∀ path size,
      disk.writeEnd path size ≠ .torn := by
    intro disk same path size torn
    have uncut_here : ∀ written, disk.fault disk.ticks ≠ some (.cut written) := by
      rw [same]
      exact uncut _
    have ends := write_end_of_uncut uncut_here path size
    rw [torn] at ends
    simp at ends
  constructor
  · intro change made
    cases event with
    | assignmentsPut hostname req =>
      cases made
      exact whole service.disk rfl _ _
    | assignmentsDelete hostname =>
      rw [Service.assignmentChange] at made
      split at made
      · cases made
        exact whole service.disk rfl _ _
      · cases made
    | _ => cases made
  · intro change made
    cases event with
    | oneshotProvisioned ip =>
      obtain ⟨hostname, -, rfl⟩ := Option.map_eq_some_iff.mp made
      exact whole service.disk.tick rfl _ _
    | oneshotDelete hostname =>
      rw [Service.completionChange] at made
      split at made
      · cases made
        exact whole service.disk rfl _ _
      · cases made
    | _ => cases made

omit [Serialize Json] [Deserialize Json] [Deserialize TemplateMeta] in
/-- After a request the memory and the files agree exactly when a change that
could not be saved was none. -/
theorem loaded_after_iff (assignmentsCodec : TextCodec AssignmentsFile AssignmentsFile.Same)
    (oneshotCodec : TextCodec OneshotState OneshotState.Same) {service : Service}
    (loaded : service.Loaded) (uncut : service.Uncut) (event : RecordEvent) :
    (service.afterEvent event).Loaded ↔ service.IdleWhenRefused event := by
  obtain ⟨assignments, completions⟩ := (loaded_iff_agrees (.begin service)).mp loaded
  obtain ⟨assignments_after, completions_after⟩ :=
    tables_after assignmentsCodec oneshotCodec (.begin service) event
  have whole := change_not_torn uncut event
  refine (loaded_iff_agrees ((History.begin service).after event)).trans ?_
  rw [assignments_after, completions_after]
  exact and_congr (agrees_after_event_iff assignments whole.1)
    (agrees_after_event_iff completions whole.2)

/-- **Memory and files stay the same state exactly as long as every refused request
asked for nothing new.**  Along every run of requests on a volume where a failing
save leaves the file as it was: every refusal leaves the assignments and the
completions as they were, and after every request the memory holds, and the
service serves, what it would after a restart, if and only if every change that
could not be saved was to a value that the entry had already. -/
theorem refused_change_leaves_no_trace_iff
    (assignmentsCodec : TextCodec AssignmentsFile AssignmentsFile.Same)
    (oneshotCodec : TextCodec OneshotState OneshotState.Same) (service : Service)
    (loaded : service.Loaded) (uncut : service.Uncut) (events : List RecordEvent) :
    (Each Service.afterEvent Service.RefusalChangesNothing service events ∧
      Throughout Service.afterEvent (fun service => service.Loaded ∧ service.ServesAsRestarted)
        service events) ↔
      Each Service.afterEvent Service.IdleWhenRefused service events := by
  have refusals : Each Service.afterEvent Service.RefusalChangesNothing service events ↔
      Each Service.afterEvent Service.IdleWhenRefused service events :=
    each_congr Service.Uncut (fun _ event uncut => uncut_after uncut event)
      (fun _ event uncut => refusal_changes_nothing_iff uncut event) uncut
  have memory : Throughout Service.afterEvent
      (fun service => service.Loaded ∧ service.ServesAsRestarted) service events ↔
      Each Service.afterEvent Service.IdleWhenRefused service events := by
    refine throughout_iff_each_event Service.Uncut (fun _ event uncut => uncut_after uncut event)
      ?_ uncut ⟨loaded, loaded_serves_as_restarted loaded⟩
    rintro state event uncut ⟨loaded, -⟩
    rw [← loaded_after_iff assignmentsCodec oneshotCodec loaded uncut event]
    exact and_iff_left_of_imp loaded_serves_as_restarted
  rw [refusals, memory, and_self]

end Serving

section Sample

attribute [local instance] assignmentsText assignmentsReader oneshotText oneshotReader
  Json.prettyText emptyObjectReader templateMetaReader

/-- The service with two hosts, on a volume that is full when the first one
reports. -/
def fullVolume : Service where
  app := twoHosts.app
  disk := { emptyVolume with fault := fun tick => if tick = 1 then some .refused else none }

theorem full_volume_loaded : fullVolume.Loaded where
  assignments := by
    have none_yet : fullVolume.reloadedAssignments.keys = [] := by decide +kernel
    exact HashMap.same_of_no_keys rfl none_yet
  completions := by
    have none_yet : fullVolume.reloadedCompletions.keys = [] := by decide +kernel
    exact HashMap.same_of_no_keys rfl none_yet

theorem full_volume_uncut : fullVolume.Uncut := by
  intro tick written
  change (if tick = 1 then some Fault.refused else none) ≠ some (.cut written)
  split <;> simp

/-- The volume that is full once. -/
theorem refused_change_leaves_no_trace_iff_full_volume :
    (Each Service.afterEvent Service.RefusalChangesNothing fullVolume bothProvisioned ∧
      Throughout Service.afterEvent (fun service => service.Loaded ∧ service.ServesAsRestarted)
        fullVolume bothProvisioned) ↔
      Each Service.afterEvent Service.IdleWhenRefused fullVolume bothProvisioned :=
  refused_change_leaves_no_trace_iff assignments_codec oneshot_codec fullVolume full_volume_loaded
    full_volume_uncut bothProvisioned

/-- The report of the first host is refused, and the host counts as completed
nevertheless, until the next restart. -/
theorem refused_completion_counts :
    fullVolume.Loaded ∧ fullVolume.Uncut ∧
    (fullVolume.respond (.oneshotProvisioned (.v4 10 0 0 5))).1 = .status .internalServerError ∧
    fullVolume.app.oneshot.completed.lookup "web1" = none ∧
    (fullVolume.afterEvent (.oneshotProvisioned (.v4 10 0 0 5))).app.oneshot.completed.lookup
      "web1" = some "0" ∧
    (fullVolume.afterEvent
      (.oneshotProvisioned (.v4 10 0 0 5))).reloadedCompletions.lookup "web1" = none ∧
    ¬ fullVolume.RefusalChangesNothing (.oneshotProvisioned (.v4 10 0 0 5)) ∧
    ¬ (fullVolume.afterEvent (.oneshotProvisioned (.v4 10 0 0 5))).Loaded := by
  have refused : (fullVolume.respond (.oneshotProvisioned (.v4 10 0 0 5))).1 =
      .status .internalServerError := by decide +kernel
  have before : fullVolume.app.oneshot.completed.lookup "web1" = none := by decide +kernel
  have after : (fullVolume.afterEvent
      (.oneshotProvisioned (.v4 10 0 0 5))).app.oneshot.completed.lookup "web1" = some "0" := by
    decide +kernel
  have stored : (fullVolume.afterEvent
      (.oneshotProvisioned (.v4 10 0 0 5))).reloadedCompletions.lookup "web1" = none := by
    decide +kernel
  refine ⟨full_volume_loaded, full_volume_uncut, refused, before, after, stored, ?_, ?_⟩
  · intro nothing
    have same := (nothing refused).2 "web1"
    rw [before, after] at same
    cases same
  · intro loaded
    have same := loaded.completions "web1"
    rw [after, stored] at same
    cases same

end Sample

end CloudId
