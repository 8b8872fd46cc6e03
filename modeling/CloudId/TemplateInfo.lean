import CloudId.CacheProofs
import CloudId.Library.GuardedRun
import CloudId.ServiceProofs

/-! The diagnostic endpoint `template_info` of `metadata/handlers.rs`, step by step
between the steps of other requests. It repeats the priorities of
`resolve_template_ref`, but does not wait for the assignments: while a request that
changes them holds their lock or waits for it, they count as absent. -/
namespace CloudId
open Effects GuardedRun

/-! ## The choice of `resolve_and_build` -/

/-- The reference that `resolve_and_build` goes by: it reads the completions in one
state and the sources in the same or a later one. -/
def chosenTemplate (check sources : AppState) (hostname : String) (bmh : Option BareMetalHost) :
    Option (String × String) :=
  if hostname ∈ check.oneshot.completed then none else resolveTemplateRef sources hostname bmh

theorem resolve_and_build_eq [Serialize Json] [Deserialize Json] [Deserialize TemplateMeta]
    (hostname : String) (metadata : HostMetadata) (bmh : Option BareMetalHost) :
    resolveAndBuild hostname metadata bmh = Handler.app >>= fun state =>
      loadTemplate state.templateStore (chosenTemplate state state hostname bmh) >>=
        builtFrom state.config.metadata metadata := by
  funext service
  refine (resolve_and_build_begins hostname metadata bmh service).trans
    (Eq.trans ?_ (bind_ok rfl).symm)
  by_cases completed : hostname ∈ service.app.oneshot.completed
  · have chosen : chosenTemplate service.app service.app hostname bmh = none := if_pos completed
    rw [if_pos completed, chosen]
    rfl
  · have chosen : chosenTemplate service.app service.app hostname bmh =
        resolveTemplateRef service.app hostname bmh := if_neg completed
    rw [if_neg completed, chosen]

/-! ## The report -/

inductive TemplateSource where
  | bmh
  | restAssignment
  | config
  deriving DecidableEq

def TemplateSource.name : TemplateSource → String
  | .bmh => "bmh"
  | .restAssignment => "rest_assignment"
  | .config => "config"

/-- What `template_info` answers; a reference comes with its source. -/
inductive TemplateInfo where
  | unknownIp
  | oneshotCompleted (hostname : String)
  | template (hostname : String) (found : Option (TemplateSource × String))
  deriving DecidableEq

namespace TemplateInfo

/-- The reference that is reported; none is a null template. -/
def found : TemplateInfo → Option (TemplateSource × String)
  | .template _ found => found
  | _ => none

/-- The body of the answer. -/
def toJson (ip : IpAddr) : TemplateInfo → Json
  | .unknownIp => .ofEntries [("ip", .string (toString ip)), ("hostname", .null),
      ("template", .null), ("reason", .string "unknown IP")]
  | .oneshotCompleted hostname => .ofEntries [("ip", .string (toString ip)),
      ("hostname", .string hostname), ("template", .null),
      ("reason", .string "oneshot completed")]
  | .template hostname found => .ofEntries [("ip", .string (toString ip)),
      ("hostname", .string hostname),
      ("template", (found.map fun entry => Json.string entry.2).getD .null),
      ("source", (found.map fun entry => Json.string entry.1.name).getD .null),
      ("oneshot_completed", .bool false)]

end TemplateInfo

def bmhAssignment (bmh : Option BareMetalHost) : Option (TemplateSource × String) :=
  bmh.bind fun bmh => bmh.templateField.map fun tpl => (.bmh, tpl)

/-- `rest_assignment`, once the lock is had. -/
def restAssignment (assignments : AssignmentsFile) (hostname : String) :
    Option (TemplateSource × String) :=
  (assignments.assignments.lookup hostname).map fun asgn =>
    (.restAssignment, asgn.imageType ++ "/" ++ asgn.template)

/-- `config_assignment`. -/
def configSource (config : TemplatesConfig) (hostname : String) :
    Option (TemplateSource × String) :=
  (configAssignment config hostname).map fun rule => (.config, rule.template)

/-- The source and the reference; `locked` says that `try_read` did not get the lock. -/
def reportedTemplate (locked : Bool) (state : AppState) (hostname : String)
    (bmh : Option BareMetalHost) : Option (TemplateSource × String) :=
  let rest := if locked then none else restAssignment state.assignments hostname
  ((bmhAssignment bmh).or rest).or (configSource state.config.templates hostname)

/-! ## The steps -/

/-- Where the report stands, with what it has read. -/
inductive ReportPhase where
  | called
  | named (hostname : String)
  | unfinished (hostname : String)
  | recordRead (hostname : String) (bmh : Option BareMetalHost)
  | answered (info : TemplateInfo)

/-- The write lock on the assignments: whether a request has it, and how many wait. -/
structure WriteLock where
  held : Bool := false
  queued : Nat := 0

/-- A waiting writer, too, keeps a reader from having the lock at once. -/
def WriteLock.taken (lock : WriteLock) : Bool := lock.held || 0 < lock.queued

/-- The service while one report is under way. `seen` are its states since the call,
the latest first. -/
structure ReportWorld where
  app : AppState
  lock : WriteLock := {}
  phase : ReportPhase := .called
  seen : List AppState

/-- The report is called in a state of the service. -/
def ReportWorld.atCall (app : AppState) (lock : WriteLock) : ReportWorld :=
  { app, lock, seen := [app] }

/-- What happens next: the report goes on, or another request does. Requests that change
assignments queue for the lock, take it, change the map and release it once the change is
persisted. A completion has a lock of its own, which the report waits for. -/
inductive ReportMove where
  | report
  | queue
  | giveUp
  | take
  | put (hostname : String) (assignment : Assignment)
  | remove (hostname : String)
  | release
  | complete (hostname ts : String)
  | reset (hostname : String)
  | elsewhere (metadataCache : HashMap IpAddr HostMetadata) (imdsTokens : HashMap String ImdsToken)
      (tokenCounter : UInt64)

namespace ReportWorld

/-- The next step of `template_info`. -/
def advance (ip : IpAddr) (world : ReportWorld) : ReportPhase :=
  match world.phase with
  | .called =>
    match world.app.bmh.ipToHostname.lookup ip with
    | some hostname => .named hostname
    | none => .answered .unknownIp
  | .named hostname =>
    if hostname ∈ world.app.oneshot.completed then .answered (.oneshotCompleted hostname)
    else .unfinished hostname
  | .unfinished hostname => .recordRead hostname (world.app.getBmh hostname)
  | .recordRead hostname bmh =>
    .answered (.template hostname (reportedTemplate world.lock.taken world.app hostname bmh))
  | .answered info => .answered info

/-- The assignments are changed by who has the lock. -/
def assign (world : ReportWorld)
    (change : HashMap String Assignment → HashMap String Assignment) : AppState :=
  if world.lock.held then
    { world.app with assignments := { assignments := change world.app.assignments.assignments } }
  else world.app

/-- The shared state after a move. -/
def appAfter (world : ReportWorld) : ReportMove → AppState
  | .put hostname assignment => world.assign fun assignments => assignments.insert hostname assignment
  | .remove hostname => world.assign fun assignments => assignments.erase hostname
  | .complete hostname ts =>
    { world.app with oneshot := { completed := world.app.oneshot.completed.insert hostname ts } }
  | .reset hostname =>
    { world.app with oneshot := { completed := world.app.oneshot.completed.erase hostname } }
  | .elsewhere metadataCache imdsTokens tokenCounter =>
    { world.app with metadataCache, imdsTokens, tokenCounter }
  | _ => world.app

/-- The lock after a move. -/
def lockAfter (lock : WriteLock) : ReportMove → WriteLock
  | .queue => { lock with queued := lock.queued + 1 }
  | .giveUp => { lock with queued := lock.queued - 1 }
  | .take =>
    if lock.held ∨ lock.queued = 0 then lock else { held := true, queued := lock.queued - 1 }
  | .release => { lock with held := false }
  | _ => lock

/-- One move; one that is not possible changes nothing. -/
def step (ip : IpAddr) (world : ReportWorld) (move : ReportMove) : ReportWorld where
  app := world.appAfter move
  lock := lockAfter world.lock move
  phase := match move with
    | .report => world.advance ip
    | _ => world.phase
  seen := world.appAfter move :: world.seen

end ReportWorld

/-! ## The truth of a report -/

/-- The template a source means by a reference. Without a slash in the image type, that
of an assignment is found by cutting the reference at its first slash. -/
def Denotes (bmh : Option BareMetalHost) (ref : String) (pair : String × String) :
    TemplateSource → Prop
  | .bmh => ∃ host, bmh = some host ∧ parseTemplateRef ref host = pair
  | .restAssignment =>
    ref = pair.1 ++ "/" ++ pair.2 ∧ ('/' ∉ pair.1.toList → Text.splitFirst ref '/' = some pair)
  | .config => parseConfigTemplateRef ref = pair

/-- What is reported against what is chosen. -/
def Reports (bmh : Option BareMetalHost) :
    Option (TemplateSource × String) → Option (String × String) → Prop
  | none, none => True
  | some (source, ref), some pair => Denotes bmh ref pair source
  | _, _ => False

/-- The second state is the first or a later one. -/
def Onward (seen : List AppState) (check sources : AppState) : Prop :=
  ∃ later earlier, seen = later ++ check :: earlier ∧ sources ∈ later ++ [check]

/-- The report is what `resolve_and_build` chooses in states that occur during the request. -/
def Truthful (seen : List AppState) (hostname : String) (info : TemplateInfo) : Prop :=
  ∃ check sources, Onward seen check sources ∧
    Reports (check.getBmh hostname) info.found
      (chosenTemplate check sources hostname (check.getBmh hostname))

/-- The host was once without an assignment, and without a completion before that. -/
def OnceUnassigned (seen : List AppState) (hostname : String) : Prop :=
  ∃ check sources, Onward seen check sources ∧ hostname ∉ check.oneshot.completed ∧
    hostname ∉ sources.assignments.assignments

/-- Where the report comes to the assignments, they do not matter, or it gets their lock. -/
def Unhindered (hostname : String) (world : ReportWorld) (move : ReportMove) : Prop :=
  match move, world.phase with
  | .report, .recordRead _ bmh => (bmhAssignment bmh).isSome ∨ world.lock.taken = false ∨
      OnceUnassigned world.seen hostname
  | _, _ => True

/-! ## Agreement in one state -/

theorem rest_reference_denotes (bmh : Option BareMetalHost) (asgn : Assignment) :
    Denotes bmh (asgn.imageType ++ "/" ++ asgn.template) (asgn.imageType, asgn.template)
      .restAssignment := by
  refine ⟨rfl, fun no_slash => ?_⟩
  have spelled : asgn.imageType ++ "/" ++ asgn.template =
      String.ofList (asgn.imageType.toList ++ '/' :: asgn.template.toList) := by
    apply String.ext
    simp
  rw [spelled, Text.split_first_append no_slash, String.ofList_toList, String.ofList_toList]

/-- With the lock, the two priority chains agree. -/
theorem report_agrees (state : AppState) (hostname : String) (bmh : Option BareMetalHost) :
    Reports bmh (reportedTemplate false state hostname bmh)
      (resolveTemplateRef state hostname bmh) := by
  cases assigned : bmhAssignment bmh with
  | some entry =>
    obtain ⟨host, rfl, mapped⟩ := Option.bind_eq_some_iff.mp assigned
    obtain ⟨tpl, asks, rfl⟩ := Option.map_eq_some_iff.mp mapped
    simp [reportedTemplate, resolveTemplateRef, assigned, asks, Reports, Denotes]
  | none =>
    have no_field : (bmh.bind fun host =>
        host.templateField.map fun tpl => parseTemplateRef tpl host) = none := by
      cases bmh with
      | none => rfl
      | some host => simpa [bmhAssignment] using assigned
    cases listed : state.assignments.assignments.lookup hostname with
    | some asgn =>
      simpa [reportedTemplate, resolveTemplateRef, assigned, no_field, listed, restAssignment,
        Reports] using rest_reference_denotes bmh asgn
    | none =>
      cases rule : configAssignment state.config.templates hostname with
      | some rule =>
        simp [reportedTemplate, resolveTemplateRef, assigned, no_field, listed, restAssignment,
          configSource, rule, Reports, Denotes]
      | none =>
        simp [reportedTemplate, resolveTemplateRef, assigned, no_field, listed, restAssignment,
          configSource, rule, Reports]

/-- The host's own field is reported with or without the lock. -/
theorem reported_field {bmh : Option BareMetalHost} (field : (bmhAssignment bmh).isSome)
    (locked : Bool) (state : AppState) (hostname : String) :
    reportedTemplate locked state hostname bmh = bmhAssignment bmh := by
  obtain ⟨entry, assigned⟩ := Option.isSome_iff_exists.mp field
  rw [reportedTemplate, assigned, Option.some_or, Option.some_or]

/-- A host without an assignment is reported as if they were locked. -/
theorem reported_unassigned {state : AppState} {hostname : String}
    (unassigned : hostname ∉ state.assignments.assignments) (locked : Bool) (bmh : Option BareMetalHost) :
    reportedTemplate locked state hostname bmh = reportedTemplate true state hostname bmh := by
  cases locked with
  | true => rfl
  | false =>
    have absent : restAssignment state.assignments hostname = none := by
      rw [restAssignment, AList.lookup_eq_none.mpr unassigned, Option.map_none]
    simp only [reportedTemplate, absent, if_true, Bool.false_eq_true, if_false]

/-! ## Runs -/

theorem Onward.cons {seen : List AppState} {check sources : AppState}
    (onward : Onward seen check sources) (state : AppState) :
    Onward (state :: seen) check sources := by
  obtain ⟨later, earlier, rfl, listed⟩ := onward
  exact ⟨state :: later, earlier, rfl, List.mem_cons_of_mem _ listed⟩

/-- The latest state comes after every other one. -/
theorem onward_latest {latest check : AppState} {before : List AppState}
    (occurred : check ∈ latest :: before) : Onward (latest :: before) check latest := by
  rcases List.mem_cons.mp occurred with rfl | earlier
  · exact ⟨[], before, rfl, List.mem_singleton.mpr rfl⟩
  · obtain ⟨later, rest, rfl⟩ := List.append_of_mem earlier
    exact ⟨latest :: later, rest, rfl, List.mem_cons_self ..⟩

theorem Onward.occur {seen : List AppState} {check sources : AppState}
    (onward : Onward seen check sources) : check ∈ seen ∧ sources ∈ seen := by
  obtain ⟨later, earlier, rfl, listed⟩ := onward
  refine ⟨by simp, ?_⟩
  rcases List.mem_append.mp listed with after | same
  · exact List.mem_append_left _ after
  · rw [List.mem_singleton.mp same]
    simp

theorem Truthful.cons {seen : List AppState} {hostname : String} {info : TemplateInfo}
    (truthful : Truthful seen hostname info) (state : AppState) :
    Truthful (state :: seen) hostname info := by
  obtain ⟨check, sources, onward, reports⟩ := truthful
  exact ⟨check, sources, onward.cons state, reports⟩

/-- What the report has learned at each of its steps. -/
def Learned (app : AppState) (hostname : String) (seen : List AppState) : ReportPhase → Prop
  | .called => True
  | .named name => name = hostname
  | .unfinished name => name = hostname ∧ ∃ check ∈ seen, hostname ∉ check.oneshot.completed
  | .recordRead name bmh => name = hostname ∧ bmh = app.getBmh hostname ∧
      ∃ check ∈ seen, hostname ∉ check.oneshot.completed
  | .answered info => Truthful seen hostname info

theorem Learned.cons {app : AppState} {hostname : String} {seen : List AppState}
    {phase : ReportPhase} (learned : Learned app hostname seen phase) (state : AppState) :
    Learned app hostname (state :: seen) phase := by
  have later : (∃ check ∈ seen, hostname ∉ check.oneshot.completed) →
      ∃ check ∈ state :: seen, hostname ∉ check.oneshot.completed := by
    rintro ⟨check, occurred, unfinished⟩
    exact ⟨check, List.mem_cons_of_mem _ occurred, unfinished⟩
  cases phase with
  | called => trivial
  | named name => exact learned
  | unfinished name => exact ⟨learned.1, later learned.2⟩
  | recordRead name bmh => exact ⟨learned.1, learned.2.1, later learned.2.2⟩
  | answered info => exact Truthful.cons learned state

/-- Two states with the same bare metal hosts and the same configuration. -/
def SameSources (first second : AppState) : Prop :=
  first.bmh = second.bmh ∧ first.config = second.config

/-- What holds of the world from the call of the report on. -/
structure Reporting (app : AppState) (hostname : String) (world : ReportWorld) : Prop where
  latest : ∃ before, world.seen = world.app :: before
  fixed : ∀ state ∈ world.seen, SameSources state app
  learned : Learned app hostname world.seen world.phase

namespace Reporting

variable {app : AppState} {hostname : String} {world : ReportWorld}

theorem fixed_now (reporting : Reporting app hostname world) : SameSources world.app app := by
  obtain ⟨before, seen⟩ := reporting.latest
  exact reporting.fixed _ (seen ▸ List.mem_cons_self ..)

/-- Requests leave the bare metal hosts and the configuration alone. -/
theorem app_after_same (world : ReportWorld) (move : ReportMove) :
    SameSources (world.appAfter move) world.app := by
  have assigned : ∀ change, SameSources (world.assign change) world.app := by
    intro change
    rw [ReportWorld.assign]
    split <;> exact ⟨rfl, rfl⟩
  cases move with
  | put hostname assignment => exact assigned _
  | remove hostname => exact assigned _
  | _ => exact ⟨rfl, rfl⟩

/-- What a report agrees with in two states of the request is its truth. -/
theorem truthful_of_agrees (reporting : Reporting app hostname world)
    {check sources : AppState} (onward : Onward world.seen check sources)
    (unfinished : hostname ∉ check.oneshot.completed)
    {found : Option (TemplateSource × String)}
    (same : found = reportedTemplate false sources hostname (app.getBmh hostname)) :
    Truthful world.seen hostname (.template hostname found) := by
  have record : check.getBmh hostname = app.getBmh hostname := by
    rw [AppState.getBmh, (reporting.fixed check onward.occur.1).1, AppState.getBmh]
  refine ⟨check, sources, onward, ?_⟩
  rw [record, chosenTemplate, if_neg unfinished, TemplateInfo.found, same]
  exact report_agrees sources hostname _

/-- The answer of the last step. -/
theorem truthful_answer (reporting : Reporting app hostname world) {bmh : Option BareMetalHost}
    (read : world.phase = .recordRead hostname bmh)
    (unhindered : Unhindered hostname world .report) :
    Truthful world.seen hostname
      (.template hostname (reportedTemplate world.lock.taken world.app hostname bmh)) := by
  have learned := reporting.learned
  rw [read] at learned
  obtain ⟨_, rfl, check, occurred, unfinished⟩ := learned
  have onward : Onward world.seen check world.app := by
    obtain ⟨before, seen⟩ := reporting.latest
    rw [seen] at occurred ⊢
    exact onward_latest occurred
  simp only [Unhindered, read] at unhindered
  rcases unhindered with field | free | ⟨check', sources, onward', unfinished', unassigned⟩
  · refine reporting.truthful_of_agrees onward unfinished ?_
    rw [reported_field field, reported_field field]
  · rw [free]
    exact reporting.truthful_of_agrees onward unfinished rfl
  · cases locked : world.lock.taken with
    | false => exact reporting.truthful_of_agrees onward unfinished rfl
    | true =>
      -- without the lock only the configuration is left, as it is for the unassigned host
      refine reporting.truthful_of_agrees onward' unfinished' ?_
      have same_config : world.app.config = sources.config :=
        reporting.fixed_now.2.trans (reporting.fixed sources onward'.occur.2).2.symm
      rw [reported_unassigned unassigned false, reportedTemplate, reportedTemplate, same_config]
      rfl

/-- One step of the report. -/
theorem learned_advance {ip : IpAddr} (reporting : Reporting app hostname world)
    (known : app.bmh.ipToHostname.lookup ip = some hostname)
    (unhindered : Unhindered hostname world .report) :
    Learned app hostname world.seen (world.advance ip) := by
  have learned := reporting.learned
  obtain ⟨before, seen⟩ := reporting.latest
  have occurs : world.app ∈ world.seen := seen ▸ List.mem_cons_self ..
  have hosts := reporting.fixed_now.1
  cases phase : world.phase with
  | called =>
    simp only [ReportWorld.advance, phase, hosts, known]
    rfl
  | named name =>
    rw [phase] at learned
    obtain rfl : name = hostname := learned
    simp only [ReportWorld.advance, phase]
    split
    · rename_i completed
      refine ⟨world.app, world.app, ?_, ?_⟩
      · rw [seen]
        exact onward_latest (List.mem_cons_self ..)
      · rw [chosenTemplate, if_pos completed]
        trivial
    · rename_i unfinished
      exact ⟨rfl, world.app, occurs, unfinished⟩
  | unfinished name =>
    rw [phase] at learned
    obtain ⟨rfl, once⟩ := learned
    simp only [ReportWorld.advance, phase]
    exact ⟨rfl, by rw [AppState.getBmh, hosts, AppState.getBmh], once⟩
  | recordRead name bmh =>
    obtain rfl : name = hostname := by
      rw [phase] at learned
      exact learned.1
    simp only [ReportWorld.advance, phase]
    exact reporting.truthful_answer phase unhindered
  | answered info =>
    rw [phase] at learned
    simpa only [ReportWorld.advance, phase] using learned

theorem step {ip : IpAddr} (reporting : Reporting app hostname world)
    (known : app.bmh.ipToHostname.lookup ip = some hostname) (move : ReportMove)
    (unhindered : Unhindered hostname world move) :
    Reporting app hostname (world.step ip move) where
  latest := ⟨world.seen, rfl⟩
  fixed := by
    intro state occurred
    rcases List.mem_cons.mp occurred with rfl | before
    · have now := reporting.fixed_now
      have after := app_after_same world move
      exact ⟨after.1.trans now.1, after.2.trans now.2⟩
    · exact reporting.fixed state before
  learned := by
    cases move with
    | report => exact (reporting.learned_advance known unhindered).cons _
    | _ => exact reporting.learned.cons _

theorem at_call (app : AppState) (lock : WriteLock) (hostname : String) :
    Reporting app hostname (.atCall app lock) where
  latest := ⟨[], rfl⟩
  fixed state occurred := by
    rw [List.mem_singleton.mp occurred]
    exact ⟨rfl, rfl⟩
  learned := trivial

end Reporting

/-- **The report is true in every run** in which it gets the lock on the assignments at
its one attempt, or does not need it: the host's own field comes first, or the host was
without an assignment at some moment of the request. -/
theorem template_info_truthful (ip : IpAddr) (metadata : HostMetadata) (app : AppState)
    (lock : WriteLock) (moves : List ReportMove)
    (known : app.bmh.ipToHostname.lookup ip = some metadata.localHostname)
    (unhindered : Each (ReportWorld.step ip) (Unhindered metadata.localHostname)
      (.atCall app lock) moves) :
    Throughout (ReportWorld.step ip)
      (fun world => ∀ info, world.phase = .answered info →
        Truthful world.seen metadata.localHostname info) (.atCall app lock) moves := by
  have reporting := throughout_of_each (Reporting app metadata.localHostname)
    (fun world move reporting met => reporting.step known move met)
    (Reporting.at_call app lock _) unhindered
  refine reporting.mono fun world holds info answered => ?_
  have learned := holds.learned
  rwa [answered] at learned

/-- The one bare metal host has an assignment of the REST API and no other source. -/
def assignedHost : AppState := { sharedAddress with
  containers := {}
  assignments := {
    assignments := (∅ : HashMap String Assignment).insert "web1"
      { imageType := "fcos", template := "base.ign.json" } } }

theorem assigned_host_resolves :
    (@AppState.resolveOnDemand cloudConfigText assignedHost (.v4 10 0 0 5)).map
      HostMetadata.localHostname = some "web1" ∧
    assignedHost.bmh.ipToHostname.lookup (.v4 10 0 0 5) = some "web1" := by
  decide +kernel

/-- Another host's assignment is stored before the report comes to the lock. -/
theorem template_info_truthful_after_release : ∃ metadata,
    @AppState.resolveOnDemand cloudConfigText assignedHost (.v4 10 0 0 5) = some metadata ∧
    Throughout (ReportWorld.step (.v4 10 0 0 5))
      (fun world => ∀ info, world.phase = .answered info →
        Truthful world.seen metadata.localHostname info) (.atCall assignedHost {})
      [.report, .queue, .report, .take, .put "web2" { imageType := "fcos", template := "edge" },
        .report, .release, .report] := by
  obtain ⟨metadata, resolved, named⟩ := Option.map_eq_some_iff.mp assigned_host_resolves.1
  refine ⟨metadata, resolved, template_info_truthful (.v4 10 0 0 5) metadata assignedHost {} _ ?_ ?_⟩
  · rw [named]
    exact assigned_host_resolves.2
  · exact ⟨trivial, trivial, trivial, trivial, trivial, trivial, trivial, .inr (.inl rfl), trivial⟩

/-- Another host's assignment is being stored when the report comes to the lock. -/
def storingElsewhere : List ReportMove :=
  [.report, .queue, .report, .take, .report, .put "web2" { imageType := "fcos", template := "edge" },
    .report, .release]

/-- The host's assignment stands all the time, and the report says that no template applies. -/
theorem assignment_hidden_by_lock :
    ((@AppState.resolveOnDemand cloudConfigText assignedHost (.v4 10 0 0 5)).map
        HostMetadata.localHostname = some "web1" ∧
      assignedHost.bmh.ipToHostname.lookup (.v4 10 0 0 5) = some "web1") ∧
    ¬ Throughout (ReportWorld.step (.v4 10 0 0 5))
      (fun world => ∀ info, world.phase = .answered info → Truthful world.seen "web1" info)
      (.atCall assignedHost {}) storingElsewhere := by
  refine ⟨assigned_host_resolves, fun throughout => ?_⟩
  have answered : (storingElsewhere.foldl (ReportWorld.step (.v4 10 0 0 5))
      (.atCall assignedHost {})).phase = .answered (.template "web1" none) := rfl
  obtain ⟨check, sources, onward, reports⟩ := throughout.last _ answered
  have stands : ∀ state ∈ (storingElsewhere.foldl (ReportWorld.step (.v4 10 0 0 5))
      (.atCall assignedHost {})).seen, "web1" ∉ state.oneshot.completed ∧
        (state.getBmh "web1").isNone ∧ (resolveTemplateRef state "web1" none).isSome := by
    decide
  obtain ⟨unfinished, no_record, -⟩ := stands check onward.occur.1
  obtain ⟨-, -, assigned⟩ := stands sources onward.occur.2
  obtain ⟨pair, chosen⟩ := Option.isSome_iff_exists.mp assigned
  rw [Option.isNone_iff_eq_none.mp no_record, chosenTemplate, if_neg unfinished, chosen] at reports
  exact reports

end CloudId
