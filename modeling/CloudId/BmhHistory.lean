import CloudId.AmoHistory
import CloudId.BmhWatcher

/-! The watch of the bare metal hosts against a full relist. A relist records the
hosts as they are; a watch event records a host under its present address and
name without looking for what it was recorded under before. So following the
events gives what a relist gives exactly as long as no host moves. -/
namespace CloudId
open GuardedRun SecondaryIndex

/-! ## The objects and their history -/

/-- The namespace and name an event is about. -/
def WatchEvent.objectId (event : WatchEvent) : String × String :=
  (event.object.metadata.«namespace», event.object.metadata.name)

/-- The objects after the change that an event reports. -/
def evolve (objects : HashMap (String × String) BareMetalHost) (event : WatchEvent) :
    HashMap (String × String) BareMetalHost :=
  if event.eventType = "ADDED" ∨ event.eventType = "MODIFIED" then
    objects.insert event.objectId event.object
  else if event.eventType = "DELETED" then objects.erase event.objectId
  else objects

/-- Every object has an address, and no two objects share their address or the
name they go by. -/
structure Separate (objects : HashMap (String × String) BareMetalHost) : Prop where
  addressed : Total BareMetalHost.ip? objects
  addresses : Distinct BareMetalHost.ip? objects
  hostnames : Distinct (fun host => some host.effectiveHostname) objects

/-- The namespaces list exactly these objects, in whatever order. -/
def Lists (namespaces : List (String × List BareMetalHost))
    (objects : HashMap (String × String) BareMetalHost) : Prop :=
  (namespaces.flatMap Prod.snd).Perm objects.values

/-- The relist in which every namespace answers with its objects. -/
def answered (namespaces : List (String × List BareMetalHost)) :
    Option (List (String × BmhAnswer)) :=
  some (namespaces.map fun entry => (entry.1, .listed entry.2))

/-- The four maps hold the same, whatever their enumeration orders. -/
structure SameBmh (first second : BmhState) : Prop where
  names : HashMap.Same first.ipToHostname second.ipToHostname
  labels : HashMap.Same first.hostLabels second.hostLabels
  namespaces : HashMap.Same first.hostNamespace second.hostNamespace
  hosts : HashMap.Same first.hosts second.hosts

/-- The four maps record exactly the objects. -/
structure Records (objects : HashMap (String × String) BareMetalHost) (bmh : BmhState) :
    Prop where
  names : Indexes BareMetalHost.ip? BareMetalHost.effectiveHostname objects bmh.ipToHostname
  labels : Indexes BareMetalHost.recordedName (·.metadata.labels) objects bmh.hostLabels
  namespaces :
    Indexes BareMetalHost.recordedName (·.metadata.«namespace») objects bmh.hostNamespace
  hosts : Indexes BareMetalHost.recordedName id objects bmh.hosts

/-- The event leaves a host where it was: an added or modified object keeps the
address and name of the object it replaces, if any, and a deleted one goes by
the name of the object that is removed, and of no other. -/
def StaysPut (objects : HashMap (String × String) BareMetalHost) (event : WatchEvent) : Prop :=
  if event.eventType = "ADDED" ∨ event.eventType = "MODIFIED" then
    ∀ old, objects.lookup event.objectId = some old →
      old.ip? = event.object.ip? ∧ old.effectiveHostname = event.object.effectiveHostname
  else if event.eventType = "DELETED" then
    ∀ id host, objects.lookup id = some host →
      (id = event.objectId ↔ host.effectiveHostname = event.object.effectiveHostname)
  else True

variable {objects : HashMap (String × String) BareMetalHost}

theorem recorded_name_eq_some {host : BareMetalHost} (addressed : host.ip? = some ip) :
    host.recordedName = some host.effectiveHostname := by
  rw [BareMetalHost.recordedName, addressed]
  rfl

theorem Separate.recorded (separate : Separate objects) {id : String × String}
    {host : BareMetalHost} (held : objects.lookup id = some host) :
    host.recordedName = some host.effectiveHostname := by
  obtain ⟨ip, addressed⟩ := separate.addressed id host held
  exact recorded_name_eq_some addressed

theorem Separate.recorded_total (separate : Separate objects) :
    Total BareMetalHost.recordedName objects :=
  fun _ _ held => ⟨_, separate.recorded held⟩

theorem Separate.recorded_distinct (separate : Separate objects) :
    Distinct BareMetalHost.recordedName objects := by
  intro id id' host host' name held held' named named'
  rw [separate.recorded held] at named
  rw [separate.recorded held'] at named'
  exact separate.hostnames id id' host host' name held held' named named'

/-! ## A relist -/

/-- A relist in which every namespace answers starts over from the listed hosts. -/
theorem load_all_bmh_answered (state : AppState)
    (namespaces : List (String × List BareMetalHost)) :
    (loadAllBmh state (answered namespaces)).bmh =
      (namespaces.flatMap Prod.snd).foldl (fun bmh host => applyBmhToState host bmh) {} := by
  change ((namespaces.map fun entry => (entry.1, BmhAnswer.listed entry.2)).map Prod.snd).foldl
    loadNamespace {} = _
  rw [load_namespaces_eq, List.map_map, List.flatMap_map]
  rfl

/-- A relist records exactly the objects. -/
theorem relist_records (separate : Separate objects) (state : AppState)
    {namespaces : List (String × List BareMetalHost)} (lists : Lists namespaces objects) :
    Records objects (loadAllBmh state (answered namespaces)).bmh := by
  rw [load_all_bmh_answered, apply_hosts_eq]
  exact {
    names := insert_rows_indexes lists separate.addresses
    labels := insert_rows_indexes lists separate.recorded_distinct
    namespaces := insert_rows_indexes lists separate.recorded_distinct
    hosts := insert_rows_indexes lists separate.recorded_distinct }

/-- Holding what a relist holds is recording exactly the objects. -/
theorem same_relist_iff (separate : Separate objects) (state : AppState)
    {namespaces : List (String × List BareMetalHost)} (lists : Lists namespaces objects)
    (bmh : BmhState) :
    SameBmh bmh (loadAllBmh state (answered namespaces)).bmh ↔ Records objects bmh := by
  have relisted := relist_records separate state lists
  constructor
  · intro same
    exact {
      names := relisted.names.congr same.names
      labels := relisted.labels.congr same.labels
      namespaces := relisted.namespaces.congr same.namespaces
      hosts := relisted.hosts.congr same.hosts }
  · intro records
    exact {
      names := records.names.same relisted.names
      labels := records.labels.same relisted.labels
      namespaces := records.namespaces.same relisted.namespaces
      hosts := records.hosts.same relisted.hosts }

/-! ## One event -/

/-- Recording a new or changed object is enough exactly when it replaces none
with another address or name. -/
theorem apply_records_iff {bmh : BmhState} (records : Records objects bmh)
    (separate : Separate objects) {id : String × String} {host : BareMetalHost}
    (after : Separate (objects.insert id host)) :
    Records (objects.insert id host) (applyBmhToState host bmh) ↔
      ∀ old, objects.lookup id = some old →
        old.ip? = host.ip? ∧ old.effectiveHostname = host.effectiveHostname := by
  have new : host.recordedName = some host.effectiveHostname :=
    after.recorded (AList.lookup_insert objects)
  have same_name (old : BareMetalHost) (held : objects.lookup id = some old) :
      old.recordedName = host.recordedName ↔
        old.effectiveHostname = host.effectiveHostname := by
    rw [separate.recorded held, new, Option.some.injEq]
  have recorded {υ : Type} {value : BareMetalHost → υ} {index : HashMap String υ}
      (indexes : Indexes BareMetalHost.recordedName value objects index) :
      Indexes BareMetalHost.recordedName value (objects.insert id host)
          (insertRow BareMetalHost.recordedName value index host) ↔
        ∀ old, objects.lookup id = some old → old.recordedName = host.recordedName :=
    insert_row_indexes_iff indexes separate.recorded_total separate.recorded_distinct
      after.recorded_total after.recorded_distinct
  have named := insert_row_indexes_iff records.names separate.addressed separate.addresses
    after.addressed after.addresses
  rw [apply_bmh_to_state_eq]
  constructor
  · intro kept old held
    exact ⟨named.mp kept.names old held,
      (same_name old held).mp ((recorded records.hosts).mp kept.hosts old held)⟩
  · intro stays
    have renames : ∀ old, objects.lookup id = some old → old.recordedName = host.recordedName :=
      fun old held => (same_name old held).mpr (stays old held).2
    exact {
      names := named.mpr fun old held => (stays old held).1
      labels := (recorded records.labels).mpr renames
      namespaces := (recorded records.namespaces).mpr renames
      hosts := (recorded records.hosts).mpr renames }

/-- Dropping what goes by the name of a deleted object is enough exactly when
this is the object that is removed. -/
theorem delete_records_iff {bmh : BmhState} (records : Records objects bmh)
    (separate : Separate objects) (id : String × String) (hostname : String) :
    Records (objects.erase id)
        { ipToHostname := HashMap.retain (fun _ name => name ≠ hostname) bmh.ipToHostname
          hostLabels := bmh.hostLabels.erase hostname
          hostNamespace := bmh.hostNamespace.erase hostname
          hosts := bmh.hosts.erase hostname } ↔
      ∀ other host, objects.lookup other = some host →
        (other = id ↔ host.effectiveHostname = hostname) := by
  have same_name (other : String × String) (host : BareMetalHost)
      (held : objects.lookup other = some host) :
      host.recordedName = some hostname ↔ host.effectiveHostname = hostname := by
    rw [separate.recorded held, Option.some.injEq]
  have recorded {υ : Type} {value : BareMetalHost → υ} {index : HashMap String υ}
      (indexes : Indexes BareMetalHost.recordedName value objects index) :
      Indexes BareMetalHost.recordedName value (objects.erase id) (index.erase hostname) ↔
        ∀ other host, objects.lookup other = some host →
          (other = id ↔ host.recordedName = some hostname) :=
    erase_indexes_iff indexes separate.recorded_total separate.recorded_distinct id hostname
  constructor
  · intro kept other host held
    exact ((recorded records.hosts).mp kept.hosts other host held).trans (same_name other host held)
  · intro exact_
    have removed : ∀ other host, objects.lookup other = some host →
        (other = id ↔ host.recordedName = some hostname) :=
      fun other host held => (exact_ other host held).trans (same_name other host held).symm
    exact {
      names := retain_indexes records.names exact_
      labels := (recorded records.labels).mpr removed
      namespaces := (recorded records.namespaces).mpr removed
      hosts := (recorded records.hosts).mpr removed }

/-- One event keeps the records exact exactly when the host stays put. -/
theorem event_records_iff {bmh : BmhState} {event : WatchEvent} (separate : Separate objects)
    (after : Separate (evolve objects event)) (records : Records objects bmh) :
    Records (evolve objects event) (applyWatchEvent bmh event) ↔ StaysPut objects event := by
  rw [evolve] at after ⊢
  rw [applyWatchEvent, StaysPut]
  by_cases upsert : event.eventType = "ADDED" ∨ event.eventType = "MODIFIED"
  · simp only [if_pos upsert] at after ⊢
    exact apply_records_iff records separate after
  · simp only [if_neg upsert] at after ⊢
    by_cases delete : event.eventType = "DELETED"
    · simp only [if_pos delete]
      exact delete_records_iff records separate event.objectId event.object.effectiveHostname
    · simpa only [if_neg delete, iff_true] using records

/-! ## Whole histories -/

/-- The objects and the records that the watch keeps of them, side by side. -/
structure Watched where
  objects : HashMap (String × String) BareMetalHost
  bmh : BmhState

def Watched.event (watched : Watched) (event : WatchEvent) : Watched where
  objects := evolve watched.objects event
  bmh := applyWatchEvent watched.bmh event

theorem watched_events (watched : Watched) (events : List WatchEvent) :
    events.foldl Watched.event watched =
      { objects := events.foldl evolve watched.objects
        bmh := events.foldl applyWatchEvent watched.bmh } := by
  induction events generalizing watched with
  | nil => rfl
  | cons event rest step => exact step (watched.event event)

/-- **Following the watch gives what a relist gives exactly as long as every host
stays put.**  For every set of hosts, loaded in any order, and every history of
events that keeps their addresses and names apart: after each part of the
history the four maps hold what a full relist would put there, if and only if
every added or modified object keeps the address and name of the object it
replaces, and every deleted one goes by the name of the object that is removed. -/
theorem watch_agrees_with_relist_iff [Serialize CloudConfig] (state : AppState)
    (initial : HashMap (String × String) BareMetalHost)
    (loaded : List (String × List BareMetalHost)) (lists : Lists loaded initial)
    (events : List WatchEvent)
    (separate : ∀ done, done <+: events → Separate (done.foldl evolve initial)) :
    (∀ done, done <+: events → ∀ relisted, Lists relisted (done.foldl evolve initial) →
      let watching := done.foldl handleWatchEvent (loadAllBmh state (answered loaded))
      SameBmh watching.bmh (loadAllBmh watching (answered relisted)).bmh) ↔
      Each evolve StaysPut initial events := by
  let start : Watched :=
    { objects := initial, bmh := (loadAllBmh state (answered loaded)).bmh }
  have apart : Throughout Watched.event (fun watched => Separate watched.objects) start
      events := by
    intro done before
    rw [watched_events]
    exact separate done before
  have permitted : Each Watched.event
      (fun watched event => True ∧ Separate (watched.event event).objects) start events :=
    apart.each_next fun _ _ => trivial
  have exact_ : Throughout Watched.event (fun watched => Records watched.objects watched.bmh)
        start events ↔
      Each Watched.event (fun watched event => StaysPut watched.objects event) start events :=
    throughout_iff_each (fun watched : Watched => Separate watched.objects)
      (fun _ _ _ allowed => allowed.2)
      (fun _ _ inv allowed records => event_records_iff inv allowed.2 records)
      (separate [] List.nil_prefix)
      (relist_records (separate [] List.nil_prefix) state lists) permitted
  rw [each_view evolve Watched.objects StaysPut fun _ _ => rfl] at exact_
  rw [← exact_]
  simp only [Throughout, watched_events, watch_events_bmh, start]
  refine forall₂_congr fun done before => ?_
  have listable : Lists [("", (done.foldl evolve initial).values)] (done.foldl evolve initial) := by
    simp [Lists]
  constructor
  · intro agrees
    exact (same_relist_iff (separate done before) _ listable _).mp (agrees _ listable)
  · intro records relisted lists'
    exact (same_relist_iff (separate done before) _ lists' _).mpr records

/-- A single object with an address is kept apart from nothing. -/
theorem separate_single {host : BareMetalHost} (addressed : host.ip? = some ip)
    (id : String × String) : Separate (AList.insert id host ∅) := by
  have only {other : String × String} {entry : BareMetalHost}
      (held : (AList.insert id host ∅ : HashMap (String × String) BareMetalHost).lookup other =
        some entry) : other = id ∧ entry = host := by
    rcases HashMap.lookup_insert_eq_some.mp held with ⟨same, rfl⟩ | ⟨-, absent⟩
    · exact ⟨same, rfl⟩
    · cases absent
  constructor
  · intro other entry held
    exact ⟨ip, (only held).2 ▸ addressed⟩
  · intro first second _ _ _ held held' _ _
    exact (only held).1.trans (only held').1.symm
  · intro first second _ _ _ held held' _ _
    exact (only held).1.trans (only held').1.symm

/-- A host of the data network, with a configured address and one label. -/
def labelledHost (ip role : String) : BareMetalHost where
  metadata := { name := "server1", «namespace» := "g10", labels := AList.singleton "role" role }
  spec := { ip }

theorem labelled_host_ip (configured : ip ≠ "") (parsed : IpAddr.parse ip = some address)
    (role : String) : (labelledHost ip role).ip? = some address := by
  simp [BareMetalHost.ip?, BareMetalHost.ipStr, labelledHost, configured, parsed]

def hostEvent (eventType : String) (host : BareMetalHost) : WatchEvent where
  eventType := eventType
  object := host

/-- A host comes, changes its label and goes. -/
def quietHistory : List WatchEvent :=
  [hostEvent "ADDED" (labelledHost "10.0.0.5" "worker"),
    hostEvent "MODIFIED" (labelledHost "10.0.0.5" "master"),
    hostEvent "DELETED" (labelledHost "10.0.0.5" "master")]

/-- In this history the host keeps its address and name. -/
theorem watch_agrees_with_relist_iff_quiet :
    (∀ done, done <+: quietHistory → ∀ relisted, Lists relisted (done.foldl evolve ∅) →
      let watching := done.foldl (@handleWatchEvent cloudConfigText)
        (loadAllBmh freshApp (answered [("g10", [])]))
      SameBmh watching.bmh (loadAllBmh watching (answered relisted)).bmh) ↔
      Each evolve StaysPut ∅ quietHistory := by
  refine @watch_agrees_with_relist_iff cloudConfigText freshApp ∅ [("g10", [])] List.Perm.nil
    quietHistory ?_
  have address (role : String) :
      (labelledHost "10.0.0.5" role).ip? = some (.v4 10 0 0 5) :=
    labelled_host_ip (by decide) (by decide) role
  have empty : Separate ∅ := by
    constructor
    · rintro id host ⟨⟩
    · rintro id id' host host' ip ⟨⟩
    · rintro id id' host host' name ⟨⟩
  intro done before
  rw [← List.mem_inits] at before
  simp only [quietHistory, List.inits, List.map_cons, List.map_nil, List.mem_cons,
    List.not_mem_nil, or_false] at before
  rcases before with rfl | rfl | rfl | rfl
  · exact empty
  · exact separate_single (address "worker") ("g10", "server1")
  · exact separate_single (address "master") ("g10", "server1")
  · exact empty

/-- The host moves to another address: the former one still leads to it. -/
theorem moved_host_keeps_former_address :
    let objects := evolve ∅ (hostEvent "ADDED" (labelledHost "10.0.0.5" "worker"))
    let move := hostEvent "MODIFIED" (labelledHost "10.0.0.6" "worker")
    let watching := @handleWatchEvent cloudConfigText
      (loadAllBmh freshApp (answered [("g10", [labelledHost "10.0.0.5" "worker"])])) move
    Lists [("g10", [labelledHost "10.0.0.5" "worker"])] objects ∧
    Lists [("g10", [labelledHost "10.0.0.6" "worker"])] (evolve objects move) ∧
    Separate objects ∧ Separate (evolve objects move) ∧
    ¬ SameBmh watching.bmh
      (loadAllBmh watching (answered [("g10", [labelledHost "10.0.0.6" "worker"])])).bmh := by
  have before : (labelledHost "10.0.0.5" "worker").ip? = some (.v4 10 0 0 5) :=
    labelled_host_ip (by decide) (by decide) "worker"
  have after : (labelledHost "10.0.0.6" "worker").ip? = some (.v4 10 0 0 6) :=
    labelled_host_ip (by decide) (by decide) "worker"
  refine ⟨List.Perm.refl _, List.Perm.refl _, separate_single before ("g10", "server1"),
    separate_single after ("g10", "server1"), ?_⟩
  intro same
  have former := same.names (.v4 10 0 0 5)
  revert former
  decide +kernel

end CloudId
