import CloudId.Library.JsonText
import CloudId.StoreFiles

/-! The template store as a finite map. As long as no name ends as a metadata file's name
does, the content files and the metadata files of a store do not meet, and the table of
its files is the picture of one map from image type and name to content and metadata.
`put`, `delete` and `restore` are its updates, `get` and the listings read it off, and a
backup carries it to another volume. -/
namespace CloudId
open FileSystem Effects Disk

/-- A template as the store keeps it. -/
structure TemplateEntry where
  content : String
  found : TemplateMeta
  deriving DecidableEq

/-- Templates by image type and name. -/
abbrev TemplateMap := HashMap (String × String) TemplateEntry

namespace TemplateMap

/-- The entry after a `put` while the clock shows these seconds: the creation time of an
entry that exists is kept. -/
def putEntry (held : TemplateMap) (key : String × String) (req : TemplateCreateRequest)
    (created updated : Nat) : TemplateEntry where
  content := req.content
  found :=
    { mode := req.mode
      createdAt := ((held.lookup key).map (·.found.createdAt)).getD (utcTimestamp created)
      updatedAt := utcTimestamp updated }

def put (held : TemplateMap) (key : String × String) (req : TemplateCreateRequest)
    (created updated : Nat) : TemplateMap :=
  held.insert key (held.putEntry key req created updated)

/-- A template as a request gets it. -/
def load (imageType name : String) (entry : TemplateEntry) : LoadedTemplate where
  imageType
  name
  format := TemplateFormat.fromFilename name
  mode := entry.found.mode
  content := entry.content
  createdAt := entry.found.createdAt
  updatedAt := entry.found.updatedAt

/-- The template of that name, or the first one of that name with an extension. -/
def get (held : TemplateMap) (imageType name : String) : Option LoadedTemplate :=
  [name, name ++ ".ign.json", name ++ ".ks", name ++ ".yaml"].findSome? fun candidate =>
    (held.lookup (imageType, candidate)).map (load imageType candidate)

end TemplateMap

/-! ## Calls -/

inductive StoreCall where
  | put (imageType name : String) (req : TemplateCreateRequest)
  | delete (imageType name : String)
  | restore (bundle : TemplateBundle)

inductive StoreReply where
  | loaded (template : LoadedTemplate)
  | deleted (existed : Bool)
  | restored (count : Nat)
  deriving DecidableEq

/-- Names of one path component, the template's not that of a metadata file. -/
structure PlainKey (imageType name : String) : Prop where
  type_ordinary : Ordinary imageType
  name_ordinary : Ordinary name
  unmarked : Text.endsWith name ".meta.json" = false

/-- All names in a call are plain. -/
def StoreCall.Plain : StoreCall → Prop
  | .put imageType name _ => PlainKey imageType name
  | .delete imageType name => PlainKey imageType name
  | .restore bundle => ∀ entry ∈ bundle.templates, PlainKey entry.imageType entry.name

/-- A key that a template can be put under. -/
structure EntryKey (imageType name : String) : Prop where
  type_entry : EntryName imageType
  name_entry : EntryName name
  unmarked : Text.endsWith name ".meta.json" = false

/-- What is written by a call has names that the volume takes. -/
def StoreCall.Fits : StoreCall → Prop
  | .put imageType name _ => EntryKey imageType name
  | .delete _ _ => True
  | .restore bundle => ∀ entry ∈ bundle.templates, EntryKey entry.imageType entry.name

namespace TemplateMap

/-- The puts of a restore, in turn. -/
inductive Restores : TemplateMap → List BundleEntry → TemplateMap → Prop where
  | nil {held : TemplateMap} : Restores held [] held
  | cons {held last : TemplateMap} {entry : BundleEntry} {rest : List BundleEntry}
      (created updated : Nat)
      (later : Restores (held.put (entry.imageType, entry.name)
        { mode := entry.mode, content := entry.content } created updated) rest last) :
      Restores held (entry :: rest) last

/-- What a call does to the map and answers, at some times of the clock. -/
inductive Step : TemplateMap → StoreCall → StoreReply → TemplateMap → Prop where
  | put {held : TemplateMap} {imageType name : String} {req : TemplateCreateRequest}
      (created updated : Nat) :
      Step held (.put imageType name req)
        (.loaded (load imageType name (held.putEntry (imageType, name) req created updated)))
        (held.put (imageType, name) req created updated)
  | delete {held : TemplateMap} {imageType name : String} :
      Step held (.delete imageType name) (.deleted (held.lookup (imageType, name)).isSome)
        (held.erase (imageType, name))
  | restore {held last : TemplateMap} {bundle : TemplateBundle}
      (puts : Restores held bundle.templates last) :
      Step held (.restore bundle) (.restored bundle.templates.length) last

inductive Run : TemplateMap → List StoreCall → List StoreReply → TemplateMap → Prop where
  | nil {held : TemplateMap} : Run held [] [] held
  | cons {held next last : TemplateMap} {call : StoreCall} {calls : List StoreCall}
      {reply : StoreReply} {replies : List StoreReply}
      (first : Step held call reply next) (later : Run next calls replies last) :
      Run held (call :: calls) (reply :: replies) last

end TemplateMap

/-! ## The files of a map -/

theorem meta_name_inj {first second : String} : metaName first = metaName second ↔ first = second := by
  constructor
  · intro same
    have stripped := Text.strip_suffix_append first ".meta.json"
    rw [metaName, metaName] at same
    rw [same, Text.strip_suffix_append] at stripped
    exact (Option.some.inj stripped).symm
  · rintro rfl
    rfl

theorem marked_meta_name (name : String) : Text.endsWith (metaName name) ".meta.json" = true :=
  Text.ends_with_append name ".meta.json"

theorem ne_meta_name {name : String} (unmarked : Text.endsWith name ".meta.json" = false)
    (other : String) : name ≠ metaName other := by
  rintro rfl
  rw [marked_meta_name] at unmarked
  cases unmarked

theorem unmarked_candidates {name : String} (unmarked : Text.endsWith name ".meta.json" = false) :
    ∀ candidate ∈ [name, name ++ ".ign.json", name ++ ".ks", name ++ ".yaml"],
      Text.endsWith candidate ".meta.json" = false := by
  simp only [List.mem_cons, List.not_mem_nil, or_false]
  rintro candidate (rfl | rfl | rfl | rfl)
  · exact unmarked
  · exact Text.not_ends_with_append (by decide) (by decide)
  · exact Text.not_ends_with_append (by decide) (by decide)
  · exact Text.not_ends_with_append (by decide) (by decide)

section Files

variable [Serialize TemplateMeta]

/-- The table of files that a map is kept in. -/
def TemplateMap.files (held : TemplateMap) : FileTable := fun imageType file =>
  match Text.stripSuffix file ".meta.json" with
  | some name => (held.lookup (imageType, name)).map fun entry => Serialize.toStringPretty entry.found
  | none => (held.lookup (imageType, file)).map TemplateEntry.content

/-- No name of the map is that of a metadata file. -/
def TemplateMap.Unmarked (held : TemplateMap) : Prop :=
  ∀ imageType name, (held.lookup (imageType, name)).isSome → Text.endsWith name ".meta.json" = false

theorem files_meta (held : TemplateMap) (imageType name : String) :
    held.files imageType (metaName name) =
      (held.lookup (imageType, name)).map fun entry => Serialize.toStringPretty entry.found := by
  rw [TemplateMap.files, metaName, Text.strip_suffix_append]

theorem files_content (held : TemplateMap) (imageType : String) {name : String}
    (unmarked : Text.endsWith name ".meta.json" = false) :
    held.files imageType name = (held.lookup (imageType, name)).map TemplateEntry.content := by
  rw [TemplateMap.files, Text.strip_suffix_eq_none unmarked]

/-- Two tables are one when they agree on the content files and on the metadata files. -/
theorem eq_files {files : FileTable} {held : TemplateMap}
    (metas : ∀ imageType name, files imageType (metaName name) =
      (held.lookup (imageType, name)).map fun entry => Serialize.toStringPretty entry.found)
    (contents : ∀ imageType name, Text.endsWith name ".meta.json" = false →
      files imageType name = (held.lookup (imageType, name)).map TemplateEntry.content) :
    files = held.files := by
  funext imageType file
  rw [TemplateMap.files]
  cases stripped : Text.stripSuffix file ".meta.json" with
  | some name =>
    rw [Text.strip_suffix_eq_some stripped]
    exact metas imageType name
  | none =>
    refine contents imageType file ?_
    by_contra marked
    rw [Bool.not_eq_false] at marked
    rw [Text.stripSuffix, if_pos marked] at stripped
    cases stripped

/-! ### The updates -/

/-- Both files of one template, written or removed. -/
theorem files_set_both {held next : TemplateMap} {imageType name : String}
    (unmarked : Text.endsWith name ".meta.json" = false) (entry : Option TemplateEntry)
    (changed : ∀ key, next.lookup key = if key = (imageType, name) then entry else held.lookup key) :
    (held.files.set imageType name (entry.map TemplateEntry.content)).set imageType (metaName name)
      (entry.map fun entry => Serialize.toStringPretty entry.found) = next.files := by
  refine eq_files ?_ ?_
  · intro otherType other
    rw [changed, FileTable.set, FileTable.set, files_meta]
    by_cases same : otherType = imageType ∧ other = name
    · obtain ⟨rfl, rfl⟩ := same
      simp
    · have elsewhere : ¬ (otherType = imageType ∧ metaName other = name) := by
        rintro ⟨-, marked⟩
        exact ne_meta_name unmarked other marked.symm
      have other_meta : ¬ (otherType = imageType ∧ metaName other = metaName name) := by
        rwa [meta_name_inj]
      rw [if_neg other_meta, if_neg elsewhere, if_neg (by simpa using same)]
  · intro otherType other plain
    have no_meta : ¬ (otherType = imageType ∧ other = metaName name) := by
      rintro ⟨-, marked⟩
      exact ne_meta_name plain name marked
    rw [changed, FileTable.set, if_neg no_meta, FileTable.set, files_content held otherType plain]
    by_cases same : otherType = imageType ∧ other = name
    · obtain ⟨rfl, rfl⟩ := same
      simp
    · rw [if_neg same, if_neg (by simpa using same)]

theorem files_erase {held : TemplateMap} {imageType name : String}
    (unmarked : Text.endsWith name ".meta.json" = false) :
    held.files.delete imageType name = TemplateMap.files (held.erase (imageType, name)) := by
  rw [FileTable.delete, files_content held imageType unmarked]
  cases present : held.lookup (imageType, name) with
  | some entry =>
    exact files_set_both unmarked none fun key => HashMap.lookup_erase_eq held _ key
  | none =>
    rw [Option.map_none, if_neg (by simp)]
    have same : ∀ key, held.lookup key = (held.erase (imageType, name)).lookup key := by
      intro key
      rw [HashMap.lookup_erase_eq]
      split
      · rename_i own
        rw [own, present]
      · rfl
    funext otherType file
    simp only [TemplateMap.files, same]

end Files

section Store

variable [Serialize TemplateMeta] [Deserialize TemplateMeta]

/-- Metadata is read back as it was written. -/
def ReadsBack : Prop :=
  ∀ found : TemplateMeta, Deserialize.fromStr (Serialize.toStringPretty found) = some found

theorem files_record (codec : ReadsBack) (held : TemplateMap) (imageType name : String) :
    held.files.record imageType name =
      (held.lookup (imageType, name)).map TemplateEntry.found := by
  rw [FileTable.record, files_meta]
  cases held.lookup (imageType, name) with
  | none => rfl
  | some entry => exact codec entry.found

theorem files_put (codec : ReadsBack) {held : TemplateMap} {imageType name : String}
    (unmarked : Text.endsWith name ".meta.json" = false) (req : TemplateCreateRequest)
    (created updated : Nat) :
    held.files.put imageType name req created updated =
      (held.put (imageType, name) req created updated).files := by
  have record : held.files.putRecord imageType name req created updated =
      (held.putEntry (imageType, name) req created updated).found := by
    rw [FileTable.putRecord, files_record codec, Option.map_map]
    rfl
  rw [FileTable.put, record]
  exact files_set_both unmarked (some (held.putEntry (imageType, name) req created updated))
    fun key => HashMap.lookup_insert_eq held _ key _

/-! ### The answers -/

theorem files_get (codec : ReadsBack) (held : TemplateMap) (imageType : String) {name : String}
    (unmarked : Text.endsWith name ".meta.json" = false) (created updated : Nat) :
    held.files.get imageType name created updated = held.get imageType name := by
  rw [FileTable.get, FileTable.found, TemplateMap.get]
  have plain := unmarked_candidates unmarked
  generalize [name, name ++ ".ign.json", name ++ ".ks", name ++ ".yaml"] = candidates at plain ⊢
  induction candidates with
  | nil => rfl
  | cons candidate rest step =>
    have content := files_content held imageType (plain candidate List.mem_cons_self)
    rw [List.find?_cons, List.findSome?_cons]
    cases present : held.lookup (imageType, candidate) with
    | none =>
      rw [content, present]
      exact step fun other listed => plain other (List.mem_cons_of_mem _ listed)
    | some entry =>
      have record : held.files.recordAt imageType candidate created updated = entry.found := by
        rw [FileTable.recordAt, files_record codec, present]
        rfl
      rw [content, present, Option.map_some, Option.isSome_some, Option.bind_some, content, present,
        Option.map_some, Option.map_some, FileTable.load, record]
      rfl

omit [Deserialize TemplateMeta] in
theorem files_listed {held : TemplateMap} (unmarked : held.Unmarked) (imageType name : String) :
    held.files.Listed imageType name ↔ (held.lookup (imageType, name)).isSome := by
  rw [FileTable.Listed]
  constructor
  · rintro ⟨present, plain⟩
    rw [files_content held imageType plain, Option.isSome_map] at present
    exact present
  · intro present
    have plain := unmarked imageType name present
    refine ⟨?_, plain⟩
    rw [files_content held imageType plain, Option.isSome_map]
    exact present

theorem files_summary (codec : ReadsBack) {held : TemplateMap} {imageType name : String}
    {entry : TemplateEntry} (present : held.lookup (imageType, name) = some entry) :
    held.files.summary imageType name =
      { imageType, name, format := TemplateFormat.fromFilename name, mode := entry.found.mode } := by
  rw [FileTable.summary, files_record codec, present]
  rfl

/-! ## Runs -/

def StoreCall.run (store : TemplateStore) : StoreCall → FileM StoreReply
  | .put imageType name req => do return .loaded (← store.put imageType name req)
  | .delete imageType name => do return .deleted (← store.delete imageType name)
  | .restore bundle => do return .restored (← store.restore bundle)

/-- Calls in turn, each of which has to succeed. -/
def runCalls (store : TemplateStore) : List StoreCall → FileM (List StoreReply)
  | [] => return []
  | call :: calls => do
    let reply ← call.run store
    return reply :: (← runCalls store calls)

/-- A volume keeps a map. -/
structure Keeping (store : TemplateStore) (disk : Disk) (place : List String)
    (held : TemplateMap) : Prop where
  shown : Shows store disk place held.files
  unmarked : held.Unmarked

omit [Deserialize TemplateMeta] [Serialize TemplateMeta] in
theorem unmarked_put {held : TemplateMap} (unmarked : held.Unmarked) {imageType name : String}
    (plain : Text.endsWith name ".meta.json" = false) (req : TemplateCreateRequest)
    (created updated : Nat) : (held.put (imageType, name) req created updated).Unmarked := by
  intro otherType other present
  rw [TemplateMap.put, HashMap.lookup_insert_eq] at present
  split at present
  · rename_i same
    rw [(Prod.mk.inj same).2]
    exact plain
  · exact unmarked otherType other present

/-- **A put is a put of the map.** -/
theorem put_refines (codec : ReadsBack) {store : TemplateStore} {disk : Disk} {place : List String}
    {held : TemplateMap} (keeping : Keeping store disk place held) {imageType name : String}
    (entry : EntryName imageType) (entry' : EntryName name)
    (unmarked : Text.endsWith name ".meta.json" = false) (req : TemplateCreateRequest) :
    ∃ created updated, Yields (store.put imageType name req) disk
      (TemplateMap.load imageType name (held.putEntry (imageType, name) req created updated))
      (Keeping store · place (held.put (imageType, name) req created updated)) := by
  obtain ⟨created, updated, next, put, shown⟩ := keeping.shown.put_eq entry entry' req
  rw [files_put codec unmarked] at shown
  have record : held.files.putRecord imageType name req created updated =
      (held.putEntry (imageType, name) req created updated).found := by
    rw [FileTable.putRecord, files_record codec, Option.map_map]
    rfl
  rw [record] at put
  exact ⟨created, updated, next, put, shown, unmarked_put keeping.unmarked unmarked req _ _⟩

omit [Deserialize TemplateMeta] in
theorem delete_refines {store : TemplateStore} {disk : Disk} {place : List String}
    {held : TemplateMap} (keeping : Keeping store disk place held) {imageType name : String}
    (key : PlainKey imageType name) :
    Yields (store.delete imageType name) disk (held.lookup (imageType, name)).isSome
      (Keeping store · place (held.erase (imageType, name))) := by
  obtain ⟨next, deleted, shown⟩ := keeping.shown.delete_eq key.type_ordinary key.name_ordinary
  rw [files_content held imageType key.unmarked, Option.isSome_map] at deleted
  rw [files_erase key.unmarked] at shown
  refine ⟨next, deleted, shown, ?_⟩
  intro otherType other present
  rw [HashMap.lookup_erase_eq] at present
  split at present
  · cases present
  · exact keeping.unmarked otherType other present

theorem import_refines (codec : ReadsBack) {store : TemplateStore} {place : List String}
    (entries : List BundleEntry) {disk final : Disk} {held : TemplateMap} {count : Nat}
    (keeping : Keeping store disk place held)
    (plain : ∀ entry ∈ entries, PlainKey entry.imageType entry.name)
    (ran : store.importEntries entries disk = .ok count final) :
    count = entries.length ∧ ∃ last, TemplateMap.Restores held entries last ∧
      Keeping store final place last := by
  induction entries generalizing disk held count with
  | nil =>
    cases ran
    exact ⟨rfl, held, .nil, keeping⟩
  | cons entry rest step =>
    rw [TemplateStore.importEntries] at ran
    obtain ⟨loaded, next, put, ran⟩ := bind_eq_ok.mp ran
    obtain ⟨imported, last, later, ran⟩ := bind_eq_ok.mp ran
    have key := plain entry List.mem_cons_self
    obtain ⟨type_entry, name_entry⟩ :=
      Shows.put_entries key.type_ordinary key.name_ordinary put
    obtain ⟨created, updated, next', put', keeping⟩ :=
      put_refines codec keeping type_entry name_entry key.unmarked _
    obtain ⟨-, rfl⟩ := EStateM.Result.ok.inj (put.symm.trans put')
    cases ran
    obtain ⟨rfl, held', restores, keeping⟩ := step keeping
      (fun other listed => plain other (List.mem_cons_of_mem _ listed)) later
    exact ⟨rfl, held', .cons created updated restores, keeping⟩

theorem call_refines (codec : ReadsBack) {store : TemplateStore} {place : List String}
    {disk final : Disk} {held : TemplateMap} (keeping : Keeping store disk place held)
    {call : StoreCall} (plain : call.Plain) {reply : StoreReply}
    (ran : call.run store disk = .ok reply final) :
    ∃ last, TemplateMap.Step held call reply last ∧ Keeping store final place last := by
  cases call with
  | put imageType name req =>
    obtain ⟨loaded, next, put, ran⟩ := bind_eq_ok.mp ran
    obtain ⟨type_entry, name_entry⟩ := Shows.put_entries plain.type_ordinary plain.name_ordinary put
    obtain ⟨created, updated, next', put', keeping⟩ :=
      put_refines codec keeping type_entry name_entry plain.unmarked req
    obtain ⟨rfl, rfl⟩ := EStateM.Result.ok.inj (put.symm.trans put')
    cases ran
    exact ⟨_, .put created updated, keeping⟩
  | delete imageType name =>
    obtain ⟨existed, next, deleted, ran⟩ := bind_eq_ok.mp ran
    obtain ⟨next', deleted', keeping⟩ := delete_refines keeping plain
    obtain ⟨rfl, rfl⟩ := EStateM.Result.ok.inj (deleted.symm.trans deleted')
    cases ran
    exact ⟨_, .delete, keeping⟩
  | restore bundle =>
    obtain ⟨count, next, restored, ran⟩ := bind_eq_ok.mp ran
    obtain ⟨rfl, last, puts, keeping⟩ :=
      import_refines codec bundle.templates keeping plain restored
    cases ran
    exact ⟨last, .restore puts, keeping⟩

/-- **A run of calls is a run of the map.** -/
theorem run_refines (codec : ReadsBack) {store : TemplateStore} {place : List String}
    {calls : List StoreCall} {disk final : Disk} {held : TemplateMap} {replies : List StoreReply}
    (keeping : Keeping store disk place held) (plain : ∀ call ∈ calls, call.Plain)
    (ran : runCalls store calls disk = .ok replies final) :
    ∃ last, TemplateMap.Run held calls replies last ∧ Keeping store final place last := by
  induction calls generalizing disk held replies with
  | nil =>
    cases ran
    exact ⟨held, .nil, keeping⟩
  | cons call rest step =>
    rw [runCalls] at ran
    obtain ⟨reply, next, first, ran⟩ := bind_eq_ok.mp ran
    obtain ⟨later_replies, last, later, ran⟩ := bind_eq_ok.mp ran
    obtain ⟨between, stepped, keeping⟩ :=
      call_refines codec keeping (plain call List.mem_cons_self) first
    cases ran
    obtain ⟨held', run, keeping⟩ :=
      step keeping (fun other listed => plain other (List.mem_cons_of_mem _ listed)) later
    exact ⟨held', .cons stepped run, keeping⟩

/-! ## What requests see -/

/-- What the requests see of a volume is the map: single templates, and the listings in
ascending order. -/
structure ReadsAs (store : TemplateStore) (disk : Disk) (held : TemplateMap) : Prop where
  get : ∀ imageType name, PlainKey imageType name →
    ∃ next, store.get imageType name disk = .ok (held.get imageType name) next
  lists : ∃ listed next, store.listAll disk = .ok listed next ∧
    (listed.Pairwise fun first second => first.imageType < second.imageType ∨
      first.imageType = second.imageType ∧ first.name < second.name) ∧
    (∀ summary, summary ∈ listed ↔ ∃ entry,
      held.lookup (summary.imageType, summary.name) = some entry ∧
      summary.mode = entry.found.mode ∧
      summary.format = TemplateFormat.fromFilename summary.name) ∧
    ∀ imageType, Ordinary imageType → ∃ next, store.listByType imageType disk =
      .ok (listed.filter fun summary => summary.imageType = imageType) next

theorem keeping_listed (codec : ReadsBack) {store : TemplateStore} {place : List String}
    {disk : Disk} {held : TemplateMap} (keeping : Keeping store disk place held)
    (summary : TemplateSummary) :
    (∃ imageType name, held.files.Listed imageType name ∧
        summary = held.files.summary imageType name) ↔
      ∃ entry, held.lookup (summary.imageType, summary.name) = some entry ∧
        summary.mode = entry.found.mode ∧
        summary.format = TemplateFormat.fromFilename summary.name := by
  constructor
  · rintro ⟨imageType, name, listed, rfl⟩
    obtain ⟨entry, present⟩ :=
      Option.isSome_iff_exists.mp ((files_listed keeping.unmarked imageType name).mp listed)
    rw [files_summary codec present]
    exact ⟨entry, present, rfl, rfl⟩
  · rintro ⟨entry, present, mode, format⟩
    refine ⟨summary.imageType, summary.name, ?_, ?_⟩
    · rw [files_listed keeping.unmarked, present]
      rfl
    · rw [files_summary codec present, ← mode, ← format]

theorem keeping_reads (codec : ReadsBack) {store : TemplateStore} {place : List String}
    {disk : Disk} {held : TemplateMap} (keeping : Keeping store disk place held) :
    ReadsAs store disk held where
  get := by
    intro imageType name key
    obtain ⟨created, updated, next, got, -⟩ :=
      keeping.shown.get_eq key.type_ordinary key.name_ordinary
    rw [files_get codec held imageType key.unmarked] at got
    exact ⟨next, got⟩
  lists := by
    obtain ⟨listed, ⟨next, all, -⟩, sorted, members⟩ := keeping.shown.list_all_eq
    rw [List.sortedLT_iff_pairwise, List.pairwise_map] at sorted
    refine ⟨listed, next, all, ?_, ?_, ?_⟩
    · exact sorted.imp fun before => Prod.Lex.toLex_lt_toLex.mp before
    · intro summary
      rw [members]
      exact keeping_listed codec keeping summary
    · intro imageType ordinary
      obtain ⟨own, ⟨last, by_type, -⟩, own_sorted, own_members⟩ :=
        keeping.shown.list_by_type_eq ordinary
      refine ⟨last, ?_⟩
      have same : own = listed.filter fun summary => summary.imageType = imageType := by
        refine SortedMap.eq_of_sorted_keys own_sorted ?_ ?_
        · rw [List.sortedLT_iff_pairwise, List.pairwise_map]
          refine (sorted.filter _).imp_of_mem fun listed listed' before => ?_
          have first_type := of_decide_eq_true (List.mem_filter.mp listed).2
          have second_type := of_decide_eq_true (List.mem_filter.mp listed').2
          rcases Prod.Lex.toLex_lt_toLex.mp before with smaller | ⟨-, smaller⟩
          · rw [first_type, second_type] at smaller
            exact absurd smaller (lt_irrefl imageType)
          · exact smaller
        · intro summary
          rw [own_members, List.mem_filter, members, decide_eq_true_iff]
          constructor
          · rintro ⟨name, listed, rfl⟩
            exact ⟨⟨imageType, name, listed, rfl⟩, rfl⟩
          · rintro ⟨⟨other, name, listed, rfl⟩, same_type⟩
            have same_type : other = imageType := same_type
            rw [same_type] at listed ⊢
            exact ⟨name, listed, rfl⟩
      rw [← same]
      exact by_type

/-! ## Backups -/

/-- The template directory is there, with nothing below it. -/
structure EmptyStore (store : TemplateStore) (disk : Disk) (place : List String) : Prop where
  healthy : disk.Healthy
  opens : disk.Opens store.templatesDir place
  nothing : ∀ rest, rest ≠ [] → disk.node? (place ++ rest) = none

omit [Deserialize TemplateMeta] in
theorem empty_keeping {store : TemplateStore} {disk : Disk} {place : List String}
    (empty : EmptyStore store disk place) : Keeping store disk place ∅ where
  shown :=
    { healthy := empty.healthy
      opens := empty.opens
      types := by
        intro imageType node held
        rw [empty.nothing [imageType] (by simp)] at held
        cases held
      entries := by
        intro imageType file
        rw [empty.nothing [imageType, file] (by simp), TemplateMap.files]
        split <;> rfl
      within := by
        intro imageType file present
        rw [TemplateMap.files] at present
        split at present <;> cases present }
  unmarked := by
    rintro imageType name ⟨⟩

theorem import_succeeds (codec : ReadsBack) {store : TemplateStore} {place : List String}
    (entries : List BundleEntry) {disk : Disk} {held : TemplateMap}
    (keeping : Keeping store disk place held)
    (plain : ∀ entry ∈ entries, EntryName entry.imageType ∧ EntryName entry.name ∧
      Text.endsWith entry.name ".meta.json" = false) :
    ∃ last, TemplateMap.Restores held entries last ∧
      Yields (store.importEntries entries) disk entries.length (Keeping store · place last) := by
  induction entries generalizing disk held with
  | nil => exact ⟨held, .nil, yields_pure keeping⟩
  | cons entry rest step =>
    obtain ⟨type_entry, name_entry, unmarked⟩ := plain entry List.mem_cons_self
    obtain ⟨created, updated, next, put, keeping⟩ :=
      put_refines codec keeping type_entry name_entry unmarked
        { mode := entry.mode, content := entry.content }
    obtain ⟨last, restores, final, imported, keeping⟩ :=
      step keeping fun other listed => plain other (List.mem_cons_of_mem _ listed)
    refine ⟨last, .cons created updated restores, final, ?_, keeping⟩
    rw [TemplateStore.importEntries]
    exact (bind_ok put).trans (bind_ok imported)

/-- The content and the mode of a template. -/
def TemplateEntry.payload (entry : TemplateEntry) : String × TemplateMode :=
  (entry.content, entry.found.mode)

omit [Serialize TemplateMeta] [Deserialize TemplateMeta] in
theorem restores_elsewhere {held last : TemplateMap} {entries : List BundleEntry}
    (restores : TemplateMap.Restores held entries last) {key : String × String}
    (absent : key ∉ entries.map fun entry => (entry.imageType, entry.name)) :
    last.lookup key = held.lookup key := by
  induction restores with
  | nil => rfl
  | cons created updated later step =>
    rw [List.map_cons, List.mem_cons, not_or] at absent
    rw [step absent.2, TemplateMap.put, HashMap.lookup_insert_eq, if_neg absent.1]

omit [Serialize TemplateMeta] [Deserialize TemplateMeta] in
/-- A restore of distinct entries leaves each of them. -/
theorem restores_listed {held last : TemplateMap} {entries : List BundleEntry}
    (restores : TemplateMap.Restores held entries last)
    (distinct : (entries.map fun entry => (entry.imageType, entry.name)).Nodup) :
    ∀ entry ∈ entries, (last.lookup (entry.imageType, entry.name)).map TemplateEntry.payload =
      some (entry.content, entry.mode) := by
  induction restores with
  | nil => exact fun entry listed => absurd listed List.not_mem_nil
  | cons created updated later step =>
    rw [List.map_cons, List.nodup_cons] at distinct
    intro entry listed
    rcases List.mem_cons.mp listed with rfl | listed
    · rw [restores_elsewhere later distinct.1, TemplateMap.put, HashMap.lookup_insert_eq, if_pos rfl]
      rfl
    · exact step distinct.2 entry listed

/-- **A backup restored elsewhere has the same templates.** -/
theorem backup_restores (codec : ReadsBack) {store : TemplateStore} {place : List String}
    {disk : Disk} {held : TemplateMap} (keeping : Keeping store disk place held) :
    ∃ bundle next, store.backup disk = .ok bundle next ∧
      ∀ (copy : TemplateStore) (volume : Disk) (at_ : List String), EmptyStore copy volume at_ →
        ∃ final copied, copy.restore bundle volume = .ok bundle.templates.length final ∧
          ReadsAs copy final copied ∧
          ∀ key, (copied.lookup key).map TemplateEntry.payload =
            (held.lookup key).map TemplateEntry.payload := by
  obtain ⟨listed, bundle, ⟨next, backed, -⟩, sorted, members, templates⟩ := keeping.shown.backup_eq
  refine ⟨bundle, next, backed, ?_⟩
  intro copy volume at_ empty
  have plain : ∀ entry ∈ bundle.templates, EntryName entry.imageType ∧ EntryName entry.name ∧
      Text.endsWith entry.name ".meta.json" = false := by
    intro entry member
    rw [templates] at member
    obtain ⟨summary, in_listing, rfl⟩ := List.mem_map.mp member
    obtain ⟨imageType, name, ⟨present, unmarked⟩, rfl⟩ := (members summary).mp in_listing
    obtain ⟨is_dir, name_entry⟩ := keeping.shown.within imageType name present
    exact ⟨(keeping.shown.types imageType _ is_dir).2, name_entry, unmarked⟩
  obtain ⟨copied, restores, final, restored, kept⟩ :=
    import_succeeds codec bundle.templates (empty_keeping empty) plain
  refine ⟨final, copied, restored, keeping_reads codec kept, ?_⟩
  have distinct : (bundle.templates.map fun entry => (entry.imageType, entry.name)).Nodup := by
    rw [templates, List.map_map]
    have keyed := sorted.nodup
    exact keyed
  rintro ⟨imageType, name⟩
  cases present : held.lookup (imageType, name) with
  | some entry =>
    have listed_ : held.files.Listed imageType name := by
      rw [files_listed keeping.unmarked, present]
      rfl
    have content : held.files imageType name = some entry.content := by
      rw [files_content held imageType listed_.2, present]
      rfl
    have member : held.files.bundleEntry imageType name entry.content ∈ bundle.templates := by
      rw [templates]
      refine List.mem_map.mpr ⟨held.files.summary imageType name,
        (members _).mpr ⟨imageType, name, listed_, rfl⟩, ?_⟩
      change held.files.bundleEntry imageType name ((held.files imageType name).getD "") = _
      rw [content]
      rfl
    have kept_entry := restores_listed restores distinct _ member
    rw [FileTable.bundleEntry, files_summary codec present] at kept_entry
    exact kept_entry
  | none =>
    have absent : (imageType, name) ∉
        bundle.templates.map fun entry => (entry.imageType, entry.name) := by
      rw [templates, List.map_map]
      intro member
      obtain ⟨summary, member, same⟩ := List.mem_map.mp member
      obtain ⟨otherType, other, listed_, rfl⟩ := (members summary).mp member
      obtain ⟨rfl, rfl⟩ := Prod.mk.inj same
      have held_ := (files_listed keeping.unmarked otherType other).mp listed_
      rw [show held.lookup (otherType, other) = none from present] at held_
      cases held_
    rw [restores_elsewhere restores absent]
    rfl

theorem call_succeeds (codec : ReadsBack) {store : TemplateStore} {place : List String}
    {disk : Disk} {held : TemplateMap} (keeping : Keeping store disk place held) {call : StoreCall}
    (plain : call.Plain) (fits : call.Fits) :
    ∃ reply next, call.run store disk = .ok reply next := by
  cases call with
  | put imageType name req =>
    obtain ⟨created, updated, next, put, -⟩ :=
      put_refines codec keeping fits.type_entry fits.name_entry fits.unmarked req
    exact ⟨_, next, bind_ok put⟩
  | delete imageType name =>
    obtain ⟨next, deleted, -⟩ := delete_refines keeping plain
    exact ⟨_, next, bind_ok deleted⟩
  | restore bundle =>
    obtain ⟨last, -, next, restored, -⟩ := import_succeeds codec bundle.templates keeping
      fun entry listed => ⟨(fits entry listed).type_entry, (fits entry listed).name_entry,
        (fits entry listed).unmarked⟩
    exact ⟨_, next, bind_ok restored⟩

/-- On a volume that works, calls succeed whose names it takes. -/
theorem run_succeeds (codec : ReadsBack) {store : TemplateStore} {place : List String}
    {calls : List StoreCall} {disk : Disk} {held : TemplateMap}
    (keeping : Keeping store disk place held) (plain : ∀ call ∈ calls, call.Plain)
    (fits : ∀ call ∈ calls, call.Fits) :
    ∃ replies final, runCalls store calls disk = .ok replies final := by
  induction calls generalizing disk held with
  | nil => exact ⟨[], disk, rfl⟩
  | cons call rest step =>
    have own := plain call List.mem_cons_self
    obtain ⟨reply, next, first⟩ :=
      call_succeeds codec keeping own (fits call List.mem_cons_self)
    obtain ⟨between, -, keeping⟩ := call_refines codec keeping own first
    obtain ⟨replies, final, later⟩ := step keeping
      (fun other listed => plain other (List.mem_cons_of_mem _ listed))
      (fun other listed => fits other (List.mem_cons_of_mem _ listed))
    refine ⟨reply :: replies, final, ?_⟩
    rw [runCalls]
    exact (bind_ok first).trans (bind_ok later)

/-- **The template store is a finite map.** After any run of puts, deletes and restores
with plain names, all of which succeed, the answers of the calls are those of the map,
requests see the map, and a backup carries it to an empty store. The calls succeed where the
volume takes their names. -/
theorem store_is_finite_map (codec : ReadsBack) {store : TemplateStore} {disk : Disk}
    {place : List String} (empty : EmptyStore store disk place) {calls : List StoreCall}
    (plain : ∀ call ∈ calls, call.Plain) :
    ((∀ call ∈ calls, call.Fits) → ∃ replies final, runCalls store calls disk = .ok replies final) ∧
    ∀ (replies : List StoreReply) (final : Disk), runCalls store calls disk = .ok replies final →
      ∃ held, TemplateMap.Run ∅ calls replies held ∧ ReadsAs store final held ∧
        ∃ bundle next, store.backup final = .ok bundle next ∧
          ∀ (copy : TemplateStore) (volume : Disk) (at_ : List String), EmptyStore copy volume at_ →
            ∃ last copied, copy.restore bundle volume = .ok bundle.templates.length last ∧
              ReadsAs copy last copied ∧
              ∀ key, (copied.lookup key).map TemplateEntry.payload =
                (held.lookup key).map TemplateEntry.payload := by
  refine ⟨run_succeeds codec (empty_keeping empty) plain, fun replies final ran => ?_⟩
  obtain ⟨held, run, keeping⟩ := run_refines codec (empty_keeping empty) plain ran
  exact ⟨held, run, keeping_reads codec keeping, backup_restores codec keeping⟩

end Store

/-! ## The text form -/

/-- What `derive(Deserialize)` makes of a mode. -/
def TemplateMode.read : String → Option TemplateMode
  | "oneshot" => some .oneshot
  | "forever" => some .forever
  | _ => none

/-- What `derive(Deserialize)` makes of a metadata file. -/
def TemplateMeta.readJson (value : Json) : Option TemplateMeta := do
  let mode ← TemplateMode.read (← (← value.get? "mode").asStr)
  let createdAt ← (← value.get? "created_at").asStr
  let updatedAt ← (← value.get? "updated_at").asStr
  return { mode, createdAt, updatedAt }

@[reducible] def templateMetaParser : Deserialize TemplateMeta where
  fromStr text := (Json.parse text).bind TemplateMeta.readJson

theorem template_meta_reads_back : @ReadsBack templateMetaText templateMetaParser := by
  intro found
  have textual : found.serialize.Textual := ⟨trivial, trivial, trivial, trivial⟩
  change (Json.parse (found.serialize.pretty 0)).bind TemplateMeta.readJson = _
  rw [Json.parse_pretty textual, Option.bind_some]
  obtain ⟨mode, createdAt, updatedAt⟩ := found
  cases mode <;> rfl

section Sample

attribute [local instance] templateMetaText templateMetaParser

theorem empty_volume_empty : EmptyStore { dataDir := "/data" } emptyVolume ["data", "templates"] where
  healthy _ := rfl
  opens := ⟨by decide, by decide +kernel, by rfl⟩
  nothing := by
    intro rest nonempty
    have keys : emptyVolume.nodes.keys = [["data", "templates"], ["data"]] := by decide
    rw [node?, if_neg (by simp), AList.lookup_eq_none, AList.mem_keys, keys]
    simp [nonempty]

/-- A template is put, overwritten and deleted twice, and another one is restored. -/
def storeCalls : List StoreCall :=
  [.put "fcos" "base" { mode := .oneshot, content := "a" },
    .put "fcos" "base" { content := "b" }, .delete "fcos" "base", .delete "fcos" "base",
    .restore { version := 1, exportedAt := "", templates :=
      [{ imageType := "fedora", name := "runner.ks", format := .kickstart, mode := .oneshot
         content := "c" }] }]

/-- These calls succeed on an empty volume, and then it keeps a map. -/
theorem store_is_finite_map_calls : ∃ replies final,
    runCalls { dataDir := "/data" } storeCalls emptyVolume = .ok replies final ∧
    ∃ held, TemplateMap.Run ∅ storeCalls replies held ∧
      ReadsAs { dataDir := "/data" } final held ∧
      ∃ bundle next, TemplateStore.backup { dataDir := "/data" } final = .ok bundle next ∧
        ∀ (copy : TemplateStore) (volume : Disk) (at_ : List String), EmptyStore copy volume at_ →
          ∃ last copied, copy.restore bundle volume = .ok bundle.templates.length last ∧
            ReadsAs copy last copied ∧
            ∀ key, (copied.lookup key).map TemplateEntry.payload =
              (held.lookup key).map TemplateEntry.payload := by
  have plain : ∀ call ∈ storeCalls, call.Plain := by
    have fcos : PlainKey "fcos" "base" := ⟨by decide, by decide, by decide⟩
    have fedora : PlainKey "fedora" "runner.ks" := ⟨by decide, by decide, by decide⟩
    simp [storeCalls, StoreCall.Plain, fcos, fedora]
  have fits : ∀ call ∈ storeCalls, call.Fits := by
    have fcos : EntryKey "fcos" "base" := ⟨by decide, by decide, by decide⟩
    have fedora : EntryKey "fedora" "runner.ks" := ⟨by decide, by decide, by decide⟩
    simp [storeCalls, StoreCall.Fits, fcos, fedora]
  obtain ⟨succeed, keeps⟩ := store_is_finite_map template_meta_reads_back empty_volume_empty plain
  obtain ⟨replies, final, ran⟩ := succeed fits
  exact ⟨replies, final, ran, keeps replies final ran⟩

end Sample

end CloudId
