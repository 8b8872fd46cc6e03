import CloudId.TemplatePrograms
import CloudId.TemplateNames

/-! Where the names of a request lead. An image type and a template name come from the
network, from a bundle or from a reference and are joined onto the template directory as
they are. Which names keep every file operation of a request below that directory is a
matter of the letters of four paths. -/
namespace CloudId
open FileSystem Effects Disk

/-- The requests that carry an image type or a template name. -/
inductive NamedRequest where
  | get (imageType name : String)
  | put (imageType name : String) (req : TemplateCreateRequest)
  | delete (imageType name : String)
  | listByType (imageType : String)
  | restore (bundle : TemplateBundle)

/-- All names of a request are among these. -/
def NamedRequest.Uses (keys : String → String → Prop) : NamedRequest → Prop
  | get imageType name => keys imageType name
  | put imageType name _ => keys imageType name
  | delete imageType name => keys imageType name
  | listByType imageType => ∃ name, keys imageType name
  | restore bundle => ∀ entry ∈ bundle.templates, keys entry.imageType entry.name

/-- The names keep to the template directory: where the type's directory is, which
directories may have to be made for it, and where the two files of the template are. -/
structure SafeName (store : TemplateStore) (cwd : List String) (imageType name : String) :
    Prop where
  directory : Inside cwd store.templatesDir (join store.templatesDir imageType)
  made : MadeInside cwd store.templatesDir (join store.templatesDir imageType)
  template : Inside cwd store.templatesDir (store.templatePath imageType name)
  metadata : Inside cwd store.templatesDir (store.metaPath imageType name)

instance (store : TemplateStore) (cwd : List String) (imageType name : String) :
    Decidable (SafeName store cwd imageType name) :=
  decidable_of_iff (Inside cwd store.templatesDir (join store.templatesDir imageType) ∧
      MadeInside cwd store.templatesDir (join store.templatesDir imageType) ∧
      Inside cwd store.templatesDir (store.templatePath imageType name) ∧
      Inside cwd store.templatesDir (store.metaPath imageType name))
    ⟨fun ⟨a, b, c, d⟩ => ⟨a, b, c, d⟩, fun ⟨a, b, c, d⟩ => ⟨a, b, c, d⟩⟩

/-! ## Files beside a template -/

/-- The template directory's own name. -/
theorem spell_templates_dir (store : TemplateStore) (cwd : List String) :
    ∃ front, spell cwd store.templatesDir = front ++ ["templates"] := by
  have ordinary : Ordinary "templates" := by decide
  exact ⟨_, @spelled_join_ordinary { cwd } store.dataDir "templates" ordinary⟩

/-- A suffix of a template's file name. -/
structure FileSuffix (suffix : String) : Prop extends Suffix suffix where
  no_nul : '\x00' ∉ suffix.toList
  other : Text.endsWith "templates" suffix = false

instance (suffix : String) : Decidable (FileSuffix suffix) :=
  decidable_of_iff ('/' ∉ suffix.toList ∧ suffix.toList.any (· ≠ '.') = true ∧
      '\x00' ∉ suffix.toList ∧ Text.endsWith "templates" suffix = false)
    ⟨fun ⟨a, b, c, d⟩ => ⟨⟨a, by simpa using b⟩, c, d⟩,
      fun ⟨⟨a, b⟩, c, d⟩ => ⟨a, by simpa using b, c, d⟩⟩

/-- Files that differ in a suffix are together inside or outside. -/
theorem inside_suffix {store : TemplateStore} {cwd : List String} {imageType name : String}
    {first second : String} (shape : FileSuffix first) (shape' : FileSuffix second)
    (inside : Inside cwd store.templatesDir (store.templatePath imageType (name ++ first))) :
    Inside cwd store.templatesDir (store.templatePath imageType (name ++ second)) := by
  have nul_iff : ∀ suffix, FileSuffix suffix →
      ('\x00' ∈ (store.templatePath imageType (name ++ suffix)).toList ↔
        '\x00' ∈ name.toList ∨ isAbsolute name = false ∧
          '\x00' ∈ (join store.templatesDir imageType).toList) := by
    intro suffix shape
    have in_name : '\x00' ∈ (name ++ suffix).toList ↔ '\x00' ∈ name.toList := by
      rw [String.toList_append, List.mem_append]
      exact or_iff_left shape.no_nul
    have absolute := is_absolute_suffix shape.toSuffix name
    rw [TemplateStore.templatePath]
    cases kind : isAbsolute name with
    | true =>
      rw [join_absolute (absolute.trans kind), in_name]
      simp
    | false =>
      rw [mem_join (absolute.trans kind) (by decide), in_name]
      simp [or_comm]
  rcases inside with nul | below
  · exact .inl ((nul_iff second shape').mpr ((nul_iff first shape).mp nul))
  · refine .inr ?_
    obtain ⟨place, last, -, spelled⟩ :=
      spelled_join_suffix { cwd } (join store.templatesDir imageType) name
    have own : ∀ suffix, Suffix suffix →
        spell cwd (store.templatePath imageType (name ++ suffix)) = place ++ [last ++ suffix] :=
      spelled
    obtain ⟨front, base⟩ := spell_templates_dir store cwd
    rw [own first shape.toSuffix] at below
    rw [own second shape'.toSuffix]
    rcases List.prefix_concat_iff.mp below with same | above
    · rw [base] at same
      obtain ⟨-, same_name⟩ := List.append_inj' same rfl
      have ends : Text.endsWith "templates" first = true := by
        rw [(List.cons.inj same_name).1]
        exact Text.ends_with_append last first
      rw [shape.other] at ends
      cases ends
    · exact above.trans (List.prefix_append _ _)

/-! ## Safe names keep to the directory -/

section Programs

open Program

variable {store : TemplateStore} {cwd : List String} {imageType name : String}

/-- The program keeps to the template directory. -/
abbrev KeepsInside (store : TemplateStore) (cwd : List String) {α : Type} (post : α → Prop)
    (program : Program α) : Prop :=
  KeepsTo (Serves cwd store.templatesDir) (spell cwd store.templatesDir <+: ·) post program

theorem keeps_now_utc : KeepsInside store cwd (fun _ => True) nowUtcProgram :=
  keeps_to_now.bind fun _ _ => keeps_to_pure trivial

/-- An entry of a safe directory is inside. -/
theorem inside_entry (inside : Inside cwd store.templatesDir (join store.templatesDir imageType))
    (entry : EntryName name) :
    Inside cwd store.templatesDir (store.templatePath imageType name) := by
  rcases inside with nul | below
  · refine .inl ?_
    rw [TemplateStore.templatePath, mem_join entry.relative (by decide)]
    exact .inl nul
  · refine .inr ?_
    have spelled : spell cwd (store.templatePath imageType name) =
        spell cwd (join store.templatesDir imageType) ++ [name] :=
      @spelled_join_ordinary { cwd } (join store.templatesDir imageType) name entry.toOrdinary
    rw [spelled]
    exact below.trans (List.prefix_append _ _)

section Meta

variable [Deserialize TemplateMeta]

theorem keeps_read_meta (inside : Inside cwd store.templatesDir (store.metaPath imageType name)) :
    KeepsInside store cwd (fun _ => True) (store.readMetaProgram imageType name) := by
  refine (keeps_to_read_to_string inside).attempt.bind fun result _ => ?_
  cases result with
  | ok data => exact keeps_to_pure trivial
  | error error => exact keeps_to_pure trivial

theorem keeps_summaries
    (inside : Inside cwd store.templatesDir (join store.templatesDir imageType))
    (files : List (String × Bool)) (entries : ∀ entry ∈ files, EntryName entry.1) :
    KeepsInside store cwd (fun _ => True) (store.summariesProgram imageType files) := by
  induction files with
  | nil => exact keeps_to_pure trivial
  | cons entry files step =>
    obtain ⟨fname, kind⟩ := entry
    have rest := step fun other listed => entries other (List.mem_cons_of_mem _ listed)
    rw [TemplateStore.summariesProgram]
    split
    · exact rest
    · have metadata := inside_entry inside (meta_name_entry (entries _ List.mem_cons_self))
      exact (keeps_read_meta metadata).bind fun _ _ => rest.bind fun _ _ => keeps_to_pure trivial

theorem keeps_list_by_type
    (inside : Inside cwd store.templatesDir (join store.templatesDir imageType)) :
    KeepsInside store cwd (fun _ => True) (store.listByTypeProgram imageType) := by
  refine (keeps_to_file_exists inside).bind fun there _ => ?_
  cases there with
  | false => exact keeps_to_pure trivial
  | true =>
    exact (keeps_to_read_dir inside).bind fun files entries =>
      (keeps_summaries inside files entries).bind fun _ _ => keeps_to_pure trivial

omit [Deserialize TemplateMeta] in
theorem keeps_first_existing (names : List String)
    (inside : ∀ own ∈ names, Inside cwd store.templatesDir (store.templatePath imageType own)) :
    KeepsInside store cwd (fun found => ∀ own, found = some own → own ∈ names)
      (store.firstExistingProgram imageType names) := by
  induction names with
  | nil => exact keeps_to_pure nofun
  | cons candidate rest step =>
    have later := step fun own listed => inside own (List.mem_cons_of_mem _ listed)
    refine (keeps_to_file_exists (inside _ List.mem_cons_self)).bind fun there _ => ?_
    cases there with
    | true =>
      refine keeps_to_pure ?_
      rintro own ⟨⟩
      exact List.mem_cons_self
    | false => exact later.weaken fun found listed own same =>
        List.mem_cons_of_mem _ (listed own same)

omit [Deserialize TemplateMeta] in
/-- The candidates of a safe name are inside, and so is their metadata. -/
theorem candidates_inside (safe : SafeName store cwd imageType name) :
    ∀ own ∈ [name, name ++ ".ign.json", name ++ ".ks", name ++ ".yaml"],
      Inside cwd store.templatesDir (store.templatePath imageType own) ∧
        Inside cwd store.templatesDir (store.metaPath imageType own) := by
  have beside : ∀ suffix, FileSuffix suffix →
      Inside cwd store.templatesDir (store.templatePath imageType (name ++ suffix)) := by
    intro suffix shape
    have marked : FileSuffix ".meta.json" := by decide
    exact inside_suffix marked shape safe.metadata
  have both : ∀ suffix, FileSuffix suffix → FileSuffix (suffix ++ ".meta.json") →
      Inside cwd store.templatesDir (store.templatePath imageType (name ++ suffix)) ∧
        Inside cwd store.templatesDir (store.metaPath imageType (name ++ suffix)) := by
    intro suffix shape shape'
    refine ⟨beside suffix shape, ?_⟩
    have metadata := beside _ shape'
    rw [← String.append_assoc] at metadata
    exact metadata
  simp only [List.mem_cons, List.not_mem_nil, or_false]
  rintro own (rfl | rfl | rfl | rfl)
  · exact ⟨safe.template, safe.metadata⟩
  · exact both _ (by decide) (by decide)
  · exact both _ (by decide) (by decide)
  · exact both _ (by decide) (by decide)

theorem keeps_get (safe : SafeName store cwd imageType name) :
    KeepsInside store cwd (fun _ => True) (store.getProgram imageType name) := by
  have candidates := candidates_inside safe
  refine (keeps_first_existing _ fun own listed => (candidates own listed).1).bind
    fun found listed => ?_
  cases found with
  | none => exact keeps_to_pure trivial
  | some resolved =>
    obtain ⟨content, metadata⟩ := candidates resolved (listed resolved rfl)
    refine (keeps_to_read_to_string content).bind fun _ _ => ?_
    refine (keeps_read_meta metadata).bind fun found _ => ?_
    cases found with
    | some found => exact keeps_to_pure trivial
    | none =>
      exact keeps_now_utc.bind fun _ _ => keeps_now_utc.bind fun _ _ => keeps_to_pure trivial

theorem keeps_put [Serialize TemplateMeta] (safe : SafeName store cwd imageType name)
    (req : TemplateCreateRequest) :
    KeepsInside store cwd (fun _ => True) (store.putProgram imageType name req) := by
  have saved : ∀ createdAt, KeepsInside store cwd (fun _ => True)
      (store.saveProgram imageType name req createdAt) := by
    intro createdAt
    refine keeps_now_utc.bind fun _ _ => (keeps_to_write safe.template _).bind fun _ _ => ?_
    exact (keeps_to_write safe.metadata _).bind fun _ _ => keeps_to_pure trivial
  refine (keeps_to_create_dir_all safe.directory safe.made).bind fun _ _ => ?_
  refine (keeps_read_meta safe.metadata).bind fun existing _ => ?_
  cases existing with
  | some found =>
    have kept : KeepsInside store cwd (fun _ => True) (pure found.createdAt : Program String) :=
      keeps_to_pure trivial
    exact kept.bind fun createdAt _ => saved createdAt
  | none => exact keeps_now_utc.bind fun createdAt _ => saved createdAt

omit [Deserialize TemplateMeta] in
theorem keeps_delete (safe : SafeName store cwd imageType name) :
    KeepsInside store cwd (fun _ => True) (store.deleteProgram imageType name) := by
  refine (keeps_to_file_exists safe.template).bind fun there _ => ?_
  cases there with
  | false => exact keeps_to_pure trivial
  | true =>
    refine (keeps_to_remove_file safe.template).bind fun _ _ => ?_
    refine (keeps_to_file_exists safe.metadata).bind fun meta_there _ => ?_
    cases meta_there with
    | false => exact keeps_to_pure trivial
    | true => exact (keeps_to_remove_file safe.metadata).attempt.bind fun _ _ => keeps_to_pure trivial

theorem keeps_restore [Serialize TemplateMeta] (entries : List BundleEntry)
    (safe : ∀ entry ∈ entries, SafeName store cwd entry.imageType entry.name) :
    KeepsInside store cwd (fun _ => True) (store.importProgram entries) := by
  induction entries with
  | nil => exact keeps_to_pure trivial
  | cons entry rest step =>
    have later := step fun other listed => safe other (List.mem_cons_of_mem _ listed)
    exact (keeps_put (safe entry List.mem_cons_self) _).bind fun _ _ =>
      later.bind fun _ _ => keeps_to_pure trivial

end Meta

end Programs

/-! ## The exact condition -/

section Exact

variable [Serialize TemplateMeta] [Deserialize TemplateMeta]

/-- What the file commands of a request touch. -/
def NamedRequest.Touches (store : TemplateStore) (disk : Disk) (place : List String) :
    NamedRequest → Prop
  | get imageType name => (store.getProgram imageType name).Touches disk place
  | put imageType name req => (store.putProgram imageType name req).Touches disk place
  | delete imageType name => (store.deleteProgram imageType name).Touches disk place
  | listByType imageType => (store.listByTypeProgram imageType).Touches disk place
  | restore bundle => (store.restoreProgram bundle).Touches disk place

/-- Requests with these names touch nothing but what is below the template directory,
whatever the tree holds and whichever operations fail. -/
def Confined (store : TemplateStore) (cwd : List String) (keys : String → String → Prop) : Prop :=
  ∀ disk : Disk, disk.Serves cwd store.templatesDir → ∀ request : NamedRequest,
    request.Uses keys → ∀ place, request.Touches store disk place →
      spell cwd store.templatesDir <+: place

variable {store : TemplateStore} {cwd : List String} {imageType name : String}
  {keys : String → String → Prop}

theorem safe_confined (safe : ∀ imageType name, keys imageType name →
    SafeName store cwd imageType name) : Confined store cwd keys := by
  intro disk serves request uses place touches
  cases request with
  | get imageType name => exact (keeps_get (safe _ _ uses) disk serves).1 place touches
  | put imageType name req => exact (keeps_put (safe _ _ uses) req disk serves).1 place touches
  | delete imageType name => exact (keeps_delete (safe _ _ uses) disk serves).1 place touches
  | listByType imageType =>
    obtain ⟨name, listed⟩ := uses
    exact (keeps_list_by_type (safe _ _ listed).directory disk serves).1 place touches
  | restore bundle =>
    have kept := keeps_restore bundle.templates fun entry listed => safe _ _ (uses entry listed)
    exact (kept disk serves).1 place touches

omit [Serialize TemplateMeta] [Deserialize TemplateMeta] in
/-- The first command of a program is touched in any tree. -/
theorem inside_of_first {α : Type} {disk : Disk} (serves : disk.Serves cwd store.templatesDir)
    {command : Command} {rest : command.Reply → Program α} {path : String}
    (named : command.path? = some path)
    (kept : ∀ place, (Program.call command >>= rest).Touches disk place →
      spell cwd store.templatesDir <+: place) :
    Inside cwd store.templatesDir path := by
  by_cases nul : '\x00' ∈ path.toList
  · exact .inl nul
  · refine .inr (kept _ ?_)
    rw [Program.touches_bind, Program.touches_call]
    refine .inl (.inl ⟨path, named, nul, ?_⟩)
    rw [Disk.spelled, serves.at_cwd]

theorem confined_safe {disk : Disk} (serves : disk.Serves cwd store.templatesDir)
    (confined : Confined store cwd keys) (key : keys imageType name) :
    SafeName store cwd imageType name := by
  have bare := serves.skeleton fun _ => none
  -- under refusals no candidate of a `get` is found, so it asks for the next one
  have refused := serves.skeleton fun _ => some .refused
  have asked : ∀ {disk : Disk} {candidate : String} (others : List String),
      disk.Serves cwd store.templatesDir →
      (∀ place, (store.firstExistingProgram imageType (candidate :: others)).Touches disk place →
        spell cwd store.templatesDir <+: place) →
      Inside cwd store.templatesDir (store.templatePath imageType candidate) := by
    intro disk candidate others serves kept
    exact inside_of_first serves rfl kept
  refine ⟨?_, ?_, ?_, ?_⟩
  · exact inside_of_first bare rfl (confined _ bare (.listByType imageType) ⟨name, key⟩)
  · by_cases nul : '\x00' ∈ (join store.templatesDir imageType).toList
    · exact .inl nul
    · refine .inr fun place listed => ?_
      by_contra outside
      rw [not_or] at outside
      refine outside.1 (confined _ bare (.put imageType name { content := "" }) key place ?_)
      refine (Program.touches_bind _ _ _ _).mpr (.inl ((Program.touches_call _ _ _).mpr (.inr ?_)))
      have made := @create_dir_all_all { skeleton cwd store.templatesDir with
        fault := fun _ => none } (skeleton_no_file cwd store.templatesDir) rfl _ nul place listed
      have missing : (skeleton cwd store.templatesDir).node? place = none := by
        rw [node_skeleton, if_neg outside.2]
      intro same
      cases (made.symm.trans same.symm).trans missing
  · refine asked [name ++ ".ign.json", name ++ ".ks", name ++ ".yaml"] bare fun place touches =>
      confined _ bare (.get imageType name) key place ?_
    exact (Program.touches_bind _ _ _ _).mpr (.inl touches)
  · have shape : FileSuffix ".ign.json" := by decide
    have marked : FileSuffix ".meta.json" := by decide
    have next : Inside cwd store.templatesDir
        (store.templatePath imageType (name ++ ".ign.json")) := by
      have later := refused.of_within (.tick refused.sound fun _ => False)
      refine asked [name ++ ".ks", name ++ ".yaml"] later fun place touches =>
        confined _ refused (.get imageType name) key place ?_
      refine (Program.touches_bind _ _ _ _).mpr (.inl ?_)
      exact (Program.touches_bind _ _ _ _).mpr (.inr ⟨false, _, rfl, touches⟩)
    exact inside_suffix shape marked next

/-- **Requests keep to the template directory exactly when their names do.** -/
theorem confined_iff {disk : Disk} (serves : disk.Serves cwd store.templatesDir) :
    Confined store cwd keys ↔
      ∀ imageType name, keys imageType name → SafeName store cwd imageType name :=
  ⟨fun confined _ _ key => confined_safe serves confined key, safe_confined⟩

omit [Serialize TemplateMeta] [Deserialize TemplateMeta] in
/-- Names of one component are safe. -/
theorem entry_safe (type_entry : EntryName imageType) (entry : EntryName name) :
    SafeName store cwd imageType name := by
  have spelled : spell cwd (join store.templatesDir imageType) =
      spell cwd store.templatesDir ++ [imageType] :=
    @spelled_join_ordinary { cwd } store.templatesDir imageType type_entry.toOrdinary
  have directory : Inside cwd store.templatesDir (join store.templatesDir imageType) := by
    refine .inr ?_
    rw [spelled]
    exact List.prefix_append _ _
  refine ⟨directory, .inr fun place listed => ?_, inside_entry directory entry,
    inside_entry directory (meta_name_entry entry)⟩
  rw [is_absolute_join type_entry.relative, names_join type_entry.relative,
    type_entry.names_eq, passed_append, List.mem_append] at listed
  rcases listed with on_way | own
  · exact .inr ⟨place, List.mem_cons_of_mem _ on_way, List.prefix_refl place⟩
  · refine .inl ?_
    rw [passed, if_neg type_entry.not_dot, if_neg type_entry.not_dots, passed,
      List.mem_singleton] at own
    rw [own]
    exact List.prefix_append _ _

omit [Serialize TemplateMeta] [Deserialize TemplateMeta] in
/-- The files beside the template directory are not below it. -/
theorem neighbours_outside {file : String} (ordinary : Ordinary file) (other : file ≠ "templates") :
    ¬ spell cwd store.templatesDir <+: spell cwd (join store.dataDir file) := by
  have base : spell cwd store.templatesDir = spell cwd store.dataDir ++ ["templates"] :=
    @spelled_join_ordinary { cwd } store.dataDir "templates" (by decide)
  have own : spell cwd (join store.dataDir file) = spell cwd store.dataDir ++ [file] :=
    @spelled_join_ordinary { cwd } store.dataDir file ordinary
  rw [base, own, List.prefix_append_right_inj]
  intro below
  exact other (List.cons.inj (below.eq_of_length rfl)).1.symm

/-- Requests with safe names leave the assignments and the completions alone. -/
theorem safe_spares (safe : ∀ imageType name, keys imageType name →
    SafeName store cwd imageType name) {disk : Disk} (serves : disk.Serves cwd store.templatesDir)
    {request : NamedRequest} (uses : request.Uses keys) :
    ¬ request.Touches store disk (spell cwd store.assignmentsPath) ∧
      ¬ request.Touches store disk (spell cwd store.oneshotPath) := by
  have confined := safe_confined safe disk serves request uses
  constructor
  · exact fun touches => neighbours_outside (by decide) (by decide) (confined _ touches)
  · exact fun touches => neighbours_outside (by decide) (by decide) (confined _ touches)

end Exact

/-! ## Names that climb out -/

section Sample

attribute [local instance] templateMetaText templateMetaParser

theorem empty_volume_serves :
    emptyVolume.Serves [] (TemplateStore.templatesDir { dataDir := "/data" }) where
  sound := by
    refine ⟨root_dir emptyVolume, fun place name held => ?_⟩
    have keys : emptyVolume.nodes.keys = [["data", "templates"], ["data"]] := by decide
    have listed : place ++ [name] ∈ emptyVolume.nodes.keys := by
      rw [node?, if_neg (by simp)] at held
      exact AList.mem_keys.mp (AList.lookup_isSome.mp held)
    rw [keys, List.mem_cons, List.mem_singleton] at listed
    rcases listed with same | same
    · have same : place ++ [name] = ["data"] ++ ["templates"] := same
      obtain ⟨rfl, own⟩ := List.append_inj' same rfl
      obtain ⟨rfl, -⟩ := List.cons.inj own
      exact ⟨by rfl, by decide⟩
    · have same : place ++ [name] = [] ++ ["data"] := same
      obtain ⟨rfl, own⟩ := List.append_inj' same rfl
      obtain ⟨rfl, -⟩ := List.cons.inj own
      exact ⟨by rfl, by decide⟩
  opens := empty_volume_empty.opens
  at_cwd := rfl

theorem confined_iff_plain :
    Confined { dataDir := "/data" } [] (fun imageType name => imageType = "fcos" ∧ name = "base") ↔
      ∀ imageType name, imageType = "fcos" ∧ name = "base" →
        SafeName { dataDir := "/data" } [] imageType name :=
  confined_iff empty_volume_serves

/-- The volume with the assignments of one host. -/
def assignedVolume : Disk :=
  emptyVolume.store ["data", "assignments.json"] "web1".toUTF8

/-- A bundle with one entry, whose image type climbs out. -/
def climbingBundle : TemplateBundle where
  version := 1
  exportedAt := ""
  templates := [{ imageType := "..", name := "assignments.json", format := .cloudConfig
                  mode := .forever, content := "{}" }]

/-- Its restore succeeds and overwrites the assignments. -/
theorem restore_overwrites_assignments :
    (TemplateStore.restore { dataDir := "/data" } climbingBundle assignedVolume
        matches .ok 1 _) = true ∧
      assignedVolume.readText "/data/assignments.json" = some "web1" ∧
      (finalState (TemplateStore.restore { dataDir := "/data" } climbingBundle
        assignedVolume)).readText "/data/assignments.json" = some "{}" ∧
      ¬ Confined { dataDir := "/data" } [] fun _ _ => True := by
  refine ⟨by decide +kernel, by decide +kernel, by decide +kernel, fun confined => ?_⟩
  have climbed : SafeName { dataDir := "/data" } [] ".." "assignments.json" :=
    confined_safe empty_volume_serves confined trivial
  exact absurd climbed (by decide)

end Sample

end CloudId
