import CloudId.IgnitionResult
import CloudId.Library.PercentEncoding

/-! The data URIs that carry the files of an Ignition config. The encoder escapes the percent
sign, so every text comes out of its URI again; but it keeps most of the characters that a URI
may not contain. -/
namespace CloudId
open Json PercentEncoding

/-! ## The encoder -/

theorem url_encode_encoder : Encoder urlEncodeChar := by
  intro c
  rw [urlEncodeChar]
  split
  · subst_vars
    exact .escaped (by decide) (by decide) (by decide) (by decide)
  split
  · subst_vars
    exact .escaped (by decide) (by decide) (by decide) (by decide)
  split
  · subst_vars
    exact .escaped (by decide) (by decide) (by decide) (by decide)
  split
  · subst_vars
    exact .escaped (by decide) (by decide) (by decide) (by decide)
  split
  · subst_vars
    exact .escaped (by decide) (by decide) (by decide) (by decide)
  · exact .kept ‹_›

/-- The source is a data URI that stands for the text. -/
def Carries (source text : String) : Prop :=
  ∃ encoded, source = "data:," ++ encoded ∧ decodeText encoded = Utf8.encode text.toList

theorem decode_url_encode (text : String) : decodeText (urlEncode text) = Utf8.encode text.toList := by
  rw [decodeText, urlEncode, String.toList_ofList, decode_encoded url_encode_encoder]

theorem data_uri_carries (text : String) : Carries (dataUri text) text :=
  ⟨urlEncode text, rfl, decode_url_encode text⟩

/-! ## The files of a config -/

/-- The file entries of a config. -/
def filesIn (config : Json) : List Json :=
  match (config.get? "storage").bind (get? · "files") with
  | some (.array files) => files
  | _ => []

/-- The source of a file's contents. -/
def sourceOf (file : Json) : Option Json := (file.get? "contents").bind (get? · "source")

/-- The entry of a file in its form. -/
def normalFile (file : Json) : Json := mapMember "contents" normalizeContents file

theorem files_in_normalized (config : Json) :
    filesIn (normalizeFileContents config) = (filesIn config).map normalFile := by
  rw [filesIn, filesIn, normalize_file_contents_eq, get_map_member, if_pos rfl]
  cases config.get? "storage" with
  | none => rfl
  | some storage =>
    rw [Option.map_some, Option.bind_some, Option.bind_some, get_map_member, if_pos rfl]
    cases storage.get? "files" with
    | none => rfl
    | some files => cases files <;> rfl

/-- What the entry for the hostname holds. -/
theorem hostname_file_source (fqdn : String) :
    sourceOf (hostnameFile fqdn) = some (.string (dataUri fqdn)) := by
  have contents : (hostnameFile fqdn).get? "contents" =
      some (ofEntries [("source", .string (dataUri fqdn))]) :=
    @lookup_of_entries "contents" _ [("path", .string "/etc/hostname"), ("mode", unsigned 420),
      ("overwrite", .bool true)] [] nofun
  rw [sourceOf, contents, Option.bind_some]
  exact lookup_insert_member "source" "source" _ []

/-- The elements of an array. -/
def elementsOf : Json → List Json
  | .array elements => elements
  | _ => []

theorem files_in_eq (config : Json) :
    filesIn config = ((config.get? "storage").bind (get? · "files")).elim [] elementsOf := by
  rw [filesIn]
  cases (config.get? "storage").bind (get? · "files") with
  | none => rfl
  | some files => cases files <;> rfl

theorem get_object (members : List (String × Json)) (key : String) :
    (Json.object members).get? key = members.lookup key := rfl

/-- The only entry that `ensure_hostname_file` may add is the one for the hostname. -/
theorem files_in_ensured {config result : Json} {fqdn : String}
    (ensured : ensureHostnameFile config fqdn = .ok result) :
    filesIn result = filesIn config ∨ filesIn result = filesIn config ++ [hostnameFile fqdn] := by
  rw [ensure_hostname_file_eq] at ensured
  obtain ⟨members, storage, rfl, changed, rfl⟩ := change_entry_eq_ok ensured
  obtain ⟨inner, files, held, added, rfl⟩ := change_entry_eq_ok changed
  cases added
  have now : filesIn (.object (insertMember "storage" (.object (insertMember "files"
      (addHostname fqdn ((inner.lookup "files").getD (.array []))) inner)) members)) =
      elementsOf (addHostname fqdn ((inner.lookup "files").getD (.array []))) := by
    rw [files_in_eq, get_object, lookup_insert_member, if_pos rfl, Option.bind_some, get_object,
      lookup_insert_member, if_pos rfl]
    rfl
  have before : filesIn (.object members) =
      elementsOf ((inner.lookup "files").getD (.array [])) := by
    rw [files_in_eq, get_object]
    cases there : members.lookup "storage" with
    | none =>
      rw [there] at held
      cases held
      rfl
    | some own =>
      rw [there, Option.getD_some] at held
      subst held
      rw [Option.bind_some, get_object]
      cases inner.lookup "files" <;> rfl
  rw [now, before]
  cases (inner.lookup "files").getD (.array []) with
  | array files =>
    rw [addHostname]
    split
    · exact .inl rfl
    · exact .inr rfl
  | _ => exact .inl rfl

/-! ## What is kept -/

/-- A file entry in its form: without inline contents it is the same; an inline text is
carried by the source, and nothing else is changed. -/
structure CarriesOver (old new : Json) : Prop where
  plain : inlineOf old = none → new = old
  inline : ∀ contents text, old.get? "contents" = some contents →
    contents.get? "inline" = some (.string text) → ∃ changed source,
      new.get? "contents" = some changed ∧ changed.get? "inline" = none ∧
      changed.get? "source" = some (.string source) ∧ Carries source text ∧
      ∀ key, key ≠ "inline" → key ≠ "source" → changed.get? key = contents.get? key
  members : ∀ key, key ≠ "contents" → new.get? key = old.get? key

/-- Only the entries of the files are changed, and they carry the texts that were inline. -/
structure PreservesFiles (config result : Json) : Prop where
  files : List.Forall₂ CarriesOver (filesIn config) (filesIn result)
  untouched : filesIn config = [] → result = config
  elsewhere : ∀ key, key ≠ "storage" → result.get? key = config.get? key
  storage : ∀ key, key ≠ "files" →
    (result.get? "storage").bind (get? · key) = (config.get? "storage").bind (get? · key)

/-- The storage of a generated config holds the hostname alone. -/
theorem generated_storage (metadata : HostMetadata) : (generatedConfig metadata).storage =
    some { files := [⟨"/etc/hostname", some 420, some true, ⟨dataUri metadata.hostname⟩⟩] } := rfl

/-- An entry for the hostname, with a source that carries it. -/
def WritesHostname (fqdn : String) (file : Json) : Prop :=
  textMember file "path" = some "/etc/hostname" ∧
    ∃ source, sourceOf file = some (.string source) ∧ Carries source fqdn

theorem carries_over {old : Json} (ordered : old.Ordered) : CarriesOver old (normalFile old) := by
  have kept := kept_file ordered
  refine ⟨kept.stays, fun contents text held inline => ?_, kept.members⟩
  obtain ⟨changed, now, gone, source, others⟩ := kept.contents contents _ held inline
  exact ⟨changed, dataUri text, now, gone, source, data_uri_carries text, others⟩

theorem files_in_ordered {config : Json} (ordered : config.Ordered) :
    ∀ file ∈ filesIn config, file.Ordered := by
  rw [filesIn]
  split
  · rename_i files held
    obtain ⟨storage, stored, listed⟩ := Option.bind_eq_some_iff.mp held
    exact ((ordered.get stored).get listed).items
  · exact fun _ => nofun

theorem preserves_files {config : Json} (ordered : config.Ordered) :
    PreservesFiles config (normalizeFileContents config) where
  files := by
    rw [files_in_normalized, List.forall₂_map_right_iff, List.forall₂_same]
    exact fun file listed => carries_over (files_in_ordered ordered file listed)
  untouched := by
    intro none_there
    rw [normalize_file_contents_eq]
    refine map_member_same ordered fun storage stored => ?_
    refine map_member_same (ordered.get stored) fun files listed => ?_
    rw [filesIn, stored, Option.bind_some, listed] at none_there
    cases files with
    | array files =>
      cases none_there
      rfl
    | _ => rfl
  elsewhere := by
    intro key other
    rw [normalize_file_contents_eq, get_map_member, if_neg other]
  storage := by
    intro key other
    rw [normalize_file_contents_eq, get_map_member, if_pos rfl]
    cases config.get? "storage" with
    | none => rfl
    | some storage =>
      rw [Option.map_some, Option.bind_some, Option.bind_some, get_map_member, if_neg other]

/-- **The text of a file is what its data URI stands for.**  For every config, bringing the
files into their form replaces inline texts by URIs that decode to them and changes nothing
else; the entry that is added for the hostname, the one of the generated config and the
encoded hostname of a template decode to the name. -/
theorem data_uris_carry_texts {config : Json} (ordered : config.Ordered) :
    PreservesFiles config (normalizeFileContents config) ∧
    (∀ fqdn result, ensureHostnameFile config fqdn = .ok result →
      ∀ file ∈ filesIn result, file ∈ filesIn config ∨ WritesHostname fqdn file) ∧
    (∀ metadata, ∃ file, (generatedConfig metadata).storage = some { files := [file] } ∧
      file.path = "/etc/hostname" ∧ Carries file.contents.source metadata.hostname) ∧
    ∀ fqdn, decodeText (urlEncodeSimple fqdn) = Utf8.encode fqdn.toList := by
  refine ⟨preserves_files ordered, fun fqdn result ensured file listed => ?_,
    fun metadata => ⟨_, generated_storage metadata, rfl, data_uri_carries metadata.hostname⟩,
    fun fqdn => ?_⟩
  · rcases files_in_ensured ensured with same | added
    · rw [same] at listed
      exact .inl listed
    · rw [added] at listed
      rcases List.mem_append.mp listed with listed | new
      · exact .inl listed
      · rw [List.mem_singleton.mp new]
        exact .inr ⟨hostname_file_path fqdn, dataUri fqdn, hostname_file_source fqdn,
          data_uri_carries fqdn⟩
  · rw [decodeText, urlEncodeSimple, String.toList_ofList, decode_encoded url_encode_encoder]

/-- A config with one file, whose text is inline. -/
def inlineConfig (text : String) : Json :=
  .object [("storage", .object [("files", .array [.object [
    ("contents", .object [("inline", .string text)]), ("path", .string "/etc/motd")]])])]

theorem inline_config_ordered (text : String) : (inlineConfig text).Ordered := by
  have pair : ∀ {first second : String} {value value' : Json}, first < second → value.Ordered →
      value'.Ordered → (Json.object [(first, value), (second, value')]).Ordered := by
    intro first second value value' before ordered ordered'
    refine .object (sorted_cons.mpr ⟨?_, sorted_cons.mpr ⟨nofun, List.Pairwise.nil⟩⟩) ?_
    · intro member listed
      rw [List.mem_singleton.mp listed]
      exact before
    · intro member listed
      rcases List.mem_cons.mp listed with rfl | listed
      · exact ordered
      · rw [List.mem_singleton.mp listed]
        exact ordered'
  have single : ∀ {key : String} {value : Json}, value.Ordered →
      (Json.object [(key, value)]).Ordered := by
    intro key value ordered
    refine .object (sorted_cons.mpr ⟨nofun, List.Pairwise.nil⟩) fun member listed => ?_
    rw [List.mem_singleton.mp listed]
    exact ordered
  refine single (single (.array fun file listed => ?_))
  rw [List.mem_singleton.mp listed]
  exact pair (by decide) (single (.string text)) (.string _)

/-- A file that already looks encoded. -/
theorem data_uris_carry_texts_encoded :
    PreservesFiles (inlineConfig "100%20") (normalizeFileContents (inlineConfig "100%20")) :=
  (data_uris_carry_texts (inline_config_ordered "100%20")).1

/-! ## Which URIs are legal -/

/-- A text whose characters are legal in a URI, or escaped. -/
def LegalText (text : String) : Prop :=
  ∀ c ∈ text.toList, c ∈ [' ', '%', '\n', '\r', '#'] ∨ UriChar c

instance (text : String) : Decidable (LegalText text) :=
  List.decidableBAll _ text.toList

/-- Every source that is written for the config or the host is a legal URI. -/
structure WritesLegalUris (config : Json) (metadata : HostMetadata) : Prop where
  inline : ∀ (index : Nat) old text, (filesIn config)[index]? = some old →
    inlineOf old = some (.string text) → ∃ new source,
      (filesIn (normalizeFileContents config))[index]? = some new ∧
      sourceOf new = some (.string source) ∧ LegalUri source.toList
  hostname : ∀ result, ensureHostnameFile config metadata.hostname = .ok result →
    ∀ file ∈ filesIn result, file ∉ filesIn config → ∃ source,
      sourceOf file = some (.string source) ∧ LegalUri source.toList
  generated : ∀ storage, (generatedConfig metadata).storage = some storage →
    ∀ file ∈ storage.files, LegalUri file.contents.source.toList

theorem kept_iff (c : Char) : urlEncodeChar c = [c] ↔ c ∉ [' ', '%', '\n', '\r', '#'] := by
  rw [urlEncodeChar]
  constructor
  · rintro same listed
    simp only [List.mem_cons, List.not_mem_nil, or_false] at listed
    rcases listed with rfl | rfl | rfl | rfl | rfl <;> simp at same
  · intro other
    simp only [List.mem_cons, List.not_mem_nil, or_false, not_or] at other
    rw [if_neg other.1, if_neg other.2.1, if_neg other.2.2.1, if_neg other.2.2.2.1,
      if_neg other.2.2.2.2]

theorem legal_data_uri_iff (text : String) : LegalUri (dataUri text).toList ↔ LegalText text := by
  rw [dataUri, urlEncode, String.toList_append, legal_append_iff (by decide) (by decide),
    String.toList_ofList, legal_encoded_iff url_encode_encoder, LegalText]
  refine forall₂_congr fun c _ => ?_
  rw [kept_iff, or_iff_not_imp_left]

section Legal

-- comparing sources must not run the encoder
attribute [local irreducible] dataUri

/-- The source of an entry in its form whose text was inline. -/
theorem normal_file_source {old : Json} {text : String}
    (inline : inlineOf old = some (.string text)) :
    sourceOf (normalFile old) = some (.string (dataUri text)) := by
  obtain ⟨contents, held, there⟩ := Option.bind_eq_some_iff.mp inline
  rw [sourceOf, normalFile, get_map_member, if_pos rfl, held, Option.map_some, Option.bind_some]
  cases contents with
  | object members =>
    have member : members.lookup "inline" = some (.string text) := there
    rw [normalizeContents, member]
    exact (lookup_insert_member "source" "source" _ _).trans (if_pos rfl)
  | _ => cases there

/-- **The URIs are legal exactly when the texts have only legal or escaped characters.**  For
every config and every host: every source that is written is a legal URI, if and only if every
inline text and the hostname consist of characters that a URI may contain and of the five
that the encoder escapes. -/
theorem writes_legal_uris_iff (config : Json) (metadata : HostMetadata) :
    WritesLegalUris config metadata ↔
      (∀ file ∈ filesIn config, ∀ text, inlineOf file = some (.string text) → LegalText text) ∧
        LegalText metadata.hostname := by
  constructor
  · intro legal
    constructor
    · intro file listed text inline
      obtain ⟨index, there⟩ := List.getElem?_of_mem listed
      obtain ⟨new, source, now, written, legal⟩ := legal.inline index file text there inline
      rw [files_in_normalized, List.getElem?_map, there, Option.map_some] at now
      obtain rfl := Option.some.inj now
      rw [normal_file_source inline] at written
      obtain rfl := Json.string.inj (Option.some.inj written)
      exact (legal_data_uri_iff text).mp legal
    · have generated := legal.generated _ (generated_storage metadata)
      rw [List.forall_mem_singleton] at generated
      exact (legal_data_uri_iff metadata.hostname).mp generated
  · rintro ⟨texts, name⟩
    have name_legal := (legal_data_uri_iff metadata.hostname).mpr name
    constructor
    · intro index old text there inline
      refine ⟨normalFile old, dataUri text, ?_, normal_file_source inline, ?_⟩
      · rw [files_in_normalized, List.getElem?_map, there, Option.map_some]
      · exact (legal_data_uri_iff text).mpr (texts old (List.mem_of_getElem? there) text inline)
    · intro result ensured file listed new
      rcases files_in_ensured ensured with same | added
      · rw [same] at listed
        exact absurd listed new
      · rw [added] at listed
        obtain rfl := List.mem_singleton.mp ((List.mem_append.mp listed).resolve_left new)
        exact ⟨_, hostname_file_source metadata.hostname, name_legal⟩
    · intro storage there file listed
      obtain rfl := Option.some.inj ((generated_storage metadata).symm.trans there)
      obtain rfl := List.mem_singleton.mp listed
      exact name_legal

end Legal

/-- A quoted word in a file. -/
theorem quoted_text_makes_illegal_uri :
    ¬ ∀ config metadata, WritesLegalUris config metadata := by
  intro always
  obtain ⟨new, source, now, written, legal⟩ :=
    (always (inlineConfig "say \"hi\"") (podMetadata [])).inline 0 _ _ rfl rfl
  rw [files_in_normalized] at now
  obtain rfl := Option.some.inj now
  rw [normal_file_source rfl] at written
  obtain rfl := Json.string.inj (Option.some.inj written)
  exact absurd ((legal_data_uri_iff _).mp legal) (by decide)

end CloudId
