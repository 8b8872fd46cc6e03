import CloudId.Library.Json
import Mathlib.Data.List.Forall2
import Mathlib.Order.Defs.LinearOrder

/-! Objects as maps. The members of an object stand in ascending key order, so a list of
members is determined by what it holds under each key, and an entry that is written back
unchanged leaves the object as it was. -/
namespace Json

/-- Members in ascending key order. -/
def Sorted (members : List (String × Json)) : Prop := (members.map Prod.fst).Pairwise (· < ·)

/-- A value whose objects keep the key order, at every depth. -/
inductive Ordered : Json → Prop where
  | null : Ordered null
  | bool (value : Bool) : Ordered (bool value)
  | number (value : JsonNumber) : Ordered (number value)
  | string (text : String) : Ordered (string text)
  | array {items : List Json} (each : ∀ item ∈ items, Ordered item) : Ordered (array items)
  | object {members : List (String × Json)} (sorted : Sorted members)
      (each : ∀ member ∈ members, Ordered member.2) : Ordered (object members)

theorem mem_of_lookup {members : List (String × Json)} {key : String} {value : Json}
    (held : members.lookup key = some value) : (key, value) ∈ members := by
  obtain ⟨before, after, rfl, -⟩ := List.lookup_eq_some_iff.mp held
  exact List.mem_append_right _ List.mem_cons_self

theorem Ordered.items {items : List Json} (ordered : (Json.array items).Ordered) :
    ∀ item ∈ items, item.Ordered := by
  cases ordered with
  | array each => exact each

theorem Ordered.sorted {members : List (String × Json)} (ordered : (Json.object members).Ordered) :
    Sorted members := by
  cases ordered with
  | object sorted each => exact sorted

theorem Ordered.member {members : List (String × Json)} (ordered : (Json.object members).Ordered)
    {key : String} {value : Json} (held : members.lookup key = some value) : value.Ordered := by
  cases ordered with
  | object sorted each => exact each (key, value) (mem_of_lookup held)

theorem Ordered.get {value held : Json} (ordered : value.Ordered) {key : String}
    (there : value.get? key = some held) : held.Ordered := by
  cases value with
  | object members => exact ordered.member there
  | _ => cases there

theorem ordered_no_items : (array []).Ordered := .array nofun

theorem ordered_no_members : (object []).Ordered := .object List.Pairwise.nil nofun

/-! ## Sorted members -/

theorem sorted_cons {key : String} {value : Json} {members : List (String × Json)} :
    Sorted ((key, value) :: members) ↔ (∀ member ∈ members, key < member.1) ∧ Sorted members := by
  rw [Sorted, List.map_cons, List.pairwise_cons, Sorted]
  simp

theorem mem_insert_member {key : String} {value : Json} {members : List (String × Json)}
    {member : String × Json} (listed : member ∈ insertMember key value members) :
    member = (key, value) ∨ member ∈ members := by
  induction members with
  | nil => exact .inl (List.mem_singleton.mp listed)
  | cons first rest step =>
    obtain ⟨own, held⟩ := first
    rw [insertMember] at listed
    split at listed
    · exact List.mem_cons.mp listed
    · split at listed
      · rcases List.mem_cons.mp listed with same | listed
        · exact .inl same
        · exact .inr (List.mem_cons_of_mem _ listed)
      · rcases List.mem_cons.mp listed with rfl | listed
        · exact .inr List.mem_cons_self
        · exact (step listed).imp_right (List.mem_cons_of_mem _)

theorem sorted_insert_member {members : List (String × Json)} (sorted : Sorted members)
    (key : String) (value : Json) : Sorted (insertMember key value members) := by
  induction members with
  | nil => exact sorted_cons.mpr ⟨nofun, List.Pairwise.nil⟩
  | cons first rest step =>
    obtain ⟨own, held⟩ := first
    obtain ⟨before, sorted_rest⟩ := sorted_cons.mp sorted
    rw [insertMember]
    split
    · rename_i lower
      refine sorted_cons.mpr ⟨?_, sorted⟩
      intro member listed
      rcases List.mem_cons.mp listed with rfl | listed
      · exact lower
      · exact lower.trans (before member listed)
    · rename_i not_lower
      split
      · rename_i same
        rw [same]
        exact sorted_cons.mpr ⟨before, sorted_rest⟩
      · rename_i differs
        refine sorted_cons.mpr ⟨?_, step sorted_rest⟩
        intro member listed
        rcases mem_insert_member listed with rfl | listed
        · exact lt_of_le_of_ne (not_lt.mp not_lower) (Ne.symm differs)
        · exact before member listed

theorem lookup_none_of_lt {key : String} {members : List (String × Json)}
    (later : ∀ member ∈ members, key < member.1) : members.lookup key = none := by
  rw [List.lookup_eq_none_iff]
  intro member listed
  exact bne_iff_ne.mpr (later member listed).ne

/-- Sorted members are determined by what they hold under each key. -/
theorem sorted_ext {members others : List (String × Json)} (sorted : Sorted members)
    (sorted' : Sorted others) (same : ∀ key, members.lookup key = others.lookup key) :
    members = others := by
  induction members generalizing others with
  | nil =>
    cases others with
    | nil => rfl
    | cons first rest =>
      have held := same first.1
      rw [List.lookup_nil, List.lookup_cons_self] at held
      cases held
  | cons first rest step =>
    obtain ⟨key, value⟩ := first
    obtain ⟨before, sorted_rest⟩ := sorted_cons.mp sorted
    cases others with
    | nil =>
      have held := same key
      rw [List.lookup_nil, List.lookup_cons_self] at held
      cases held
    | cons first' rest' =>
      obtain ⟨key', value'⟩ := first'
      obtain ⟨before', sorted_rest'⟩ := sorted_cons.mp sorted'
      -- the least key of each side is held by the other
      have same_key : key = key' := by
        have not_below : ∀ {low high : String} {held : Json} {more : List (String × Json)},
            (∀ member ∈ more, high < member.1) → low < high →
            ((high, held) :: more).lookup low = none := by
          intro low high held more later lower
          rw [List.lookup_cons, beq_false_of_ne lower.ne]
          exact lookup_none_of_lt fun member listed => lower.trans (later member listed)
        rcases lt_trichotomy key key' with lower | equal | lower
        · have held := same key
          rw [List.lookup_cons_self, not_below before' lower] at held
          cases held
        · exact equal
        · have held := same key'
          rw [List.lookup_cons_self, not_below before lower] at held
          cases held
      subst same_key
      have same_value := same key
      rw [List.lookup_cons_self, List.lookup_cons_self] at same_value
      cases same_value
      congr 1
      refine step sorted_rest sorted_rest' fun probe => ?_
      by_cases own : probe = key
      · rw [own, lookup_none_of_lt before, lookup_none_of_lt before']
      · have held := same probe
        rwa [List.lookup_cons, List.lookup_cons, beq_false_of_ne own] at held

/-- An entry that is written back leaves the object as it was. -/
theorem insert_member_same {members : List (String × Json)} (sorted : Sorted members)
    {key : String} {value : Json} (held : members.lookup key = some value) :
    insertMember key value members = members := by
  refine sorted_ext (sorted_insert_member sorted key value) sorted fun probe => ?_
  rw [lookup_insert_member]
  split
  · rename_i same
    rw [same, held]
  · rfl

/-- A change that keeps its entry keeps the object. -/
theorem change_entry_same {members : List (String × Json)} (sorted : Sorted members)
    {key : String} {value default : Json} {change : Json → Except Panic Json}
    (held : members.lookup key = some value) (kept : change value = .ok value) :
    changeEntry key default change (object members) = .ok (object members) := by
  rw [changeEntry, held, Option.getD_some, kept]
  exact congrArg (Except.ok ∘ object) (insert_member_same sorted held)

/-! ## Ordered values -/

theorem Ordered.insert {members : List (String × Json)} (ordered : (Json.object members).Ordered)
    {key : String} {value : Json} (ordered' : value.Ordered) :
    (Json.object (insertMember key value members)).Ordered := by
  cases ordered with
  | object sorted each =>
    refine .object (sorted_insert_member sorted key value) fun member listed => ?_
    rcases mem_insert_member listed with rfl | listed
    · exact ordered'
    · exact each member listed

theorem Ordered.remove {members : List (String × Json)} (ordered : (Json.object members).Ordered)
    (key : String) : (Json.object (removeMember key members)).Ordered := by
  cases ordered with
  | object sorted each =>
    refine .object ?_ fun member listed => each member (List.mem_of_mem_filter listed)
    exact sorted.sublist (List.Sublist.map Prod.fst (List.filter_sublist))

theorem Ordered.entry_or {members : List (String × Json)} (ordered : (Json.object members).Ordered)
    (key : String) {default : Json} (ordered' : default.Ordered) :
    ((members.lookup key).getD default).Ordered := by
  cases held : members.lookup key with
  | none => exact ordered'
  | some value => exact ordered.member held

theorem Ordered.change_entry {key : String} {default value result : Json}
    {change : Json → Except Panic Json} (ordered : value.Ordered) (ordered' : default.Ordered)
    (keeps : ∀ {own changed : Json}, own.Ordered → change own = .ok changed → changed.Ordered)
    (changed : changeEntry key default change value = .ok result) : result.Ordered := by
  obtain ⟨members, entry, rfl, made, rfl⟩ := change_entry_eq_ok changed
  exact ordered.insert (keeps (ordered.entry_or key ordered') made)

theorem Ordered.map_member {key : String} {change : Json → Json} {value : Json}
    (ordered : value.Ordered) (keeps : ∀ {own : Json}, own.Ordered → (change own).Ordered) :
    (mapMember key change value).Ordered := by
  cases ordered with
  | object sorted each =>
    have same_keys : ∀ members : List (String × Json), (members.map fun member =>
        if member.1 = key then (key, change member.2) else member).map Prod.fst =
          members.map Prod.fst := by
      intro members
      rw [List.map_map]
      refine List.map_congr_left fun member _ => ?_
      rw [Function.comp]
      split
      · rename_i same
        exact same.symm
      · rfl
    refine .object ?_ fun member listed => ?_
    · rw [Sorted, same_keys]
      exact sorted
    · obtain ⟨own, held, rfl⟩ := List.mem_map.mp listed
      split
      · exact keeps (each own held)
      · exact each own held
  | null => exact .null
  | bool value => exact .bool value
  | number value => exact .number value
  | string text => exact .string text
  | array each => exact .array each

theorem ordered_of_entries {entries : List (String × Json)} (each : ∀ entry ∈ entries, entry.2.Ordered) :
    (ofEntries entries).Ordered := by
  have inserted : ∀ members, (Json.object members).Ordered → (Json.object (entries.foldl
      (fun members entry => insertMember entry.1 entry.2 members) members)).Ordered := by
    induction entries with
    | nil => exact fun members ordered => ordered
    | cons entry rest step =>
      intro members ordered
      exact step (fun own listed => each own (List.mem_cons_of_mem _ listed)) _
        (ordered.insert (each entry List.mem_cons_self))
  exact inserted [] ordered_no_members

theorem ordered_strings (items : List String) : (strings items).Ordered := by
  refine .array fun item listed => ?_
  obtain ⟨text, -, rfl⟩ := List.mem_map.mp listed
  exact .string text

/-! ## What an object holds -/

theorem lookup_of_entries {key : String} {value : Json} {before after : List (String × Json)}
    (last : ∀ entry ∈ after, entry.1 ≠ key) :
    (ofEntries (before ++ (key, value) :: after)).get? key = some value := by
  have kept : ∀ members : List (String × Json), members.lookup key = some value →
      (after.foldl (fun members entry => insertMember entry.1 entry.2 members) members).lookup key =
        some value := by
    induction after with
    | nil => exact fun members held => held
    | cons entry rest step =>
      intro members held
      refine step (fun own listed => last own (List.mem_cons_of_mem _ listed)) _ ?_
      rw [lookup_insert_member, if_neg (Ne.symm (last entry List.mem_cons_self)), held]
  rw [get?, ofEntries, asObject, Option.bind_some, List.foldl_append, List.foldl_cons]
  refine kept _ ?_
  rw [lookup_insert_member, if_pos rfl]

theorem lookup_remove_member (key probe : String) (members : List (String × Json)) :
    (removeMember key members).lookup probe = if probe = key then none else members.lookup probe := by
  induction members with
  | nil => simp [removeMember]
  | cons member rest step =>
    obtain ⟨own, held⟩ := member
    rw [removeMember] at step
    rw [removeMember, List.filter_cons]
    by_cases here : own = key
    · rw [if_neg (by simpa using here), step, List.lookup_cons]
      split
      · rfl
      · rename_i other
        rw [here, beq_false_of_ne other]
    · rw [if_pos (by simpa using here), List.lookup_cons, List.lookup_cons, step]
      by_cases same : probe = own
      · simp [same, here]
      · rw [beq_false_of_ne same]

theorem get_map_member (key probe : String) (change : Json → Json) (value : Json) :
    (mapMember key change value).get? probe =
      if probe = key then (value.get? key).map change else value.get? probe := by
  cases value with
  | object members =>
    change (members.map fun member => if member.1 = key then (key, change member.2)
      else member).lookup probe = if probe = key then (members.lookup key).map change
        else members.lookup probe
    induction members with
    | nil => simp
    | cons member rest step =>
      obtain ⟨own, held⟩ := member
      rw [List.map_cons]
      by_cases here : own = key
      · subst here
        rw [if_pos rfl, List.lookup_cons, List.lookup_cons, List.lookup_cons]
        by_cases same : probe = own
        · subst same
          simp
        · simp only [beq_false_of_ne same, if_neg same] at step ⊢
          exact step
      · rw [if_neg here, List.lookup_cons, List.lookup_cons, List.lookup_cons, step,
          beq_false_of_ne (Ne.symm here)]
        by_cases same : probe = own
        · subst same
          simp [here]
        · simp only [beq_false_of_ne same]
  | _ => simp [mapMember, get?, asObject]

theorem map_member_idem {change : Json → Json} (idem : ∀ value, change (change value) = change value)
    (key : String) (value : Json) :
    mapMember key change (mapMember key change value) = mapMember key change value := by
  cases value with
  | object members =>
    rw [mapMember, mapMember, List.map_map]
    congr 1
    refine List.map_congr_left fun member _ => ?_
    rw [Function.comp]
    by_cases same : member.1 = key
    · rw [if_pos same, if_pos rfl, idem]
    · rw [if_neg same, if_neg same]
  | _ => rfl

/-- A change that keeps the value it finds keeps the object. -/
theorem map_member_same {key : String} {change : Json → Json} {value : Json} (ordered : value.Ordered)
    (kept : ∀ held, value.get? key = some held → change held = held) :
    mapMember key change value = value := by
  cases ordered with
  | @object members sorted each =>
    rw [mapMember]
    congr 1
    refine (List.map_congr_left fun member listed => ?_).trans (List.map_id _)
    split
    · rename_i same
      have held : members.lookup key = some member.2 := by
        obtain ⟨before, after, split⟩ := List.append_of_mem listed
        refine List.lookup_eq_some_iff.mpr ⟨before, after, ?_, fun own there => ?_⟩
        · rw [split, ← same]
        · rw [split, Sorted, List.map_append, List.map_cons, List.pairwise_append] at sorted
          have lower := sorted.2.2 own.1 (List.mem_map.mpr ⟨own, there, rfl⟩) member.1
            List.mem_cons_self
          rw [same] at lower
          exact bne_iff_ne.mpr lower.ne'
      rw [kept member.2 held, ← same]
      rfl
    · rfl
  | _ => rfl

/-- The members of an object under a key, or none. -/
def objectAt (members : List (String × Json)) (key : String) : List (String × Json) :=
  match members.lookup key with
  | some (.object own) => own
  | _ => []

/-- The items of an array under a key, or none. -/
def arrayAt (members : List (String × Json)) (key : String) : List Json :=
  match members.lookup key with
  | some (.array items) => items
  | _ => []

def IsArray (value : Json) : Prop := ∃ items, value = array items

theorem object_at_eq {members : List (String × Json)} {key : String}
    (object_there : ∀ value, members.lookup key = some value → value.IsObject) :
    (members.lookup key).getD (object []) = object (objectAt members key) := by
  rw [objectAt]
  cases held : members.lookup key with
  | none => rfl
  | some value =>
    obtain ⟨own, rfl⟩ := object_there value held
    rfl

theorem array_at_eq {members : List (String × Json)} {key : String}
    (array_there : ∀ value, members.lookup key = some value → value.IsArray) :
    (members.lookup key).getD (array []) = array (arrayAt members key) := by
  rw [arrayAt]
  cases held : members.lookup key with
  | none => rfl
  | some value =>
    obtain ⟨items, rfl⟩ := array_there value held
    rfl

theorem Ordered.object_at {members : List (String × Json)} (ordered : (Json.object members).Ordered)
    (key : String) : (Json.object (objectAt members key)).Ordered := by
  rw [objectAt]
  split
  · rename_i own held
    exact ordered.member held
  · exact ordered_no_members

theorem Ordered.array_at {members : List (String × Json)} (ordered : (Json.object members).Ordered)
    (key : String) : ∀ item ∈ arrayAt members key, item.Ordered := by
  rw [arrayAt]
  split
  · rename_i items held
    exact (ordered.member held).items
  · exact nofun

/-! ## The map form -/

mutual

/-- The value as it is read back: every object as a map. -/
def canonical : Json → Json
  | array items => array (canonicalItems items)
  | object members => ofEntries (canonicalMembers members)
  | other => other

def canonicalItems : List Json → List Json
  | [] => []
  | item :: items => canonical item :: canonicalItems items

def canonicalMembers : List (String × Json) → List (String × Json)
  | [] => []
  | (key, value) :: members => (key, canonical value) :: canonicalMembers members

end

theorem canonical_items_eq (items : List Json) : canonicalItems items = items.map canonical := by
  induction items with
  | nil => rfl
  | cons item items step => rw [canonicalItems, step, List.map_cons]

theorem canonical_members_eq (members : List (String × Json)) :
    canonicalMembers members = members.map fun member => (member.1, canonical member.2) := by
  induction members with
  | nil => rfl
  | cons member members step => rw [canonicalMembers, step, List.map_cons]

theorem canonical_strings (items : List String) : (strings items).canonical = strings items := by
  rw [strings, canonical, canonical_items_eq, List.map_map]
  congr 1

end Json
