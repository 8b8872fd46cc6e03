import CloudId.Library.Text

/-! JSON values as `serde_json` keeps them: an object is a map ordered by its
keys, and a value is read through accessors which are `None` on a value of
another type. Reading and printing the text form belongs to the library, so
both are parameters: a `Serialize` or `Deserialize` instance is the text codec
of one type. -/

/-- `serde_json::Number`; a float is known by its bits. -/
inductive JsonNumber where
  | int (value : Int)
  | float (bits : UInt64)
  deriving DecidableEq

/-- `serde_json::Value`. The members of an object are in ascending key order. -/
inductive Json where
  | null
  | bool (value : Bool)
  | number (value : JsonNumber)
  | string (text : String)
  | array (items : List Json)
  | object (members : List (String × Json))

/-- How an operation on a value panics. -/
inductive Panic where
  | unwrapNone
  | notAnObject
  deriving DecidableEq

/-- `serde_json::to_string_pretty` at one type. -/
class Serialize (α : Type) where
  toStringPretty : α → String

/-- `serde_json::from_str` at one type; `none` stands for its error. -/
class Deserialize (α : Type) where
  fromStr : String → Option α

/-- What a program relies on when it keeps values in files: a value is read back
as an equivalent one, and a text that was cut short is not read. -/
structure TextCodec (α : Type) [Serialize α] [Deserialize α] (same : α → α → Prop) : Prop where
  reads_back : ∀ value : α, ∃ found, Deserialize.fromStr (Serialize.toStringPretty value) = some found ∧
    same found value
  rejects_cut : ∀ (value : α) (cut more : String), more ≠ "" →
    Serialize.toStringPretty value = cut ++ more → (Deserialize.fromStr cut : Option α) = none

namespace Json

/-- `Map::insert`: the entry takes its place in key order. -/
def insertMember (key : String) (value : Json) : List (String × Json) → List (String × Json)
  | [] => [(key, value)]
  | (k, v) :: rest =>
    if key < k then (key, value) :: (k, v) :: rest
    else if key = k then (key, value) :: rest
    else (k, v) :: insertMember key value rest

/-- `Map::remove`, without the value removed. -/
def removeMember (key : String) (members : List (String × Json)) : List (String × Json) :=
  members.filter fun member => member.1 ≠ key

/-- `Value::as_object`. -/
def asObject : Json → Option (List (String × Json))
  | object members => some members
  | _ => none

/-- `Value::as_str`. -/
def asStr : Json → Option String
  | string text => some text
  | _ => none

/-- `Value::get` with a key: only an object has members. -/
def get? (value : Json) (key : String) : Option Json :=
  value.asObject.bind fun members => members.lookup key

/-- The object with the given entries, inserted in turn. -/
def ofEntries (entries : List (String × Json)) : Json :=
  object (entries.foldl (fun members entry => insertMember entry.1 entry.2 members) [])

/-- Changes the value of a member in place (`get_mut`); only an object has members. -/
def mapMember (key : String) (change : Json → Json) : Json → Json
  | object members =>
    object (members.map fun member => if member.1 = key then (key, change member.2) else member)
  | other => other

/-- `value[key] = new`: a null becomes an object, any other non-object panics. -/
def setIndex (key : String) (new : Json) : Json → Except Panic Json
  | null => .ok (object [(key, new)])
  | object members => .ok (object (insertMember key new members))
  | _ => .error .notAnObject

/-- `value.as_object_mut().unwrap().entry(key).or_insert_with(default)`, and a
change of the entry's value. -/
def changeEntry (key : String) (default : Json) (change : Json → Except Panic Json) :
    Json → Except Panic Json
  | object members =>
    match change ((members.lookup key).getD default) with
    | .ok value => .ok (object (insertMember key value members))
    | .error panic => .error panic
  | _ => .error .unwrapNone

/-- The value is an object. -/
def IsObject (value : Json) : Prop := ∃ members, value = object members

theorem lookup_insert_member (key probe : String) (value : Json)
    (members : List (String × Json)) :
    (insertMember key value members).lookup probe =
      if probe = key then some value else members.lookup probe := by
  by_cases same : probe = key
  · subst same
    rw [if_pos rfl]
    induction members with
    | nil => simp [insertMember]
    | cons member rest step =>
      obtain ⟨own, held⟩ := member
      rw [insertMember]
      split
      · simp
      · split
        · simp
        · rename_i elsewhere
          have differs : (probe == own) = false := beq_false_of_ne elsewhere
          rw [List.lookup_cons, differs]
          exact step
  · rw [if_neg same]
    have differs : (probe == key) = false := beq_false_of_ne same
    induction members with
    | nil => simp [insertMember, List.lookup_cons, differs]
    | cons member rest step =>
      obtain ⟨own, held⟩ := member
      rw [insertMember]
      split
      · simp [List.lookup_cons, differs]
      · split
        · rename_i here
          subst here
          simp [List.lookup_cons, differs]
        · rw [List.lookup_cons, List.lookup_cons, step]

theorem change_entry_ok_iff {key : String} {default value : Json}
    {change : Json → Except Panic Json} :
    (∃ result, changeEntry key default change value = .ok result) ↔
      ∃ members, value = .object members ∧
        ∃ result, change ((members.lookup key).getD default) = .ok result := by
  cases value with
  | object members =>
    simp only [changeEntry, Json.object.injEq, exists_eq_left']
    cases change ((members.lookup key).getD default) <;> simp
  | _ => simp [changeEntry]

/-- A changed entry holds what the change made of it; the others stay. -/
theorem change_entry_eq_ok {key : String} {default value result : Json}
    {change : Json → Except Panic Json} (changed : changeEntry key default change value = .ok result) :
    ∃ members entry, value = .object members ∧
      change ((members.lookup key).getD default) = .ok entry ∧
      result = .object (insertMember key entry members) := by
  cases value with
  | object members =>
    rw [changeEntry] at changed
    split at changed
    · rename_i entry made
      cases changed
      exact ⟨members, entry, rfl, made, rfl⟩
    · cases changed
  | _ => cases changed

/-- An array of strings. -/
def strings (items : List String) : Json := array (items.map string)

/-- How a printer escapes one character of a string. -/
def escapeChar (c : Char) : List Char :=
  if c = '"' then ['\\', '"']
  else if c = '\\' then ['\\', '\\']
  else if c = '\n' then ['\\', 'n']
  else if c = '\r' then ['\\', 'r']
  else if c = '\t' then ['\\', 't']
  else if c.toNat = 8 then ['\\', 'b']
  else if c.toNat = 12 then ['\\', 'f']
  else if c.toNat < 32 then ['\\', 'u'] ++ (Text.paddedHex 4 c.toNat).toList
  else [c]

/-- A quoted string. -/
def quote (s : String) : String := "\"" ++ String.ofList (s.toList.flatMap escapeChar) ++ "\""

/-- A new line at a nesting depth. -/
def newline (depth : Nat) : String := "\n" ++ String.ofList (List.replicate (2 * depth) ' ')

mutual

/-- The layout of `to_string_pretty`: two spaces a level, one member a line. -/
def pretty (depth : Nat) : Json → String
  | null => "null"
  | bool value => if value then "true" else "false"
  | number (.int value) => toString value
  | number (.float bits) => toString bits
  | string text => quote text
  | array [] => "[]"
  | array (item :: items) =>
    "[" ++ newline (depth + 1) ++ pretty (depth + 1) item ++ prettyItems (depth + 1) items ++
      newline depth ++ "]"
  | object [] => "\x7b\x7d"
  | object ((key, value) :: members) =>
    "\x7b" ++ newline (depth + 1) ++ quote key ++ ": " ++ pretty (depth + 1) value ++
      prettyMembers (depth + 1) members ++ newline depth ++ "\x7d"

/-- The items after the first. -/
def prettyItems (depth : Nat) : List Json → String
  | [] => ""
  | item :: items => "," ++ newline depth ++ pretty depth item ++ prettyItems depth items

/-- The members after the first. -/
def prettyMembers (depth : Nat) : List (String × Json) → String
  | [] => ""
  | (key, value) :: members =>
    "," ++ newline depth ++ quote key ++ ": " ++ pretty depth value ++ prettyMembers depth members

end

/-- The printer of a value with that layout. -/
@[reducible] def prettyText : Serialize Json where
  toStringPretty value := value.pretty 0

example : (object [("a", array [number (.int 1), null])]).pretty 0 =
    "\x7b\n  \"a\": [\n    1,\n    null\n  ]\n\x7d" := by decide

end Json
