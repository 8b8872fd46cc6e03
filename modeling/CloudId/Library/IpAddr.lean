import CloudId.Library.Text

/-! IP addresses as `std::net::IpAddr`: the text form a program parses and the
text form it prints. The parser follows the standard library's recursive
descent, which reads a dotted IPv4 address first and an IPv6 address otherwise,
and which accepts only the whole text. -/

/-- `std::net::IpAddr`. -/
inductive IpAddr where
  | v4 (a b c d : UInt8)
  | v6 (segments : Vector UInt16 8)
  deriving DecidableEq

namespace IpAddr

/-- What is left to read, and what a reader made of the text before it. -/
abbrev Reader (α : Type) := List Char → Option (α × List Char)

/-- The value of a digit in a base up to 16. -/
def digitValue (base : Nat) (c : Char) : Option Nat :=
  let value :=
    if '0' ≤ c ∧ c ≤ '9' then some (c.toNat - '0'.toNat)
    else if 'a' ≤ c ∧ c ≤ 'f' then some (c.toNat - 'a'.toNat + 10)
    else if 'A' ≤ c ∧ c ≤ 'F' then some (c.toNat - 'A'.toNat + 10)
    else none
  value.filter (· < base)

/-- Reads a run of digits with at most `maxDigits` of them and a value below
`bound`; a leading zero stands alone unless `allowZeroPrefix`. -/
def readNumber (base maxDigits bound : Nat) (allowZeroPrefix : Bool) : Reader Nat := fun input =>
  let digits := input.takeWhile fun c => (digitValue base c).isSome
  let value := digits.foldl (fun n c => n * base + (digitValue base c).getD 0) 0
  if digits = [] ∨ maxDigits < digits.length ∨ bound ≤ value then none
  else if ¬ allowZeroPrefix ∧ digits.head? = some '0' ∧ 1 < digits.length then none
  else some (value, input.drop digits.length)

/-- Reads one given character. -/
def readChar (expected : Char) : Reader Unit
  | [] => none
  | c :: rest => if c = expected then some ((), rest) else none

/-- Reads a separator before every element but the first. -/
def readSeparated {α : Type} (separator : Char) (index : Nat) (inner : Reader α) : Reader α :=
  fun input =>
    if index = 0 then inner input
    else (readChar separator input).bind fun reply => inner reply.2

/-- `read_ipv4_addr`: four octets between dots. -/
def readV4 : Reader (UInt8 × UInt8 × UInt8 × UInt8) := fun input => do
  let octet := readNumber 10 3 256 false
  let (a, rest) ← readSeparated '.' 0 octet input
  let (b, rest) ← readSeparated '.' 1 octet rest
  let (c, rest) ← readSeparated '.' 2 octet rest
  let (d, rest) ← readSeparated '.' 3 octet rest
  some ((a.toUInt8, b.toUInt8, c.toUInt8, d.toUInt8), rest)

/-- The two segments an embedded IPv4 address stands for. -/
def embedded (a b c d : UInt8) : List UInt16 :=
  [a.toUInt16 * 256 + b.toUInt16, c.toUInt16 * 256 + d.toUInt16]

/-- `read_groups`: segments up to the limit, with whether they ended in an
embedded IPv4 address. -/
def readGroups (limit : Nat) : (fuel index : Nat) → List UInt16 → List Char →
    List UInt16 × Bool × List Char
  | 0, _, groups, input => (groups, false, input)
  | fuel + 1, index, groups, input =>
    let v4 := if index + 1 < limit then readSeparated ':' index readV4 input else none
    match v4 with
    | some ((a, b, c, d), rest) => (groups ++ embedded a b c d, true, rest)
    | none =>
      match readSeparated ':' index (readNumber 16 4 65536 true) input with
      | some (group, rest) =>
        readGroups limit fuel (index + 1) (groups ++ [group.toUInt16]) rest
      | none => (groups, false, input)

/-- `read_ipv6_addr`: eight segments, or the segments on both sides of `::`. -/
def readV6 : Reader (Vector UInt16 8) := fun input =>
  let (head, headV4, rest) := readGroups 8 8 0 [] input
  if full : head.length = 8 then some (⟨head.toArray, by simpa using full⟩, rest)
  else if headV4 then none
  else
    match rest with
    | ':' :: ':' :: rest =>
      let limit := 7 - head.length
      let (tail, _, rest) := readGroups limit limit 0 [] rest
      let segments := head ++ List.replicate (8 - head.length - tail.length) 0 ++ tail
      if full : segments.length = 8 then some (⟨segments.toArray, by simpa using full⟩, rest)
      else none
    | _ => none

/-- `str::parse::<IpAddr>`. -/
def parse (s : String) : Option IpAddr :=
  let parsed : Option (IpAddr × List Char) :=
    match readV4 s.toList with
    | some ((a, b, c, d), rest) => some (v4 a b c d, rest)
    | none => (readV6 s.toList).map fun reply => (v6 reply.1, reply.2)
  parsed.bind fun reply => if reply.2 = [] then some reply.1 else none

/-- The first longest run of zero segments, as its start and length. -/
def longestZeroRun : List UInt16 → (index start length bestStart bestLength : Nat) → Nat × Nat
  | [], _, _, _, bestStart, bestLength => (bestStart, bestLength)
  | segment :: rest, index, start, length, bestStart, bestLength =>
    if segment = 0 then
      let start := if length = 0 then index else start
      if bestLength < length + 1 then
        longestZeroRun rest (index + 1) start (length + 1) start (length + 1)
      else longestZeroRun rest (index + 1) start (length + 1) bestStart bestLength
    else longestZeroRun rest (index + 1) 0 0 bestStart bestLength

/-- Segments in lower-case hexadecimal between colons. -/
def segmentsText (segments : List UInt16) : String :=
  Text.join ":" (segments.map fun segment => Text.lowerHex segment.toNat)

/-- `Display for Ipv4Addr`. -/
def v4Text (a b c d : UInt8) : String :=
  Text.join "." ([a, b, c, d].map fun octet => toString octet.toNat)

/-- `Display for IpAddr`. -/
def toText : IpAddr → String
  | v4 a b c d => v4Text a b c d
  | v6 segments =>
    match segments.toList with
    | [0, 0, 0, 0, 0, 0xFFFF, high, low] =>
      "::ffff:" ++ v4Text (high / 256).toUInt8 high.toUInt8 (low / 256).toUInt8 low.toUInt8
    | list =>
      let (start, length) := longestZeroRun list 0 0 0 0 0
      if 1 < length then
        segmentsText (list.take start) ++ "::" ++ segmentsText (list.drop (start + length))
      else segmentsText list

instance : ToString IpAddr := ⟨toText⟩

example : parse "192.168.10.10" = some (v4 192 168 10 10) := by decide
example : parse "10.0.0.01" = none := by decide
example : (parse "2001:db8::0:1").map toText = some "2001:db8::1" := by decide

end IpAddr
