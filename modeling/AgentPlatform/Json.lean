import Mathlib.Data.List.Sort

/-!
# JSON values and their canonical text

The services exchange JSON documents and hash their canonical serialization:
keys sorted, no blanks, non-ASCII characters kept. `Json.dumps` is that
serialization – `json.dumps` with `ensure_ascii=False`,
`separators=(",", ":")` and `sort_keys=True`. `Json.text` is the serialization
with the default separators and the order of insertion, which content scanners
read. A number is kept as its literal, since nothing here computes on one.
-/

/-- A JSON document. -/
inductive Json where
  | null
  | bool (b : Bool)
  | num (literal : String)
  | str (s : String)
  | arr (items : List Json)
  | obj (fields : List (String × Json))
  deriving Inhabited

namespace Json

/-- A hexadecimal digit. -/
def hexDigit (n : ℕ) : Char :=
  if n < 10 then Char.ofNat (48 + n) else Char.ofNat (87 + n)

/-- One character of a JSON string. Control characters without a short form
are written `\u00XX`. -/
def escapeChar (c : Char) : String :=
  if c = '"' then "\\\""
  else if c = '\\' then "\\\\"
  else if c = '\n' then "\\n"
  else if c = '\r' then "\\r"
  else if c = '\t' then "\\t"
  else if c.toNat = 8 then "\\b"
  else if c.toNat = 12 then "\\f"
  else if c.toNat < 32 then
    "\\u00" ++ String.ofList [hexDigit (c.toNat / 16), hexDigit (c.toNat % 16)]
  else String.ofList [c]

/-- A string between quotes. -/
def quote (s : String) : String :=
  "\"" ++ String.join (s.toList.map escapeChar) ++ "\""

/-- Sort fields by key, as `sort_keys=True` does. -/
def sortFields (fields : List (String × String)) : List (String × String) :=
  fields.insertionSort (fun a b => a.1 ≤ b.1)

mutual

/-- **The canonical text of a document.** -/
def dumps : Json → String
  | .null => "null"
  | .bool b => if b then "true" else "false"
  | .num literal => literal
  | .str s => quote s
  | .arr items => "[" ++ ",".intercalate (dumpsItems items) ++ "]"
  | .obj fields =>
    "\x7b" ++ ",".intercalate
      ((sortFields (dumpsFields fields)).map (fun f => quote f.1 ++ ":" ++ f.2)) ++ "\x7d"

/-- The texts of the items of an array. -/
def dumpsItems : List Json → List String
  | [] => []
  | x :: xs => dumps x :: dumpsItems xs

/-- The fields of an object with the texts of their values. -/
def dumpsFields : List (String × Json) → List (String × String)
  | [] => []
  | (k, v) :: fs => (k, dumps v) :: dumpsFields fs

end

mutual

/-- The text of a document with the default separators. -/
def text : Json → String
  | .null => "null"
  | .bool b => if b then "true" else "false"
  | .num literal => literal
  | .str s => quote s
  | .arr items => "[" ++ ", ".intercalate (textItems items) ++ "]"
  | .obj fields => "\x7b" ++ ", ".intercalate (textFields fields) ++ "\x7d"

/-- The texts of the items of an array. -/
def textItems : List Json → List String
  | [] => []
  | x :: xs => text x :: textItems xs

/-- The texts of the fields of an object. -/
def textFields : List (String × Json) → List String
  | [] => []
  | (k, v) :: fs => (quote k ++ ": " ++ text v) :: textFields fs

end

/-- An optional string, absent as `null`. -/
def ofOption : Option String → Json
  | none => .null
  | some s => .str s

/-- A dictionary of strings. -/
def ofDict (d : List (String × String)) : Json :=
  .obj (d.map (fun f => (f.1, .str f.2)))

/-- Keys come out sorted, whatever order they were given in. -/
example : dumps (.obj [("b", .null), ("a", .arr [.bool true, .str "x"])])
    = "\x7b\"a\":[true,\"x\"],\"b\":null\x7d" := by decide +kernel

end Json
