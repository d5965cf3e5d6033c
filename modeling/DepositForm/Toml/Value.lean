import DepositForm.Toml.Item
import DepositForm.Toml.Number
import DepositForm.Toml.Text

/-! # Keys and values in TOML

Names and dotted keys, values on one line and the two kinds of bracketed values. `readValue`
gives arrays and inline tables one level less for what they hold, so nesting is bounded by
`levelLimit` and the recursion is on levels.
-/
namespace DepositForm.Toml

/-- The number of levels that arrays and inline tables may nest, and of names in a dotted key. -/
def levelLimit : Nat := 79

def isBareKey (c : Char) : Bool := c.isAlphanum || c = '_' || c = '-'

/-- One name of a key, bare or in quotes. -/
def readName (cs : List Char) : Option (String × List Char) :=
  match cs with
  | '"' :: rest => readBasic [] rest
  | '\'' :: rest => readLiteral [] rest
  | _ =>
    let name := cs.takeWhile isBareKey
    if name.isEmpty then none else some (String.ofList name, cs.dropWhile isBareKey)

/-- A key of at most `names` names, with the blanks around them. -/
def readKey (names : Nat) (cs : List Char) : Option (Key × List Char) :=
  match names with
  | 0 => none
  | names + 1 => do
    let (name, rest) ← readName (skipBlanks cs)
    match skipBlanks rest with
    | '.' :: rest =>
      let (key, rest) ← readKey names rest
      return (⟨name :: key.above, key.name⟩, rest)
    | rest => return (⟨[], name⟩, rest)

/-- A value without brackets. -/
def readPlain : List Char → Option (Item × List Char)
  | 't' :: 'r' :: 'u' :: 'e' :: rest => some (.token (.bool true), rest)
  | 'f' :: 'a' :: 'l' :: 's' :: 'e' :: rest => some (.token (.bool false), rest)
  | cs =>
    match readText cs with
    | some (s, rest) => some (.token (.text s), rest)
    | none =>
      match readMoment cs with
      | some (s, rest) => some (.moment s, rest)
      | none => do
        let (t, rest) ← readFloat cs <|> readInteger cs
        return (.token t, rest)

/-- A way to read a value. -/
abbrev ValueReader := List Char → Option (Item × List Char)

/-- The items of an array, up to its closing bracket. A comma may follow the last one. Every item
takes a character, so the length of the text is `fuel` enough. -/
def readItems (value : ValueReader) : Nat → List Char → Option (List Item × List Char)
  | 0, _ => none
  | fuel + 1, cs => do
    match ← skipLines false cs with
    | ']' :: rest => return ([], rest)
    | cs =>
      let (item, rest) ← value cs
      match ← skipLines false rest with
      | ',' :: rest =>
        let (items, rest) ← readItems value fuel rest
        return (item :: items, rest)
      | ']' :: rest => return ([item], rest)
      | _ => none

/-- A key, its value and the blanks around them. -/
def readPair (value : ValueReader) (cs : List Char) : Option (Key × Item × List Char) := do
  let (key, rest) ← readKey levelLimit cs
  match rest with
  | '=' :: rest =>
    let (item, rest) ← value (skipBlanks rest)
    return (key, item, skipBlanks rest)
  | _ => none

/-- The pairs of an inline table, at least one, up to its closing brace. -/
def readPairs (value : ValueReader) (entries : Entries) :
    Nat → List Char → Option (Entries × List Char)
  | 0, _ => none
  | fuel + 1, cs => do
    let (key, item, rest) ← readPair value cs
    let entries ← entries.add true key item
    match rest with
    | ',' :: rest => readPairs value entries fuel rest
    | '}' :: rest => return (entries, rest)
    | _ => none

/-- An inline table from after its opening brace. -/
def readInline (value : ValueReader) (cs : List Char) : Option (Entries × List Char) :=
  match skipBlanks cs with
  | '}' :: rest => some ([], rest)
  | rest => readPairs value [] cs.length rest

/-- A value in which arrays and inline tables nest at most `levels` deep. -/
def readValue (levels : Nat) (cs : List Char) : Option (Item × List Char) :=
  match levels, cs with
  | levels + 1, '[' :: rest => do
    let (items, rest) ← readItems (readValue levels) rest.length rest
    return (.array items, rest)
  | levels + 1, '{' :: rest => do
    let (entries, rest) ← readInline (readValue levels) rest
    return (.table true .stated entries, rest)
  | _, cs => readPlain cs

end DepositForm.Toml
