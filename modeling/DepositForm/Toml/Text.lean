import DepositForm.Letter.Escape

/-! # Texts and blanks in TOML

Between the words of a document stand blanks, line ends and comments.

Basic texts stand between double quotes and have escapes, literal ones stand between single
quotes and have none. Either may go over several lines between three quotes; then a line end
right at the front does not count, and one or two quotes may stand before the closing three.
-/
namespace DepositForm.Toml

/-! ## Blanks and comments -/

def isBlank (c : Char) : Bool := c = ' ' || c = '\t'

/-- Whether a character may stand as it is in a comment or on one line of a text: a tab, or any
character that is no control. -/
def isPlain (c : Char) : Bool := c = '\t' || 0x20 ≤ c.toNat && c.toNat ≠ 0x7F

def skipBlanks (cs : List Char) : List Char := cs.dropWhile isBlank

/-- What follows a line end, if there is one. -/
def lineEnd? : List Char → Option (List Char)
  | '\n' :: rest => some rest
  | '\r' :: '\n' :: rest => some rest
  | _ => none

/-- Passes over blanks, line ends and comments; `none` if a comment holds a control character. -/
def skipLines (inComment : Bool) : List Char → Option (List Char)
  | [] => some []
  | '\n' :: rest => skipLines false rest
  | '\r' :: '\n' :: rest => skipLines false rest
  | c :: rest =>
    if inComment then
      if isPlain c then skipLines true rest else none
    else if c = '#' then skipLines true rest
    else if isBlank c then skipLines false rest
    else some (c :: rest)

/-- What follows the line, if nothing but blanks and a comment is left of it. -/
def finishLine? (cs : List Char) : Option (List Char) :=
  let rest :=
    match skipBlanks cs with
    | '#' :: rest => rest.dropWhile isPlain
    | rest => rest
  if rest.isEmpty then some [] else lineEnd? rest

/-! ## Texts -/

/-- What a backslash and one character stand for. -/
def plainEscape? : Char → Option Char
  | 'b' => some '\x08'
  | 'f' => some '\x0c'
  | 'n' => some '\n'
  | 'r' => some '\r'
  | 't' => some '\t'
  | '"' => some '"'
  | '\\' => some '\\'
  | _ => none

/-- A text from its characters, last one first. -/
def textOf (found : List Char) : String := String.ofList found.reverse

/-- The rest of a basic text on one line. -/
def readBasic (found : List Char) : List Char → Option (String × List Char)
  | [] => none
  | '"' :: rest => some (textOf found, rest)
  | '\\' :: 'u' :: a :: b :: c :: d :: rest => do
    let x ← Letter.hexChar? [a, b, c, d]
    readBasic (x :: found) rest
  | '\\' :: 'U' :: a :: b :: c :: d :: e :: f :: g :: h :: rest => do
    let x ← Letter.hexChar? [a, b, c, d, e, f, g, h]
    readBasic (x :: found) rest
  | '\\' :: x :: rest => do
    let c ← plainEscape? x
    readBasic (c :: found) rest
  | c :: rest => if isPlain c then readBasic (c :: found) rest else none

/-- The rest of a literal text on one line. -/
def readLiteral (found : List Char) : List Char → Option (String × List Char)
  | [] => none
  | '\'' :: rest => some (textOf found, rest)
  | c :: rest => if isPlain c then readLiteral (c :: found) rest else none

/-- The end of a text after three closing quotes: up to two more quotes belong to the text, and are
the ones in front. -/
def closeLines (quote : Char) (found : List Char) : List Char → String × List Char
  | a :: b :: rest =>
    if a = quote then
      if b = quote then (textOf (quote :: quote :: found), rest)
      else (textOf (quote :: found), b :: rest)
    else (textOf found, a :: b :: rest)
  | [a] => if a = quote then (textOf (quote :: found), []) else (textOf found, [a])
  | [] => (textOf found, [])

/-- A backslash at the end of a line joins it to the next text: the line must end, and then blanks
and line ends are passed over. -/
inductive Joining where
  | no
  | lineEndWanted
  | passing
deriving DecidableEq

/-- The rest of a basic text of several lines. -/
def readBasicLines (joining : Joining) (found : List Char) :
    List Char → Option (String × List Char)
  | [] => none
  | '\n' :: rest =>
    if joining = .no then readBasicLines .no ('\n' :: found) rest
    else readBasicLines .passing found rest
  | '\r' :: '\n' :: rest =>
    if joining = .no then readBasicLines .no ('\n' :: found) rest
    else readBasicLines .passing found rest
  | c :: rest =>
    if joining ≠ .no ∧ isBlank c then readBasicLines joining found rest
    else if joining = .lineEndWanted then none
    else
      match c, rest with
      | '"', '"' :: '"' :: rest => some (closeLines '"' found rest)
      | '\\', 'u' :: a :: b :: c :: d :: rest => do
        let x ← Letter.hexChar? [a, b, c, d]
        readBasicLines .no (x :: found) rest
      | '\\', 'U' :: a :: b :: c :: d :: e :: f :: g :: h :: rest => do
        let x ← Letter.hexChar? [a, b, c, d, e, f, g, h]
        readBasicLines .no (x :: found) rest
      | '\\', x :: rest =>
        if isBlank x then readBasicLines .lineEndWanted found rest
        else if x = '\n' then readBasicLines .passing found rest
        else if x = '\r' then
          match rest with
          | '\n' :: rest => readBasicLines .passing found rest
          | _ => none
        else do
          let c ← plainEscape? x
          readBasicLines .no (c :: found) rest
      | c, rest => if isPlain c then readBasicLines .no (c :: found) rest else none

/-- The rest of a literal text of several lines. -/
def readLiteralLines (found : List Char) : List Char → Option (String × List Char)
  | [] => none
  | '\'' :: '\'' :: '\'' :: rest => some (closeLines '\'' found rest)
  | '\n' :: rest => readLiteralLines ('\n' :: found) rest
  | '\r' :: '\n' :: rest => readLiteralLines ('\n' :: found) rest
  | c :: rest => if isPlain c then readLiteralLines (c :: found) rest else none

/-- Passes over a line end right here. -/
def skipLineEnd (cs : List Char) : List Char := (lineEnd? cs).getD cs

/-- Reads a text of any of the four forms. -/
def readText : List Char → Option (String × List Char)
  | '"' :: '"' :: '"' :: rest => readBasicLines .no [] (skipLineEnd rest)
  | '"' :: rest => readBasic [] rest
  | '\'' :: '\'' :: '\'' :: rest => readLiteralLines [] (skipLineEnd rest)
  | '\'' :: rest => readLiteral [] rest
  | _ => none

end DepositForm.Toml
