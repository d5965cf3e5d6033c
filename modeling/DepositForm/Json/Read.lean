import DepositForm.Announced.Error
import DepositForm.Json.Number
import DepositForm.Json.Text

/-! # Reading JSON

A text is announced as a whole and then read with a reader of announced values. The text is gone
through once, from the front; where it stops being JSON the announcement stops with a fault. Faults
that not every reader minds, such as a number without a value or too many open containers, stand in
the announcement and the text is gone through to its end. A fault that follows the value is met only
after the value has been read.
-/
namespace DepositForm.Json

/-! ## Announcing a text -/

/-- How many containers may be open at once is one less than this. -/
def depthLimit : Nat := 128

/-- What a container that opens at `c` with `depth` others around it says to whoever enters it. -/
def depthFault (depth : Nat) (c : Cursor) : Option Fault :=
  if depth + 1 < depthLimit then none else some (c.fault .tooDeep)

/-- An announcement and where it ended; `none` if the text broke off. -/
abbrev Announcement (α : Type) := α × Option Cursor

/-- An announcement that breaks off. -/
def brokenOff (reading passing : Fault) : Announcement (Announced Fault) :=
  (.broken reading passing, none)

/-- The rest of a word whose first letter has been seen. -/
def announceWord (t : Token) : List Char → Cursor → Announcement (Announced Fault)
  | [], c => (.token t c.place, some c)
  | expected :: more, c =>
    match c.rest with
    | [] => brokenOff ⟨.endInValue, c.place⟩ ⟨.endInValue, c.place⟩
    | x :: rest =>
      if x = expected then announceWord t more ⟨rest, c.place + 1⟩
      else brokenOff ⟨.noWord, c.place + 1⟩ ⟨.noWord, c.place + 1⟩

def announceNumber (c : Cursor) : Announcement (Announced Fault) :=
  match scanNumber c with
  | .closed (.ok t) next => (.token t next.place, some next)
  | .closed (.error f) next => (.unreadable f, some next)
  | .broken reading passing => brokenOff reading passing

/-- A text from after its opening quote. -/
def announceText (c : Cursor) : Announcement (Announced Fault) :=
  match scanText {} c.place c.rest with
  | .closed (.ok s) next => (.token (.text s) next.place, some next)
  | .closed (.error f) next => (.unreadable f, some next)
  | .broken reading passing => brokenOff reading passing

/-- Where a reader stands that gives up at a key: before what follows the key, or after it if it
closes the object. -/
def afterKey (c : Cursor) : Nat :=
  match c.rest with
  | '}' :: _ => c.place + 1
  | _ => c.place

mutual
/-- Announces a value. `fuel` bounds the number of containers still to come, `depth` is the number
of those already open. -/
def announceValue (fuel depth : Nat) (c : Cursor) : Announcement (Announced Fault) :=
  let c := c.skipBlanks
  match fuel, c.rest with
  | _, [] => brokenOff ⟨.endInValue, c.place⟩ ⟨.endInValue, c.place⟩
  | _, 'n' :: rest => announceWord .null ['u', 'l', 'l'] ⟨rest, c.place + 1⟩
  | _, 't' :: rest => announceWord (.bool true) ['r', 'u', 'e'] ⟨rest, c.place + 1⟩
  | _, 'f' :: rest => announceWord (.bool false) ['a', 'l', 's', 'e'] ⟨rest, c.place + 1⟩
  | _, '"' :: rest => announceText ⟨rest, c.place + 1⟩
  | fuel + 1, '[' :: rest =>
    let (items, next) := announceItems fuel (depth + 1) true ⟨rest, c.place + 1⟩
    (.sequence c.place (depthFault depth c) items, next)
  | fuel + 1, '{' :: rest =>
    let (entries, next) := announceEntries fuel (depth + 1) true ⟨rest, c.place + 1⟩
    (.mapping c.place (depthFault depth c) entries, next)
  | _, x :: _ =>
    if x = '-' || x.isDigit then announceNumber c
    else brokenOff (c.fault .noValue) (c.fault .noValue)
termination_by (fuel, 0)

/-- Announces the items of a list from here on; `first` says that none came before. -/
def announceItems (fuel depth : Nat) (first : Bool) (c : Cursor) :
    Announcement (Announced.Items Fault) :=
  let c := c.skipBlanks
  match c.rest with
  | [] =>
    let f : Fault := ⟨.endInList, c.place⟩
    (.broken f f f, none)
  | ']' :: rest => (.done (c.place + 1), some ⟨rest, c.place + 1⟩)
  | x :: rest =>
    if first then announceItem fuel depth c c
    else if x = ',' then
      let c := (Cursor.mk rest (c.place + 1)).skipBlanks
      match c.rest with
      | [] =>
        (.broken ⟨.endInValue, c.place⟩ ⟨.endInValue, c.place⟩ ⟨.trailingCharacters, c.place⟩, none)
      | ']' :: _ =>
        (.broken (c.fault .trailingComma) (c.fault .noValue) (c.fault .trailingComma), none)
      | _ => announceItem fuel depth c c
    else
      let f := c.fault .noListEnd
      (.broken f f (c.fault .trailingCharacters), none)
termination_by (fuel, 1)

/-- Announces an item and those after it. -/
def announceItem (fuel depth : Nat) (stopped c : Cursor) :
    Announcement (Announced.Items Fault) :=
  match fuel with
  | 0 => (.done c.place, none)
  | fuel + 1 =>
    let unread := some (stopped.fault .trailingCharacters)
    match announceValue fuel depth c with
    | (item, some next) =>
      let (rest, next) := announceItems fuel depth false next
      (.next unread item rest, next)
    | (item, none) => (.next unread item (.done c.place), none)
termination_by (fuel, 0)

/-- Announces the entries of an object from here on. -/
def announceEntries (fuel depth : Nat) (first : Bool) (c : Cursor) :
    Announcement (Announced.Entries Fault) :=
  let c := c.skipBlanks
  match c.rest with
  | [] =>
    let f : Fault := ⟨.endInObject, c.place⟩
    (.broken f f f, none)
  | '}' :: rest => (.done (c.place + 1), some ⟨rest, c.place + 1⟩)
  | x :: rest =>
    if first then
      if x = '"' then announceEntry fuel depth (c.fault .trailingCharacters) ⟨rest, c.place + 1⟩
      else
        let f := c.fault .keyNotText
        (.broken f f (c.fault .trailingCharacters), none)
    else if x = ',' then
      let unread := c.fault .trailingComma
      let c := (Cursor.mk rest (c.place + 1)).skipBlanks
      match c.rest with
      | [] => (.broken ⟨.endInValue, c.place⟩ ⟨.endInObject, c.place⟩ unread, none)
      | '"' :: rest => announceEntry fuel depth unread ⟨rest, c.place + 1⟩
      | '}' :: _ => (.broken (c.fault .trailingComma) (c.fault .keyNotText) unread, none)
      | _ =>
        let f := c.fault .keyNotText
        (.broken f f unread, none)
    else
      let f := c.fault .noObjectEnd
      (.broken f f (c.fault .trailingCharacters), none)
termination_by (fuel, 1)

/-- Announces an entry from after the opening quote of its key, and those after it. -/
def announceEntry (fuel depth : Nat) (unread : Fault) (c : Cursor) :
    Announcement (Announced.Entries Fault) :=
  match fuel with
  | 0 => (.done c.place, none)
  | fuel + 1 =>
    match announceText c with
    | (key, none) => (.next (some unread) key c.place key (.done c.place), none)
    | (key, some next) =>
      let colon := next.skipBlanks
      match colon.rest with
      | ':' :: rest =>
        match announceValue fuel depth ⟨rest, colon.place + 1⟩ with
        | (value, some next) =>
          let (entries, next) := announceEntries fuel depth false next
          (.next (some unread) key (afterKey colon) value entries, next)
        | (value, none) =>
          (.next (some unread) key (afterKey colon) value (.done colon.place), none)
      | _ =>
        let f := if colon.rest.isEmpty then ⟨.endInObject, colon.place⟩ else colon.fault .noColon
        (.next (some unread) key (afterKey colon) (.broken f f) (.done colon.place), none)
termination_by (fuel, 0)
end

/-- A whole text: its value, and the fault of what follows the value. -/
structure Document where
  value : Announced Fault
  trailing : Option Fault

/-- Announces a text. Every container, item and entry takes a character, so twice the length of the
text is fuel enough. -/
def announce (text : String) : Document :=
  let c := Cursor.ofText text
  match announceValue (2 * c.rest.length + 2) 0 c with
  | (value, none) => ⟨value, none⟩
  | (value, some next) =>
    let next := next.skipBlanks
    ⟨value, if next.rest.isEmpty then none else some (next.fault .trailingCharacters)⟩

/-! ## Reading what is announced -/

variable {α : Type}

def read (reader : Announced Fault → Except (ReadError Fault) α) (text : String) :
    Except (ReadError Fault) α := do
  let document := announce text
  let a ← reader document.value
  match document.trailing with
  | some f => .error (.fault f)
  | none => return a

/-- The place an error tells, if it tells one. -/
def errorPlace? : ReadError Fault → Option Nat
  | .fault f => some f.place
  | .mismatch _ _ place => some place
  | .missing _ place => some place
  | .repeated _ place => some place
  | .tooShort _ _ _ place => some place
  | .notText => some 0
  | .noShape _ => none

/-- The message of an error that came up in reading `text`. -/
def errorMessage (text : String) (e : ReadError Fault) : String :=
  e.wording .exchange (·.slip.wording) ++
    match errorPlace? e with
    | some place => placeWording text place
    | none => ""

end DepositForm.Json
