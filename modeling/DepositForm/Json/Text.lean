import DepositForm.Json.Fault
import DepositForm.Letter.Escape

/-! # Texts in JSON

Texts stand between quotes and have escapes. A reader wants whole characters, so surrogates must
come in pairs; one that only passes over a text checks the escapes alone.
-/
namespace DepositForm.Json

/-- A text as scanned: to its end, with a fault if it cannot be had, or broken off. -/
inductive TextScan where
  | closed (text : Except Fault String) (next : Cursor)
  | broken (reading passing : Fault)

/-- What a backslash and one character stand for. -/
def plainEscape? : Char → Option Char
  | '"' => some '"'
  | '\\' => some '\\'
  | '/' => some '/'
  | 'b' => some '\x08'
  | 'f' => some '\x0c'
  | 'n' => some '\n'
  | 'r' => some '\r'
  | 't' => some '\t'
  | _ => none

def isFirstHalf (unit : Nat) : Bool := 0xD800 ≤ unit && unit ≤ 0xDBFF

def isSecondHalf (unit : Nat) : Bool := 0xDC00 ≤ unit && unit ≤ 0xDFFF

/-- The character that two halves stand for. -/
def joinHalves (first second : Nat) : Char :=
  Char.ofNat ((first - 0xD800) * 0x400 + (second - 0xDC00) + 0x10000)

/-- What is known while a text is scanned. -/
structure TextState where
  /-- The characters so far, last one first. -/
  found : List Char := []
  /-- A first half that waits for its second. -/
  half : Option Nat := none
  /-- The first fault that only a reader of the text minds. -/
  fault : Option Fault := none

namespace TextState

/-- A half that waits is spoilt by anything but an escaped second half; the fault is at `place`. -/
def spoil (s : TextState) (slip : Slip) (place : Nat) : TextState :=
  match s.half with
  | none => s
  | some _ => { s with half := none, fault := s.fault <|> some ⟨slip, place⟩ }

def push (s : TextState) (c : Char) : TextState := { s with found := c :: s.found }

/-- Takes the unit of an escape that ends at `place`. -/
def pushUnit (s : TextState) (unit place : Nat) : TextState :=
  match s.half with
  | some first =>
    if isSecondHalf unit then { s with half := none, found := joinHalves first unit :: s.found }
    else s.spoil .loneSurrogate place
  | none =>
    if isFirstHalf unit then { s with half := some unit }
    else if isSecondHalf unit then { s with fault := s.fault <|> some ⟨.loneSurrogate, place⟩ }
    else s.push (Char.ofNat unit)

/-- The text is over; its quote ends at `place`. -/
def finish (s : TextState) : Except Fault String :=
  match s.fault with
  | some f => .error f
  | none => .ok (String.ofList s.found.reverse)

/-- The text breaks off: a reader meets the first fault, whoever passes over it meets `passing`. -/
def breakOff (s : TextState) (reading passing : Fault) : TextScan :=
  .broken (s.fault.getD reading) passing

end TextState

/-- The number of bytes of some characters. -/
def byteCount (cs : List Char) : Nat := cs.foldl (fun n c => n + c.utf8Size) 0

/-- Scans a text from after its opening quote. -/
def scanText (s : TextState) (place : Nat) : List Char → TextScan
  | [] => s.breakOff ⟨.endInText, place⟩ ⟨.endInText, place⟩
  | '"' :: rest => .closed (s.spoil .brokenSurrogate (place + 1)).finish ⟨rest, place + 1⟩
  | ['\\'] => s.breakOff ⟨.endInText, place + 1⟩ ⟨.endInText, place + 1⟩
  | '\\' :: 'u' :: a :: b :: c :: d :: rest =>
    match Letter.hexNumber? [a, b, c, d] with
    | some unit => scanText (s.pushUnit unit (place + 6)) (place + 6) rest
    | none => s.breakOff ⟨.badEscape, place + 6⟩ ⟨.badEscape, place + 6⟩
  | '\\' :: 'u' :: short =>
    let f : Fault :=
      if byteCount short < 4 then ⟨.endInText, place + 2 + byteCount short⟩
      else ⟨.badEscape, place + 6⟩
    s.breakOff f f
  | '\\' :: x :: rest =>
    let s := s.spoil .brokenSurrogate (place + 2)
    match plainEscape? x with
    | some c => scanText (s.push c) (place + 2) rest
    | none => s.breakOff ⟨.badEscape, place + 2⟩ ⟨.badEscape, place + 2⟩
  | c :: rest =>
    let s := s.spoil .brokenSurrogate (place + 1)
    if c.toNat < 0x20 then s.breakOff ⟨.controlCharacter, place + 1⟩ ⟨.controlCharacter, place⟩
    else scanText (s.push c) (place + c.utf8Size) rest

end DepositForm.Json
