import MonkeyLang.Text.Quoted

/-!
Reading bytes as UTF-8. A sequence that is no character is refused with the bytes at fault: those
read so far of a character that breaks off, or the one byte that can start none.
-/

namespace MonkeyLang.Text

inductive Flaw where
  | badStart
  | badContinuation
  | truncated
  deriving DecidableEq, Repr

def Flaw.message : Flaw → String
  | .badStart => "invalid start byte"
  | .badContinuation => "invalid continuation byte"
  | .truncated => "unexpected end of data"

/-- The bytes from `start` up to, not including, `stop` are no text; `first` is the first of them. -/
structure BadBytes where
  start : Nat
  stop : Nat
  first : UInt8
  flaw : Flaw
  deriving DecidableEq, Repr

def BadBytes.message (bad : BadBytes) : String :=
  if bad.stop = bad.start + 1 then
    "'utf-8' codec can't decode byte 0x" ++ String.ofList (hexDigits 2 bad.first.toNat) ++
      " in position " ++ toString bad.start ++ ": " ++ bad.flaw.message
  else
    "'utf-8' codec can't decode bytes in position " ++ toString bad.start ++ "-" ++
      toString (bad.stop - 1) ++ ": " ++ bad.flaw.message

/-- A character begun: the byte it started with, the bytes read, those owed, the range of the next
byte and the code so far. -/
structure Partial where
  first : UInt8
  seen : Nat
  owed : Nat
  low : Nat
  high : Nat
  code : Nat
  deriving DecidableEq, Repr

/-- The character that a first byte begins, if it begins one of several bytes. The range of the
second byte leaves out overlong forms, surrogates and codes past the last plane. -/
def Partial.begin? (first : UInt8) : Option Partial :=
  let n := first.toNat
  if n < 0xc2 then none
  else if n < 0xe0 then some ⟨first, 1, 1, 0x80, 0xbf, n - 0xc0⟩
  else if n < 0xf0 then
    some ⟨first, 1, 2, if n = 0xe0 then 0xa0 else 0x80, if n = 0xed then 0x9f else 0xbf, n - 0xe0⟩
  else if n < 0xf5 then
    some ⟨first, 1, 3, if n = 0xf0 then 0x90 else 0x80, if n = 0xf4 then 0x8f else 0xbf, n - 0xf0⟩
  else none

/-- Reads on at byte number `position`; `done` holds the characters read, last first. -/
def decodeFrom (position : Nat) (begun : Option Partial) (done : List Char) :
    List UInt8 → Except BadBytes (List Char)
  | [] =>
    match begun with
    | none => .ok done.reverse
    | some p => .error ⟨position - p.seen, position, p.first, .truncated⟩
  | byte :: rest =>
    match begun with
    | none =>
      if byte.toNat < 0x80 then decodeFrom (position + 1) none (Char.ofNat byte.toNat :: done) rest
      else
        match Partial.begin? byte with
        | none => .error ⟨position, position + 1, byte, .badStart⟩
        | some p => decodeFrom (position + 1) (some p) done rest
    | some p =>
      if byte.toNat < p.low ∨ p.high < byte.toNat then
        .error ⟨position - p.seen, position, p.first, .badContinuation⟩
      else
        let code := p.code * 64 + (byte.toNat - 0x80)
        if p.owed = 1 then decodeFrom (position + 1) none (Char.ofNat code :: done) rest
        else
          decodeFrom (position + 1) (some ⟨p.first, p.seen + 1, p.owed - 1, 0x80, 0xbf, code⟩)
            done rest

def decode (bytes : List UInt8) : Except BadBytes (List Char) := decodeFrom 0 none [] bytes

end MonkeyLang.Text
