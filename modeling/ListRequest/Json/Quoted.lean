import ListRequest.Json.Basic
import ListRequest.Text.Basic

/-! # JSON strings as they are spelled

A string is spelled with characters and with escapes, some of which stand for UTF-16 code units. Two
readers share its spelling: one wants the text, for which surrogates have to come in pairs, the
other only skips the string, for which any code unit will do.

* `Quoted.scan`: splits the spelling of a string off a text.
* `Quoted.decode`: the text that the string stands for.
* `Quoted.skip`: whether the string can be skipped.
-/

namespace ListRequest.Json
set_option autoImplicit false

/-- One piece of the spelling of a string. -/
inductive Piece where
  /-- A character, or an escape that stands for one. -/
  | char (c : Char)
  /-- An escape with the four hexadecimal digits of a UTF-16 code unit. -/
  | unit (u : Nat)
  deriving DecidableEq, Inhabited

/-- The spelling of a string, up to its end or to the first fault. -/
structure Quoted where
  pieces : List Piece
  fault : Option Fault := none
  deriving DecidableEq, Inhabited

namespace Quoted

/-! ## Spelling -/

/-- The character that a backslash and a letter stand for. -/
def escaped? (c : Char) : Option Char :=
  if c = '"' then some '"'
  else if c = '\\' then some '\\'
  else if c = '/' then some '/'
  else if c = 'b' then some (Char.ofNat 0x08)
  else if c = 'f' then some (Char.ofNat 0x0C)
  else if c = 'n' then some '\n'
  else if c = 'r' then some '\r'
  else if c = 't' then some '\t'
  else none

def hexValue? (c : Char) : Option Nat :=
  if '0' ≤ c && c ≤ '9' then some (c.toNat - '0'.toNat)
  else if 'a' ≤ c && c ≤ 'f' then some (c.toNat - 'a'.toNat + 10)
  else if 'A' ≤ c && c ≤ 'F' then some (c.toNat - 'A'.toNat + 10)
  else none

def unit? (a b c d : Char) : Option Nat := do
  let a ← hexValue? a
  let b ← hexValue? b
  let c ← hexValue? c
  let d ← hexValue? d
  return ((a * 16 + b) * 16 + c) * 16 + d

/-- What is wrong when `rest` does not start with four hexadecimal digits: it is too short for
them, or holds something else. -/
def unitFault (rest : List Char) : Fault :=
  if Text.utf8Length rest < 4 then .endOfText else .malformed

def broken (seen : Array Piece) (fault : Fault) : Quoted × List Char :=
  (⟨seen.toList, some fault⟩, [])

/-- Splits the rest of a string, after the pieces in `seen`, off a text. -/
def scan (seen : Array Piece) : List Char → Quoted × List Char
  | [] => broken seen .endOfText
  | c :: cs =>
    if c = '"' then (⟨seen.toList, none⟩, cs)
    else if c = '\\' then
      match cs with
      | [] => broken seen .endOfText
      | e :: cs =>
        if e = 'u' then
          match cs with
          | h₁ :: h₂ :: h₃ :: h₄ :: rest =>
            match unit? h₁ h₂ h₃ h₄ with
            | some u => scan (seen.push (.unit u)) rest
            | none => broken seen .malformed
          | cs => broken seen (unitFault cs)
        else
          match escaped? e with
          | some c => scan (seen.push (.char c)) cs
          | none => broken seen .malformed
    else if c.toNat < 0x20 then broken seen .malformed
    else scan (seen.push (.char c)) cs

theorem length_scan_le (seen : Array Piece) (cs : List Char) :
    (scan seen cs).2.length ≤ cs.length := by
  fun_induction scan seen cs <;> simp_all [broken] <;> omega

/-! ## Reading -/

/-- A code unit that starts a surrogate pair. -/
def isLead (u : Nat) : Bool := 0xD800 ≤ u && u < 0xDC00

/-- A code unit that ends a surrogate pair. -/
def isTrail (u : Nat) : Bool := 0xDC00 ≤ u && u < 0xE000

def pair (lead trail : Nat) : Char :=
  Char.ofNat (0x10000 + (lead - 0xD800) * 0x400 + (trail - 0xDC00))

/-- The text of pieces, after that of `text`. The fault at the end of the pieces counts when no
surrogate before it is alone. -/
def decodePieces (fault : Option Fault) (text : String) : List Piece → Except Fault String
  | [] =>
    match fault with
    | some f => .error f
    | none => .ok text
  | .char c :: ps => decodePieces fault (text.push c) ps
  | .unit u :: ps =>
    if isTrail u then .error .malformed
    else if isLead u then
      match ps with
      | .unit v :: ps =>
        if isTrail v then decodePieces fault (text.push (pair u v)) ps else .error .malformed
      | .char _ :: _ => .error .malformed
      | [] => .error (fault.getD .malformed)
    else decodePieces fault (text.push (Char.ofNat u)) ps

def decode (q : Quoted) : Except Fault String := decodePieces q.fault "" q.pieces

def skip (q : Quoted) : Except Fault Unit :=
  match q.fault with
  | some f => .error f
  | none => .ok ()

end Quoted

end ListRequest.Json
