import Allegiance.Document.Flaw
import Allegiance.Text.Hex
import Allegiance.Text.Utf8

namespace Allegiance.Json

open Document (Break Flaw)

def byte (c : Char) : UInt8 := c.toNat.toUInt8

def bytes (cs : List Char) : Bytes := cs.map byte

def escapes : List (UInt8 × UInt8) :=
  [(byte '"', 34), (byte '\\', 92), (byte '/', 47), (byte 'b', 8), (byte 'f', 12), (byte 'n', 10),
   (byte 'r', 13), (byte 't', 9)]

def escaped (b : UInt8) : Bytes :=
  if b = 34 then [92, 34]
  else if b = 92 then [92, 92]
  else if b = 8 then [92, byte 'b']
  else if b = 9 then [92, byte 't']
  else if b = 10 then [92, byte 'n']
  else if b = 12 then [92, byte 'f']
  else if b = 13 then [92, byte 'r']
  else if b < 32 then [92, byte 'u', 48, 48, Hex.digit (b / 16), Hex.digit (b % 16)]
  else [b]

def writeText (s : String) : Bytes := 34 :: (Utf8.encode s).flatMap escaped ++ [34]

def hexNumber? (a b c d : UInt8) : Option Nat :=
  match Hex.value? a, Hex.value? b, Hex.value? c, Hex.value? d with
  | some a, some b, some c, some d => some (((a * 16 + b) * 16 + c) * 16 + d)
  | _, _, _, _ => none

/-- The rest after the quote that ends a text. A text that is passed over need be neither UTF-8 nor
free of surrogates that stand alone. -/
def skipText : Bytes → Except Break Bytes
  | [] => .error .truncated
  | b :: rest =>
    if b = 34 then .ok rest
    else if b = 92 then
      match rest with
      | [] => .error .truncated
      | e :: rest =>
        if e = byte 'u' then
          match rest with
          | a :: b :: c :: d :: rest =>
            if (hexNumber? a b c d).isSome then skipText rest else .error .malformed
          | _ => .error .truncated
        else if (escapes.lookup e).isSome then skipText rest
        else .error .malformed
    else if b < 32 then .error .malformed
    else skipText rest

/-- The bytes of a character, last first, before others. -/
def pushChar (code : Nat) (seen : Bytes) : Bytes :=
  (Utf8.encode (String.singleton (Char.ofNat code))).reverse ++ seen

/-- The bytes that a text stands for, up to the quote that ends it. `seen` are those before, last
first. A high surrogate must have a low one after it. -/
def unescape : Bytes → Bytes → Except Break Bytes
  | _, [] => .error .truncated
  | seen, b :: rest =>
    if b = 34 then .ok seen.reverse
    else if b = 92 then
      match rest with
      | [] => .error .truncated
      | e :: rest =>
        if e = byte 'u' then
          match rest with
          | a :: b :: c :: d :: rest =>
            match hexNumber? a b c d with
            | none => .error .malformed
            | some high =>
              if 0xdc00 ≤ high ∧ high ≤ 0xdfff then .error .malformed
              else if high < 0xd800 ∨ 0xdfff < high then unescape (pushChar high seen) rest
              else
                -- The other half of the pair has to be escaped as well.
                match rest with
                | [] => .error .truncated
                | s :: rest =>
                  if s ≠ 92 then .error .malformed
                  else
                    match rest with
                    | [] => .error .truncated
                    | u :: rest =>
                      if u ≠ byte 'u' then .error .malformed
                      else
                        match rest with
                        | a :: b :: c :: d :: rest =>
                          match hexNumber? a b c d with
                          | none => .error .malformed
                          | some low =>
                            if 0xdc00 ≤ low ∧ low ≤ 0xdfff then
                              unescape
                                (pushChar (0x10000 + (high - 0xd800) * 0x400 + (low - 0xdc00)) seen)
                                rest
                            else .error .malformed
                        | _ => .error .truncated
          | _ => .error .truncated
        else
          match escapes.lookup e with
          | some b => unescape (b :: seen) rest
          | none => .error .malformed
    else if b < 32 then .error .malformed
    else unescape (b :: seen) rest

def readText (b : Bytes) : Except Break String :=
  match unescape [] b with
  | .error e => .error e
  | .ok content => (Utf8.decode? content).elim (.error .malformed) .ok

theorem length_skipText {b rest : Bytes} (h : skipText b = .ok rest) : rest.length < b.length := by
  fun_induction skipText b <;> simp_all <;> omega

end Allegiance.Json
