import Mathlib.Logic.Function.Basic
import Plex86.Logic.Bytes
import Plex86.Logic.Outcome
import Plex86.Machine.PageEntry

/-! `nexusVsnprintf`, with which the monitor formats what it prints. Memory is
checked: a program that reads the format past its null character, or writes
outside the buffer it was given, stops there. -/

namespace Plex86

open Logic

/-- A string as C has it: its null character is its last. -/
structure CString where
  chars : List Bit8u
  nonzero : ∀ char ∈ chars, char ≠ 0

/-- The string with the null character at its end. -/
def CString.bytes (text : CString) : List Bit8u := text.chars ++ [0]

/-- `va_list`: the words passed, and the strings a word may point to. -/
structure VaList where
  word : Nat → Bit32u
  string : Bit32u → CString

/-- Memory that is not the function's to access. -/
inductive Overrun
  | format | buffer
deriving DecidableEq

/-- Why formatting ends early: `goto error`, or an access out of bounds. -/
inductive PrintStop
  | error
  | overrun (memory : Overrun)
deriving DecidableEq

/-- The part of memory a caller gives: `str` and `size`. -/
structure PrintArea where
  start : Nat
  size : Bit32u

def PrintArea.Contains (area : PrintArea) (place : Nat) : Prop :=
  area.start ≤ place ∧ place < area.start + area.size.toNat

instance (area : PrintArea) (place : Nat) : Decidable (area.Contains place) :=
  inferInstanceAs (Decidable (_ ∧ _))

/-- Memory, and the variables of `nexusVsnprintf` that count. -/
structure Printing where
  buffer : Bytes
  str : Nat
  count : Bit32u := 0

abbrev Print := EStateM PrintStop Printing

def ascii (char : Char) : Bit8u := BitVec.ofNat 8 char.toNat

namespace Print

variable (area : PrintArea)

/-- `if ((count+2) >= size) goto error;` -/
def room : Print Unit := do
  let now ← get
  if now.count + 2 ≥ area.size then throw .error else pure ()

/-- `*str = char` -/
def store (char : Bit8u) : Print Unit := do
  let now ← get
  if area.Contains now.str then
    set { now with buffer := Function.update now.buffer now.str char }
  else throw (.overrun .buffer)

def counted : Print Unit := modify fun now => { now with count := now.count + 1 }

/-- Append a character where there is room. -/
def put (char : Bit8u) : Print Unit := do
  room area
  store area char
  modify fun now => { now with str := now.str + 1 }
  counted

/-- How a conversion takes its number apart, digit `j` weighing the base to the `j`. -/
structure Radix where
  places : Nat
  zero : Bit32u → Nat → Bool
  digit : Bit32u → Nat → Bit32u
  rest : Bit32u → Nat → Bit32u
  char : Bit32u → Bit8u

/-- Digit `j` of a number that only had zeros before is left out. -/
def skips (formatWidth : Bit32u) (zero : Bool) (j : Nat) : Bool :=
  (j != 0 && formatWidth == 0 && zero) ||
    (j != 0 && formatWidth != 0 && decide (BitVec.ofNat 32 (j + 1) > formatWidth) && zero)

/-- The loops over the digits, for digits below `places`. -/
def digits (radix : Radix) (formatWidth val : Bit32u) (leadin : Bool) : Nat → Print Unit
  | 0 => pure ()
  | j + 1 =>
      if leadin && skips formatWidth (radix.zero val j) j then
        digits radix formatWidth val leadin j
      else do
        put area (radix.char (radix.digit val j))
        digits radix formatWidth (radix.rest val j) false j

def decimalChar (digit : Bit32u) : Bit8u := digit.setWidth 8 + ascii '0'

def nibbleChar (nibble : Bit32u) : Bit8u :=
  if nibble ≤ 9 then nibble.setWidth 8 + ascii '0' else (nibble - 10).setWidth 8 + ascii 'A'

def hexadecimal : Radix where
  places := 8
  zero := fun val j => (val >>> (4 * j)) &&& 0x0f == 0
  digit := fun val j => (val >>> (4 * j)) &&& 0x0f
  rest := fun val _ => val
  char := nibbleChar

/-- `power_of_ten` -/
def powerOfTen : List Bit32u :=
  [1, 10, 100, 1000, 10000, 100000, 1000000, 10000000, 100000000, 1000000000]

def decimal : Radix where
  places := 10
  zero := fun val j => val < powerOfTen.getD j 0
  digit := fun val j => val / powerOfTen.getD j 0
  rest := fun val j => val - val / powerOfTen.getD j 0 * powerOfTen.getD j 0
  char := decimalChar

def binary : Radix where
  places := 32
  zero := fun val j => (val >>> j) &&& 1 == 0
  digit := fun val j => (val >>> j) &&& 1
  rest := fun val _ => val
  char := decimalChar

/-- `while (*s)` -/
def copied : List Bit8u → Print Unit
  | [] => pure ()
  | char :: rest => do
      put area char
      copied rest

/-- The conversions after the format width; each takes one argument. -/
def convert (formatWidth : Bit32u) (c : Bit8u) (args : VaList) (val : Bit32u) : Print Unit :=
  if c = ascii 'x' then digits area hexadecimal formatWidth val true hexadecimal.places
  else if c = ascii 'c' then put area (val.setWidth 8)
  else if c = ascii 's' then do
    room area
    counted
    copied area (args.string val).chars
  else if c = ascii 'u' then digits area decimal formatWidth val true decimal.places
  else if c = ascii 'b' then digits area binary formatWidth val true binary.places
  else throw .error -- Error, unrecognized format char

mutual

/-- `while (*fmt)`, when `taken` arguments have been taken. -/
def formatted (args : VaList) (taken : Nat) : List Bit8u → Print Unit
  | [] => throw (.overrun .format)
  | char :: fmt =>
      if char = 0 then pure ()
      else if char = ascii '%' then converted args taken 0 fmt
      else do
        put area char -- pass char through
        formatted args taken fmt

/-- `c = *fmt++`, in a conversion with the format width so far. -/
def converted (args : VaList) (taken : Nat) (formatWidth : Bit32u) : List Bit8u → Print Unit
  | [] => throw (.overrun .format)
  | c :: fmt =>
      if ascii '0' ≤ c ∧ c ≤ ascii '9' then
        converted args taken (formatWidth * 10 + (c - ascii '0').setWidth 32) fmt
      else do
        convert area formatWidth c args (args.word taken)
        formatted args (taken + 1) fmt

end

/-- Format, and complete the string with its null character. -/
def completed (fmt : CString) (args : VaList) : Print Bit32u := do
  formatted area args 0 fmt.bytes
  store area 0
  let now ← get
  pure now.count

end Print

/-- The memory and the pointer `nexusVsnprintf` leaves, with what it returns. -/
def nexusVsnprintf (buffer : Bytes) (area : PrintArea) (fmt : CString) (args : VaList) :
    Except Overrun (Bit32u × Printing) :=
  match Print.completed area fmt args { buffer, str := area.start } with
  | .ok ret now => .ok (ret, now)
  | .error .error now => .ok (-1, now)
  | .error (.overrun memory) _ => .error memory

end Plex86
