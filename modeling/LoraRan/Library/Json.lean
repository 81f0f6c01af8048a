import LoraRan.Library.DecimalText
import LoraRan.Library.LittleEndian

namespace LoraRan.Library.Json
open LittleEndian (Bytes)
open DecimalText

-- JSON text as bytes. A string and a number are kept as they are written.
inductive Doc where
  | null
  | bool (b : Bool)
  | num (text : Bytes)
  | str (text : Bytes)
  | arr (items : List Doc)
  | obj (members : List (Bytes × Doc))

def quote : UInt8 := 0x22
def backslash : UInt8 := 0x5C
def comma : UInt8 := 0x2C
def colon : UInt8 := 0x3A

-- UTF-8, a byte at a time: between characters, `more+1` plain continuation bytes short, or after a lead that narrows the next byte.
inductive Utf8 where
  | start
  | tail (more : Nat)
  | afterE0 | afterED | afterF0 | afterF4
  deriving DecidableEq, Repr

def Utf8.lead (b : UInt8) : Option Utf8 :=
  if b < 0x80 then some .start
  else if b < 0xC2 then none
  else if b < 0xE0 then some (.tail 0)
  else if b = 0xE0 then some .afterE0
  else if b = 0xED then some .afterED
  else if b < 0xF0 then some (.tail 1)
  else if b = 0xF0 then some .afterF0
  else if b < 0xF4 then some (.tail 2)
  else if b = 0xF4 then some .afterF4
  else none

def Utf8.within (low high b : UInt8) (next : Utf8) : Option Utf8 := if low ≤ b ∧ b ≤ high then some next else none

def Utf8.step : Utf8 → UInt8 → Option Utf8
  | .start, b => lead b
  | .tail 0, b => within 0x80 0xBF b .start
  | .tail (more+1), b => within 0x80 0xBF b (.tail more)
  | .afterE0, b => within 0xA0 0xBF b (.tail 0)
  | .afterED, b => within 0x80 0x9F b (.tail 0)
  | .afterF0, b => within 0x90 0xBF b (.tail 1)
  | .afterF4, b => within 0x80 0x8F b (.tail 1)

def Utf8.run : Utf8 → Bytes → Option Utf8
  | s, [] => some s
  | s, b :: rest => (s.step b).bind fun s => run s rest

-- Text that stands in a string as it is.
structure Printable (text : Bytes) : Prop where
  shown : ∀ b ∈ text, 0x20 ≤ b
  utf8 : Utf8.run .start text = some .start

instance (text : Bytes) : Decidable (Printable text) :=
  decidable_of_iff (text.all (fun b => 0x20 ≤ b) = true ∧ Utf8.run .start text = some .start)
    ⟨fun h => ⟨by simpa using h.1,h.2⟩,fun h => ⟨by simpa using h.shown,h.utf8⟩⟩

def hexDigit (b : UInt8) : Bool := isDigit b || (0x41 ≤ b && b ≤ 0x46) || (0x61 ≤ b && b ≤ 0x66)

inductive StrState where
  | char (s : Utf8)
  | escaped
  | hex (more : Nat)
  deriving DecidableEq, Repr

def StrState.step : StrState → UInt8 → Option StrState
  | .char s, b =>
      if s = .start ∧ b = backslash then some .escaped
      else if b < 0x20 then none
      else (s.step b).map .char
  | .escaped, b =>
      if b = 0x75 then some (.hex 3)
      else if b ∈ [quote,backslash,0x2F,0x62,0x66,0x6E,0x72,0x74] then some (.char .start)
      else none
  | .hex 0, b => if hexDigit b then some (.char .start) else none
  | .hex (more+1), b => if hexDigit b then some (.hex more) else none

-- A string's text up to its closing quote, and what follows.
def string : StrState → Bytes → Option (Bytes × Bytes)
  | _, [] => none
  | s, b :: rest =>
      if s = .char .start ∧ b = quote then some ([],rest)
      else (s.step b).bind fun s => (string s rest).map fun r => (b :: r.1,r.2)

inductive NumState where
  | start | minus | zero | int | point | frac | exp | expSign | expDigits
  deriving DecidableEq, Repr

def NumState.done : NumState → Bool
  | .zero | .int | .frac | .expDigits => true
  | _ => false

def NumState.step (s : NumState) (b : UInt8) : Option NumState :=
  if isDigit b then
    match s with
    | .start | .minus => some (if b = 0x30 then .zero else .int)
    | .zero => none
    | .int => some .int
    | .point | .frac => some .frac
    | .exp | .expSign | .expDigits => some .expDigits
  else if b = 0x2D then
    match s with
    | .start => some .minus
    | .exp => some .expSign
    | _ => none
  else if b = 0x2B then if s = .exp then some .expSign else none
  else if b = 0x2E then if s = .zero ∨ s = .int then some .point else none
  else if b = 0x65 ∨ b = 0x45 then if s = .zero ∨ s = .int ∨ s = .frac then some .exp else none
  else none

def number : NumState → Bytes → Option (Bytes × Bytes)
  | s, [] => if s.done then some ([],[]) else none
  | s, b :: rest =>
      match s.step b with
      | some s => (number s rest).map fun r => (b :: r.1,r.2)
      | none => if s.done then some ([],b :: rest) else none

def blank (b : UInt8) : Bool := b == 0x20 || b == 0x09 || b == 0x0A || b == 0x0D

def skip : Bytes → Bytes := List.dropWhile blank

def expect (b : UInt8) (text : Bytes) : Option Bytes :=
  match skip text with
  | c :: rest => if c = b then some rest else none
  | [] => none

section
variable {α : Type} (item : Bytes → Option (α × Bytes)) (close : UInt8)

def itemsFrom : Nat → Bytes → Option (List α × Bytes)
  | 0, _ => none
  | n+1, text =>
      (item text).bind fun first =>
        match skip first.2 with
        | [] => none
        | b :: rest =>
            if b = comma then (itemsFrom n rest).map fun later => (first.1 :: later.1,later.2)
            else if b = close then some ([first.1],rest)
            else none

-- Items between their brackets, the opening one read.
def items (text : Bytes) : Option (List α × Bytes) :=
  match skip text with
  | [] => none
  | b :: rest => if b = close then some ([],rest) else itemsFrom item close text.length text

end

def member (read : Bytes → Option (Doc × Bytes)) (text : Bytes) : Option ((Bytes × Doc) × Bytes) :=
  (expect quote text).bind fun rest => (string (.char .start) rest).bind fun key =>
    (expect colon key.2).bind fun rest => (read rest).map fun value => ((key.1,value.1),value.2)

def literal (word : Bytes) (d : Doc) (text : Bytes) : Option (Doc × Bytes) :=
  if text.take word.length = word then some (d,text.drop word.length) else none

-- One value, nested no deeper than the fuel.
def value : Nat → Bytes → Option (Doc × Bytes)
  | 0, _ => none
  | fuel+1, text =>
      match skip text with
      | [] => none
      | b :: rest =>
          if b = 0x7B then (items (member (value fuel)) 0x7D rest).map fun r => (.obj r.1,r.2)
          else if b = 0x5B then (items (value fuel) 0x5D rest).map fun r => (.arr r.1,r.2)
          else if b = quote then (string (.char .start) rest).map fun r => (.str r.1,r.2)
          else if b = 0x6E then literal [0x6E,0x75,0x6C,0x6C] .null (b :: rest)
          else if b = 0x74 then literal [0x74,0x72,0x75,0x65] (.bool true) (b :: rest)
          else if b = 0x66 then literal [0x66,0x61,0x6C,0x73,0x65] (.bool false) (b :: rest)
          else (number .start (b :: rest)).map fun r => (.num r.1,r.2)

-- A whole text: one value and nothing after it.
def parse (text : Bytes) : Option Doc :=
  match value (text.length + 1) text with
  | some (d,rest) => if skip rest = [] then some d else none
  | none => none

end LoraRan.Library.Json
