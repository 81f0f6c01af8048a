import LoraRan.Bridge.ConfigStore
import LoraRan.Library.JsonLocal

namespace LoraRan.Bridge.ConfigJson
open Protocol Config
open Library.Json (quote backslash blank)
open Library.DecimalText (isDigit)

def kMaxParamNameLen : Nat := 40

-- What is left of the payload. One past its end is at its end: everything asks for the end before it looks.
abbrev Cursor := Bytes

namespace Reader

-- A look at the end finds no byte. A loop that has had its turns has no answer either.
def look : Cursor → Option UInt8
  | [] => none
  | b :: _ => some b

def lookAll (n : Nat) (r : Cursor) : Option Bytes := if r.length < n then none else some (r.take n)

def skipSpace : Nat → Cursor → Option Cursor
  | 0, _ => none
  | n+1, r =>
      if r.isEmpty then some r
      else (look r).bind fun b => if blank b then skipSpace n r.tail else some r

def take (n : Nat) (c : UInt8) (r : Cursor) : Option (Bool × Cursor) :=
  (skipSpace n r).bind fun r =>
    if r.isEmpty then some (false,r)
    else (look r).bind fun b => some (if b = c then (true,r.tail) else (false,r))

def stringChars (cap : Nat) : Nat → Bytes → Cursor → Option (Option (Bytes × Cursor))
  | 0, _, _ => none
  | n+1, out, r =>
      if r.isEmpty then some none
      else (look r).bind fun b =>
        if b = quote then some (some (out,r.tail))
        else if b = backslash then some none
        else if cap ≤ out.length + 1 then some none
        else stringChars cap n (out ++ [b]) r.tail

def string (n cap : Nat) (r : Cursor) : Option (Option (Bytes × Cursor)) :=
  (skipSpace n r).bind fun r =>
    if r.isEmpty then some none
    else (look r).bind fun b => if b = quote then stringChars cap n [] r.tail else some none

def skipText : Nat → Cursor → Option Cursor
  | 0, _ => none
  | n+1, r =>
      if r.isEmpty then some r
      else (look r).bind fun b =>
        if b = quote then some r
        else if b = backslash then skipText n r.tail.tail
        else skipText n r.tail

def skipNested (opening closing : UInt8) : Nat → Int → Cursor → Option (Option Cursor)
  | 0, _, _ => none
  | n+1, depth, r =>
      if r.isEmpty then some none
      else (look r).bind fun b =>
        if b = quote then
          (skipText n r.tail).bind fun r => if r.isEmpty then some none else skipNested opening closing n depth r.tail
        else if b = opening then skipNested opening closing n (depth + 1) r.tail
        else if b = closing then
          if depth - 1 = 0 then some (some r.tail) else skipNested opening closing n (depth - 1) r.tail
        else skipNested opening closing n depth r.tail

-- What ends a bare word.
def endsBare (b : UInt8) : Bool := b == Library.Json.comma || b == 0x7D || b == 0x5D

def skipBare : Nat → Cursor → Option Cursor
  | 0, _ => none
  | n+1, r =>
      if r.isEmpty then some r
      else (look r).bind fun b => if endsBare b then some r else skipBare n r.tail

def skipValue (n : Nat) (r : Cursor) : Option (Option Cursor) :=
  (skipSpace n r).bind fun r =>
    if r.isEmpty then some none
    else (look r).bind fun b =>
      if b = quote then (skipText n r.tail).map fun r => if r.isEmpty then none else some r.tail
      else if b = 0x7B ∨ b = 0x5B then skipNested b (if b = 0x7B then 0x7D else 0x5D) n 0 r
      else (skipBare n r).map some

def literal (word : Bytes) (r : Cursor) : Option (Bool × Cursor) :=
  if r.length < word.length then some (false,r)
  else (lookAll word.length r).map fun front => if front = word then (true,r.drop word.length) else (false,r)

def trueWord : Bytes := [0x74,0x72,0x75,0x65]
def falseWord : Bytes := [0x66,0x61,0x6C,0x73,0x65]

def sign (r : Cursor) : Option (Bool × Cursor) :=
  if r.isEmpty then some (false,r)
  else (look r).map fun b => if b = 0x2D ∨ b = 0x2B then (b == 0x2D,r.tail) else (false,r)

-- Past anything an int32 holds, of either sign.
def valueLimit : Nat := 4294967296

def digits : Nat → Nat → Cursor → Option (Option (Nat × Cursor))
  | 0, _, _ => none
  | n+1, v, r =>
      if r.isEmpty then some (some (v,r))
      else (look r).bind fun b =>
        if !isDigit b then some (some (v,r))
        else if valueLimit < v * 10 + (b.toNat - 0x30) then some none
        else digits n (v * 10 + (b.toNat - 0x30)) r.tail

def floats (r : Cursor) : Option Bool :=
  if r.isEmpty then some false else (look r).map fun b => b == 0x2E || b == 0x65 || b == 0x45

def signed (negative : Bool) (v : Nat) : Int := if negative then -(v : Int) else v

def inRange (v : Int) : Bool := -2147483648 ≤ v && v ≤ 2147483647

-- An integer, true or false. Anything else leaves the cursor at the value's start.
def value (n : Nat) (r : Cursor) : Option (Option Value × Cursor) :=
  (skipSpace n r).bind fun start =>
    (literal trueWord start).bind fun yes =>
      if yes.1 then some (some 1,yes.2)
      else (literal falseWord start).bind fun no =>
        if no.1 then some (some 0,no.2)
        else (sign start).bind fun s =>
          if s.2.isEmpty then some (none,start)
          else (look s.2).bind fun b =>
            if !isDigit b then some (none,start)
            else (digits n 0 s.2).bind fun read =>
              match read with
              | none => some (none,start)
              | some (v,r) => (floats r).map fun float =>
                  if float || !inRange (signed s.1 v) then (none,start) else (some (Int32.ofInt (signed s.1 v)),r)

end Reader

def kNotObject : String := "payload is not a JSON object"
def kNoKey : String := "object carries neither \x60set\x60 nor \x60op\x60"
def kBothKeys : String := "object carries both \x60set\x60 and \x60op\x60"
def kBadOp : String := "\x60op\x60 is not \x60get_all\x60 or \x60restore_defaults\x60"
def kBadSet : String := "\x60set\x60 is not an object of name/value pairs"
def kTooMany : String := "\x60set\x60 names more parameters than the bridge accepts"
def kEmptySet : String := "\x60set\x60 names no parameters"
def kDuplicate : String := "object carries the same key twice"

-- What a comparison of C strings sees of a text.
def cString (text : Bytes) : Bytes := text.takeWhile fun b => b != 0

def opKey : Bytes := "op".toUTF8.toList
def setKey : Bytes := "set".toUTF8.toList
def getAllWord : Bytes := "get_all".toUTF8.toList
def restoreDefaultsWord : Bytes := "restore_defaults".toUTF8.toList

-- One name and its value. A value that cannot be read is passed over and kept as unreadable.
def entry (n : Nat) (r : Cursor) : Option (Option (ConfigSetEntry × Cursor)) :=
  (Reader.string n kMaxParamNameLen r).bind fun named =>
    match named with
    | none => some none
    | some (name,r) =>
        (Reader.take n Library.Json.colon r).bind fun parted =>
          if !parted.1 then some none
          else (Reader.value n parted.2).bind fun read =>
            match read.1 with
            | some v => some (some (⟨cString name,some v⟩,read.2))
            | none => (Reader.skipValue n read.2).map fun passed => passed.map fun r => (⟨cString name,none⟩,r)

def setEntries (n : Nat) : Nat → List ConfigSetEntry → Cursor → Option (Except String (List ConfigSetEntry × Cursor))
  | 0, _, _ => none
  | turns+1, entries, r =>
      if maxConfigSetEntries ≤ entries.length then some (.error kTooMany)
      else (entry n r).bind fun read =>
        match read with
        | none => some (.error kBadSet)
        | some (e,r) =>
            (Reader.take n Library.Json.comma r).bind fun more =>
              if more.1 then setEntries n turns (entries ++ [e]) more.2
              else (Reader.take n 0x7D more.2).map fun closed =>
                if closed.1 then .ok (entries ++ [e],closed.2) else .error kBadSet

def setObject (n : Nat) (r : Cursor) : Option (Except String (List ConfigSetEntry × Cursor)) :=
  (Reader.take n 0x7B r).bind fun opened =>
    if !opened.1 then some (.error kBadSet)
    else (Reader.take n 0x7D opened.2).bind fun closed =>
      if closed.1 then some (.error kEmptySet) else setEntries n n [] closed.2

def opWord (n : Nat) (r : Cursor) : Option (Except String (UInt8 × Cursor)) :=
  (Reader.string n kMaxParamNameLen r).map fun read =>
    match read with
    | none => .error kBadOp
    | some (word,r) =>
        if cString word = getAllWord then .ok (configOpGetAll,r)
        else if cString word = restoreDefaultsWord then .ok (configOpRestoreDefaults,r)
        else .error kBadOp

structure Parsed where
  haveSet : Bool := false
  haveOp : Bool := false
  out : ConfigSetRequest := {}

-- The value under a key.
def memberValue (n : Nat) (key : Bytes) (p : Parsed) (r : Cursor) : Option (Except String (Parsed × Cursor)) :=
  if cString key = opKey then
    if p.haveOp then some (.error kDuplicate)
    else if p.haveSet then some (.error kBothKeys)
    else (opWord n r).map fun read => read.map fun w => ({p with haveOp := true,out := {p.out with op := w.1}},w.2)
  else if cString key = setKey then
    if p.haveSet then some (.error kDuplicate)
    else if p.haveOp then some (.error kBothKeys)
    else (setObject n r).map fun read =>
      read.map fun s => ({p with haveSet := true,out := {op := configOpSet,entries := p.out.entries ++ s.1}},s.2)
  else some (.error kNoKey)

def members (n : Nat) : Nat → Parsed → Cursor → Option (Except String (Parsed × Cursor))
  | 0, _, _ => none
  | turns+1, p, r =>
      (Reader.string n kMaxParamNameLen r).bind fun named =>
        match named with
        | none => some (.error kNotObject)
        | some (key,r) =>
            (Reader.take n Library.Json.colon r).bind fun parted =>
              if !parted.1 then some (.error kNotObject)
              else (memberValue n key p parted.2).bind fun read =>
                match read with
                | .error e => some (.error e)
                | .ok (p,r) =>
                    (Reader.take n Library.Json.comma r).bind fun more =>
                      if more.1 then members n turns p more.2
                      else (Reader.take n 0x7D more.2).map fun closed => if closed.1 then .ok (p,closed.2) else .error kNotObject

-- Behind the object: nothing but space, and exactly one of the two keys.
def conclude (n : Nat) (p : Parsed) (r : Cursor) : Option (Except String ConfigSetRequest) :=
  (Reader.skipSpace n r).map fun r =>
    if !r.isEmpty then .error kNotObject
    else if p.haveSet = p.haveOp then .error (if p.haveSet then kBothKeys else kNoKey)
    else .ok p.out

-- Every loop has a turn for each byte and one more.
def parseConfigSet (payload : Bytes) : Option (Except String ConfigSetRequest) :=
  let n := payload.length + 1
  if payload.length = 0 then some (.error kNotObject)
  else (Reader.take n 0x7B payload).bind fun opened =>
    if !opened.1 then some (.error kNotObject)
    else (Reader.take n 0x7D opened.2).bind fun closed =>
      if closed.1 then conclude n {} closed.2
      else (members n n {} closed.2).bind fun read =>
        match read with
        | .error e => some (.error e)
        | .ok (p,r) => conclude n p r

end LoraRan.Bridge.ConfigJson
