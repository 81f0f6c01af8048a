import LoraRan.VeDirect.Hex

namespace LoraRan.VeDirect
open Protocol

def labelChars : Nat := 15
def valueChars : Nat := 32
def maxFields : Nat := 24

def tab : UInt8 := 0x09
def lineFeed : UInt8 := 0x0A
def carriageReturn : UInt8 := 0x0D

-- The characters of a record, without the terminators.
structure TextField where
  label : Bytes := []
  value : Bytes := []
  deriving DecidableEq

inductive TextEvent where
  | none | block | dropped | hexLine
  deriving DecidableEq, Repr

inductive TextDrop where
  | none | badChecksum | unsynced | interrupted | overflow | hexTooLong
  deriving DecidableEq, Repr

structure TextCounters where
  blocks : UInt32 := 0
  badChecksum : UInt32 := 0
  unsynced : UInt32 := 0
  interrupted : UInt32 := 0
  overflow : UInt32 := 0
  hexLines : UInt32 := 0
  hexTooLong : UInt32 := 0
  deriving DecidableEq

inductive TextState where
  | idle | recordBegin | label | value | checksum | hex
  deriving DecidableEq, Repr

-- `scratch` is the block being read and `block` the last one delivered. `resume` is where a HEX line returns to.
structure TextParser where
  state : TextState := .idle
  resume : TextState := .idle
  checksum : UInt8 := 0
  synced : Bool := false
  started : Bool := false
  interrupted : Bool := false
  overflow : Bool := false
  fieldLong : Bool := false
  field : TextField := {}
  scratch : List TextField := []
  block : List TextField := []
  hex : Bytes := []
  hexLong : Bool := false
  lastDrop : TextDrop := .none
  counters : TextCounters := {}
  deriving DecidableEq

def checksumLabel : Bytes := [0x43,0x68,0x65,0x63,0x6B,0x73,0x75,0x6D]

-- What strcmp() sees of a character array.
def cString (chars : Bytes) : Bytes := chars.takeWhile (· ≠ 0)

def TextParser.endRecord (p : TextParser) : TextParser :=
  if p.fieldLong ∨ p.scratch.length = maxFields then {p with overflow := true} else {p with scratch := p.scratch ++ [p.field]}

def TextParser.blockDrop (p : TextParser) : TextDrop :=
  if p.checksum = 0 then (if p.overflow then .overflow else .none)
  else if !p.synced then .unsynced
  else if p.interrupted then .interrupted
  else .badChecksum

def TextParser.endBlock (p : TextParser) : TextEvent × TextParser :=
  let drop := p.blockDrop
  let p := match drop with
    | .none => {p with block := p.scratch,counters := {p.counters with blocks := p.counters.blocks + 1}}
    | .overflow => {p with counters := {p.counters with overflow := p.counters.overflow + 1}}
    | .unsynced => {p with counters := {p.counters with unsynced := p.counters.unsynced + 1}}
    | .interrupted => {p with counters := {p.counters with interrupted := p.counters.interrupted + 1}}
    | .badChecksum => {p with counters := {p.counters with badChecksum := p.counters.badChecksum + 1}}
    | .hexTooLong => p
  (if drop = .none then .block else .dropped,
    {p with
      lastDrop := drop
      scratch := []
      checksum := 0
      synced := true
      started := false
      interrupted := false
      overflow := false
      state := .idle})

def TextParser.endHex (p : TextParser) : TextEvent × TextParser :=
  if p.hexLong then
    (.dropped,{p with counters := {p.counters with hexTooLong := p.counters.hexTooLong + 1},lastDrop := .hexTooLong,hex := []})
  else (.hexLine,{p with counters := {p.counters with hexLines := p.counters.hexLines + 1}})

def TextParser.feedHex (p : TextParser) (b : UInt8) : TextEvent × TextParser :=
  if b = lineFeed then TextParser.endHex {p with state := p.resume}
  else if b = carriageReturn then (.none,p)
  else if p.hex.length < maxChars then (.none,{p with hex := p.hex ++ [b]})
  else (.none,{p with hexLong := true})

def TextParser.feedLabel (p : TextParser) (b : UInt8) : TextParser :=
  if b = tab then
    if !p.fieldLong ∧ cString p.field.label = checksumLabel then {p with state := .checksum} else {p with state := .value}
  else if p.field.label.length < labelChars then {p with field := {p.field with label := p.field.label ++ [b]}}
  else {p with fieldLong := true}

def TextParser.feedValue (p : TextParser) (b : UInt8) : TextParser :=
  if b = lineFeed then {p.endRecord with state := .recordBegin}
  else if b = carriageReturn then p
  else if p.field.value.length < valueChars then {p with field := {p.field with value := p.field.value ++ [b]}}
  else {p with fieldLong := true}

-- A byte outside every HEX line.
def TextParser.feedText (p : TextParser) (b : UInt8) : TextEvent × TextParser :=
  let p := {p with checksum := p.checksum + b,started := true}
  match p.state with
  | .idle => (.none,if b = lineFeed then {p with state := .recordBegin} else p)
  | .recordBegin => (.none,TextParser.feedLabel {p with field := {},fieldLong := false,state := .label} b)
  | .label => (.none,p.feedLabel b)
  | .value => (.none,p.feedValue b)
  | .checksum => p.endBlock
  | .hex => (.none,p)

def TextParser.beginHex (p : TextParser) : TextParser :=
  {p with resume := p.state,interrupted := p.interrupted || p.started,state := .hex,hex := [],hexLong := false}

-- The checksum byte may be ':' itself, so only a ':' outside it starts a HEX line.
def TextParser.feed (p : TextParser) (b : UInt8) : TextEvent × TextParser :=
  let p := if b = colon ∧ p.state ≠ .checksum ∧ p.state ≠ .hex then p.beginHex else p
  if p.state = .hex then p.feedHex b else p.feedText b

def TextParser.feedAll (p : TextParser) (bytes : Bytes) : TextParser := bytes.foldl (fun p b => (p.feed b).2) p

-- A completed line or block, with what the accessors hold at that moment.
inductive Report where
  | block (fields : List TextField)
  | hexLine (line : Bytes)
  | dropped (why : TextDrop)
  deriving DecidableEq

def TextParser.reported (p : TextParser) : TextEvent → Option Report
  | .none => none
  | .block => some (.block p.block)
  | .dropped => some (.dropped p.lastDrop)
  | .hexLine => some (.hexLine p.hex)

def TextParser.reports : TextParser → Bytes → List Report
  | _, [] => []
  | p, b :: rest => ((p.feed b).2.reported (p.feed b).1).toList ++ (p.feed b).2.reports rest

end LoraRan.VeDirect
