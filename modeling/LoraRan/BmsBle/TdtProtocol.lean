import LoraRan.Library.LittleEndian

namespace LoraRan.BmsBle
open Library.LittleEndian

def responseHead : UInt8 := 0x7E
def terminator : UInt8 := 0x0D

def headerLen : Nat := 8
def trailerLen : Nat := 3
def maxPayloadLen : Nat := 255
def maxFrameLen : Nat := headerLen + maxPayloadLen + trailerLen

def offsetCmd : Nat := 5
def offsetPayloadLen : Nat := 7

def partialFrameTimeoutMs : Int := 1000

def cmdCellsPack : UInt8 := 0x8C

-- Big-endian, unlike the LRAN frames.
def be16 (p : Bytes) (at_ : Nat) : UInt16 := ((u8At p at_).toUInt16 <<< 8) ||| (u8At p (at_ + 1)).toUInt16

def modbusShift (crc : UInt16) : UInt16 := if crc &&& 1 ≠ 0 then (crc >>> 1) ^^^ 0xA001 else crc >>> 1

def modbusByte (crc : UInt16) (b : UInt8) : UInt16 := Nat.repeat modbusShift 8 (crc ^^^ b.toUInt16)

def crc16Modbus (data : Bytes) : UInt16 := data.foldl modbusByte 0xFFFF

-- A validated response. The payload stands for the pointer and its length.
structure TdtFrame where
  cmd : UInt8 := 0
  payload : Bytes := []
  deriving DecidableEq

inductive FeedStatus where
  | incomplete | complete | crcError | badTerminator
  deriving DecidableEq, Repr

-- `buf` is what the array holds up to `len_`. The discarded count is a size, so it is the number itself.
structure FrameReassembler where
  buf : Bytes := []
  discarded : Nat := 0
  startedMs : UInt32 := 0
  timing : Bool := false
  frame : TdtFrame := {}
  deriving DecidableEq

namespace FrameReassembler

def reset (r : FrameReassembler) : FrameReassembler := {r with buf := [],timing := false,startedMs := 0,frame := {}}

def drop (r : FrameReassembler) (total : Nat) : FrameReassembler := {r with buf := [],discarded := r.discarded + total,timing := false}

-- What a held header announces in whole.
def frameTotal (buf : Bytes) : Nat := headerLen + (u8At buf offsetPayloadLen).toNat + trailerLen

-- The terminator first: a wrong last byte means the length byte lied.
def validate (r : FrameReassembler) (total : Nat) : FeedStatus × FrameReassembler :=
  let body := total - trailerLen
  if u8At r.buf (total - 1) ≠ terminator then (.badTerminator,r.drop total)
  else if crc16Modbus (r.buf.take body) ≠ be16 r.buf body then (.crcError,r.drop total)
  else (.complete,
    {r with
      buf := []
      timing := false
      frame := ⟨u8At r.buf offsetCmd,(r.buf.drop headerLen).take (u8At r.buf offsetPayloadLen).toNat⟩})

-- One turn of the loop. Once a frame has begun its bytes are counted and no head is looked for.
def take (r : FrameReassembler) (b : UInt8) : FeedStatus × FrameReassembler :=
  if r.buf = [] ∧ b ≠ responseHead then (.incomplete,{r with discarded := r.discarded + 1})
  else
    let r := {r with buf := r.buf ++ [b]}
    if r.buf.length < headerLen then (.incomplete,r)
    else if r.buf.length < frameTotal r.buf then (.incomplete,r)
    else r.validate (frameTotal r.buf)

-- How far into the data it got, to a frame's end at most.
def feed (r : FrameReassembler) : Bytes → FeedStatus × Nat × FrameReassembler
  | [] => (.incomplete,0,r)
  | b :: rest =>
      let (status,r) := r.take b
      if status ≠ .incomplete then (status,1,r)
      else
        let (status,consumed,r) := r.feed rest
        (status,consumed + 1,r)

-- The same, with the time a partial frame's first byte landed.
def feedAt (r : FrameReassembler) (data : Bytes) (nowMs : UInt32) : FeedStatus × Nat × FrameReassembler :=
  let wasEmpty := r.buf.isEmpty
  let (status,consumed,r) := r.feed data
  (status,consumed,if r.buf ≠ [] ∧ (wasEmpty || !r.timing) = true then {r with startedMs := nowMs,timing := true} else r)

def tick (r : FrameReassembler) (nowMs : UInt32) : FrameReassembler :=
  if r.buf = [] ∨ r.timing = false then r
  else if partialFrameTimeoutMs ≤ (nowMs - r.startedMs).toInt32.toInt then r.drop r.buf.length
  else r

end FrameReassembler

end LoraRan.BmsBle
