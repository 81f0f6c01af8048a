import LoraRan.Bridge.Registry
import LoraRan.Protocol.IndexMap
import Mathlib.Data.List.FinRange

namespace LoraRan.Bridge
open Protocol
open Library.LittleEndian (u8At u16At)

-- The registry as the receive ladder sees it.
structure PeerKeys where
  keyFor : NodeId → Option NodeKey
  isRegistered : NodeId → Bool

structure RxDelivery where
  hdr : Header
  payload : Bytes
  fragments : UInt8
  macVerified : Bool
  fragChunk : UInt8

abbrev reassemblySlots : Nat := 8

structure ExpiredSet where
  src : NodeId
  seq : Seq

structure Slot where
  reassembler : Reassembler := {}
  src : NodeId := 0
  used : Bool := false
  lastMs : UInt32 := 0
  chunk : UInt8 := 0

structure RxLadder where
  counters : Counters := {}
  mac : Option Mac := none
  keys : Option PeerKeys := none
  slots : Fin reassemblySlots → Slot := fun _ => {}
  last : Status := .ok
  lastSrc : NodeId := 0
  lastSeq : Seq := 0
  lastVer : UInt8 := 0
  lastType : UInt8 := 0
  lastSchema : UInt8 := 0
  lastFrag : UInt8 := 0

def RxLadder.setAuth (l : RxLadder) (mac : Option Mac) (keys : Option PeerKeys) : RxLadder := {l with mac := mac,keys := keys}

def RxLadder.setFragTimeoutMs (l : RxLadder) (ms : UInt32) : RxLadder :=
  {l with slots := fun i => {l.slots i with reassembler := (l.slots i).reassembler.setTimeoutMs ms}}

def RxLadder.onPhyCrcError (l : RxLadder) : RxLadder :=
  {l with counters := {l.counters with rxFrames := l.counters.rxFrames + 1,rxCrcErr := l.counters.rxCrcErr + 1}}

def RxLadder.registered (l : RxLadder) (src : NodeId) : Bool :=
  match l.keys with
  | none => false
  | some keys => keys.isRegistered src

def RxLadder.keyFor (l : RxLadder) (src : NodeId) : Option NodeKey := l.keys.bind fun keys => keys.keyFor src

-- What the ladder remembers of the frame offered last. The version alone survives a frame too short to have a header.
def RxLadder.offered (l : RxLadder) (buf : Bytes) : RxLadder :=
  let l := {l with
    counters := {l.counters with rxFrames := l.counters.rxFrames + 1}
    lastSrc := 0
    lastSeq := 0
    lastType := 0
    lastSchema := 0
    lastFrag := 0}
  if hdrLen ≤ buf.length then
    {l with
      lastSrc := u8At buf 2
      lastSeq := u16At buf 4
      lastVer := u8At buf 0
      lastType := u8At buf 1
      lastFrag := u8At buf 10
      lastSchema := u8At buf 11}
  else l

def RxLadder.discard (l : RxLadder) (st : Status) : RxLadder := {l with last := st,counters := l.counters.bump st}

-- The slots passed over in a search: the first free one, the oldest without a live set and the oldest outright.
structure Candidates where
  free : Option (Fin reassemblySlots) := none
  idleLru : Option (Fin reassemblySlots) := none
  anyLru : Option (Fin reassemblySlots) := none

-- Ages are unsigned, so a clock that wraps does not make the oldest slot look newest.
def olderThan (slots : Fin reassemblySlots → Slot) (nowMs : UInt32) (i : Fin reassemblySlots) : Option (Fin reassemblySlots) → Bool
  | none => true
  | some j => decide (nowMs - (slots j).lastMs < nowMs - (slots i).lastMs)

def passOver (slots : Fin reassemblySlots → Slot) (nowMs : UInt32) (c : Candidates) (i : Fin reassemblySlots) : Candidates :=
  if !(slots i).used then if c.free.isNone then {c with free := some i} else c
  else
    let c := if olderThan slots nowMs i c.anyLru then {c with anyLru := some i} else c
    if !(slots i).reassembler.active ∧ olderThan slots nowMs i c.idleLru then {c with idleLru := some i} else c

-- `inl` is the peer's own slot.
def searchSlot (slots : Fin reassemblySlots → Slot) (src : NodeId) (nowMs : UInt32) :
    List (Fin reassemblySlots) → Candidates → Fin reassemblySlots ⊕ Candidates
  | [], c => .inr c
  | i :: rest, c =>
      if (slots i).used ∧ (slots i).src = src then .inl i
      else searchSlot slots src nowMs rest (passOver slots nowMs c i)

-- A reassigned slot forgets its previous peer, the retained key included.
def Slot.assign (s : Slot) (src : NodeId) (nowMs : UInt32) : Slot :=
  {s with reassembler := s.reassembler.reset.forgetCompleted,src := src,used := true,lastMs := nowMs}

-- The last choice displaces a live set and counts it. With every slot passed over one of the three is there.
def RxLadder.slotFor (l : RxLadder) (src : NodeId) (nowMs : UInt32) : Fin reassemblySlots × RxLadder :=
  match searchSlot l.slots src nowMs (List.finRange reassemblySlots) {} with
  | .inl i => (i,{l with slots := Function.update l.slots i {l.slots i with lastMs := nowMs}})
  | .inr c =>
      match c.free,c.idleLru with
      | some i,_ => (i,{l with slots := Function.update l.slots i ((l.slots i).assign src nowMs)})
      | none,some i => (i,{l with slots := Function.update l.slots i ((l.slots i).assign src nowMs)})
      | none,none =>
          let i := c.anyLru.getD 0
          (i,{l with slots := Function.update l.slots i ((l.slots i).assign src nowMs),counters := l.counters.bump .reassemblyAbandoned})

-- Stage 10 for a fragment, in the slot chosen for its sender.
def RxLadder.reassemble (l : RxLadder) (i : Fin reassemblySlots) (f : Frame) (nowMs : UInt32) : Option RxDelivery × RxLadder :=
  let slot := l.slots i
  let chunk := if !slot.reassembler.active ∨ slot.reassembler.key.seq ≠ f.hdr.seq then 0 else slot.chunk
  let (st,reassembler,counters) := slot.reassembler.accept l.counters f nowMs
  let chunk := if st = .ok ∧ chunk.toNat < f.payload.length then UInt8.ofNat f.payload.length else chunk
  let l := {l with
    last := st
    counters := counters
    slots := Function.update l.slots i {slot with reassembler := reassembler,chunk := chunk}}
  if st ≠ .ok ∨ !reassembler.complete then (none,l)
  else (some ⟨f.hdr,reassembler.out,f.hdr.fragTotal,f.macVerified,chunk⟩,l)

-- A single frame is delivered as it is, and no slot is chosen for it.
def RxLadder.admitted (l : RxLadder) (f : Frame) (nowMs : UInt32) : Option RxDelivery × RxLadder :=
  let l := {l with last := .ok}
  if f.hdr.fragTotal = 1 then (some ⟨f.hdr,f.payload,1,f.macVerified,0⟩,l)
  else
    let (i,l) := l.slotFor f.hdr.src nowMs
    l.reassemble i f nowMs

def ladderCtx : DecodeCtx := {self := nodeBridge,acceptVerMin := protoVer - 1,acceptVerMax := protoVer}

def RxLadder.accept (l : RxLadder) (buf : Bytes) (nowMs : UInt32) : Option RxDelivery × RxLadder :=
  let l := l.offered buf
  let (st,f) := decodeHeader buf ladderCtx
  if st ≠ .ok then (none,l.discard st)
  else
    let (st,f) := decodePayload buf {ladderCtx with mac := l.mac,nodeKey := l.keyFor f.hdr.src} f
    if st ≠ .ok then (none,l.discard st)
    else if frameHasMac f.hdr.type f.payload ∧ !f.macVerified then (none,l.discard .rejectedMac)
    else if !l.registered f.hdr.src then (none,l.discard .unknownSrc)
    else l.admitted f nowMs

def RxLadder.tickSlot (nowMs : UInt32) (s : RxLadder × List ExpiredSet) (i : Fin reassemblySlots) : RxLadder × List ExpiredSet :=
  let slot := s.1.slots i
  if !slot.used then s
  else
    let (r,counters) := slot.reassembler.tick s.1.counters nowMs
    ({s.1 with counters := counters,slots := Function.update s.1.slots i {slot with reassembler := r}},
     if slot.reassembler.active ∧ !r.active then s.2 ++ [⟨slot.reassembler.key.src,slot.reassembler.key.seq⟩] else s.2)

-- Every expired set is counted; the caller's buffer takes the first `cap` of them.
def RxLadder.tick (l : RxLadder) (nowMs : UInt32) (cap : Nat) : Nat × List ExpiredSet × RxLadder :=
  let (l,expired) := (List.finRange reassemblySlots).foldl (RxLadder.tickSlot nowMs) (l,[])
  (expired.length,expired.take cap,l)

def RxLadder.anySetActive (l : RxLadder) : Bool := (List.finRange reassemblySlots).any fun i => (l.slots i).used && (l.slots i).reassembler.active

end LoraRan.Bridge
