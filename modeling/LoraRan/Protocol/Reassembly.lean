import LoraRan.Library.Staging
import LoraRan.Protocol.Counters
import LoraRan.Protocol.Wire

namespace LoraRan.Protocol
open Library.Staging

def defaultFragTimeoutMs : UInt32 := 5000

-- What makes two fragments of one set. The type is part of it: sets of different types are capped differently.
structure SetKey where
  src : NodeId := 0
  ctxId : CtxId := 0
  seq : Seq := 0
  schema : SchemaId := 0
  type : MsgType := .poll
  deriving DecidableEq

def Frame.setKey (f : Frame) : SetKey := ⟨f.hdr.src,f.hdr.ctxId,f.hdr.seq,f.hdr.schema,f.hdr.type⟩

-- One live set at a time. `stage` holds fragments in arrival order, dead copies included, so its length is the
-- source's stage_used_. `out` is the delivery buffer and outlives the slot it was assembled in.
structure Reassembler where
  timeoutMs : UInt32 := defaultFragTimeoutMs
  active : Bool := false
  complete : Bool := false
  startMs : UInt32 := 0
  key : SetKey := {}
  total : UInt8 := 0
  got : Nat → Bool := fun _ => false
  stage : Bytes := []
  setLen : Nat := 0
  fragOff : Nat → Nat := fun _ => 0
  fragLen : Nat → Nat := fun _ => 0
  out : Bytes := []
  last : Option SetKey := none

def Reassembler.setTimeoutMs (r : Reassembler) (ms : UInt32) : Reassembler := {r with timeoutMs := ms}

-- The retained key of the last completed set survives.
def Reassembler.reset (r : Reassembler) : Reassembler :=
  {r with active := false,complete := false,got := fun _ => false,stage := [],setLen := 0,out := [],total := 0}

def Reassembler.forgetCompleted (r : Reassembler) : Reassembler := {r with last := none}

def Reassembler.sameSet (r : Reassembler) (f : Frame) : Bool := f.setKey == r.key

def Reassembler.sameCompleted (r : Reassembler) (f : Frame) : Bool := r.last == some f.setKey

def Reassembler.begin (r : Reassembler) (f : Frame) (nowMs : UInt32) : Reassembler :=
  {r.reset with active := true,startMs := nowMs,key := f.setKey,total := f.hdr.fragTotal}

def Reassembler.piece (r : Reassembler) (i : Nat) : Bytes := window r.stage (r.fragOff i) (r.fragLen i)

def Reassembler.assemble (r : Reassembler) : Reassembler :=
  {r with
    out := (List.range r.total.toNat).flatMap r.piece
    complete := true
    active := false
    last := some r.key}

-- The difference is unsigned: a clock that wraps does not bring an expired set back.
def Reassembler.tick (r : Reassembler) (counters : Counters) (nowMs : UInt32) : Reassembler × Counters :=
  if r.active ∧ r.timeoutMs ≤ nowMs - r.startMs then (r.reset,counters.bump .reassemblyTimeout) else (r,counters)

-- A single frame is delivered as it is and leaves the slot alone.
def Reassembler.acceptSingle (r : Reassembler) (counters : Counters) (f : Frame) : Status × Reassembler × Counters :=
  if maxPayloadPlain < f.payload.length ∨ reassemblyCap f.hdr.type < f.payload.length then
    (.fragmentOverflow,r,counters.bump .fragmentOverflow)
  else (.ok,{r with out := f.payload,complete := true},counters)

def Reassembler.store (r : Reassembler) (index oldLen : Nat) (payload : Bytes) : Reassembler :=
  {r with
    fragOff := Function.update r.fragOff index r.stage.length
    fragLen := Function.update r.fragLen index payload.length
    stage := r.stage ++ payload
    setLen := r.setLen - oldLen + payload.length
    got := Function.update r.got index true}

def Reassembler.filled (r : Reassembler) : Bool := (List.range r.total.toNat).all r.got

def Reassembler.oldLen (r : Reassembler) (index : Nat) : Nat := if r.got index then r.fragLen index else 0

def Reassembler.overflow (r : Reassembler) (counters : Counters) : Status × Reassembler × Counters :=
  (.fragmentOverflow,r.reset,counters.bump .fragmentOverflow)

def Counters.noteDuplicate (counters : Counters) (duplicate : Bool) : Counters :=
  if duplicate then {counters with rxFragDuplicate := counters.rxFragDuplicate + 1} else counters

-- The live set is the fragment's own by now.
def Reassembler.place (r : Reassembler) (counters : Counters) (f : Frame) : Status × Reassembler × Counters :=
  let index := f.hdr.fragIndex.toNat
  if f.hdr.fragTotal ≠ r.total then r.overflow counters
  else if reassemblyCap f.hdr.type < r.setLen - r.oldLen index + f.payload.length then r.overflow counters
  else
    let counters := counters.noteDuplicate (r.got index)
    if r.got index ∧ f.payload.length = r.oldLen index then
      (.ok,{r with stage := overwrite r.stage (r.fragOff index) f.payload},counters)
    else if maxPayloadPlain < r.stage.length + f.payload.length then r.overflow counters
    else
      let stored := r.store index (r.oldLen index) f.payload
      (.ok,if stored.filled then stored.assemble else stored,counters)

-- The slot made ready for the fragment: a finished set freed, another live set abandoned, a new one begun.
def Reassembler.claim (r : Reassembler) (counters : Counters) (f : Frame) (nowMs : UInt32) : Reassembler × Counters :=
  let r := if r.complete ∧ !r.active then r.reset else r
  if r.active then
    if r.sameSet f then (r,counters) else (r.reset.begin f nowMs,counters.bump .reassemblyAbandoned)
  else (r.begin f nowMs,counters)

def Reassembler.accept (r : Reassembler) (counters : Counters) (f : Frame) (nowMs : UInt32) : Status × Reassembler × Counters :=
  if f.hdr.fragTotal = 0 then (.badFrag,r,counters.bump .badFrag)
  else if maxFragments < f.hdr.fragTotal ∨ f.hdr.fragTotal ≤ f.hdr.fragIndex then
    (.fragmentOverflow,r,counters.bump .fragmentOverflow)
  else if f.hdr.fragTotal = 1 then r.acceptSingle counters f
  else
    let (r,counters) := r.tick counters nowMs
    if !typeIsFragmentable f.hdr.type then (.notFragmentable,r,counters.bump .notFragmentable)
    else if frameHasMac f.hdr.type f.payload ∧ !f.macVerified then (.rejectedMac,r,counters.bump .rejectedMac)
    else if !(r.active && r.sameSet f) ∧ r.sameCompleted f then (.fragLate,r,counters.bump .fragLate)
    else
      let (r,counters) := r.claim counters f nowMs
      r.place counters f

end LoraRan.Protocol
