import LoraRan.Protocol.Codec
import LoraRan.Protocol.Messages

namespace LoraRan.Bridge
open Protocol

-- The addresses this bridge is provisioned for.
def nodeTable : List NodeId := [0x01,0x02,0xF0,0xF1,0xF2,0xF3]

def verUnknown : UInt8 := 0xFF

-- What the registry learns of one node. Signal levels and the poll bookkeeping are the scheduler's and are left out.
structure NodeState where
  ctxId : CtxId := 0
  cmdSeq : Seq := 1
  heard : Bool := false
  lastSeenMs : UInt32 := 0
  framesHeard : UInt32 := 0
  protoVer : UInt8 := verUnknown
  unsupportedVer : UInt8 := 0

structure Registry where
  state : NodeId → NodeState := fun _ => {}

def registered (id : NodeId) : Bool := nodeTable.contains id

def nodeTxVer (s : NodeState) : UInt8 := if s.protoVer = verUnknown then Protocol.protoVer else s.protoVer

inductive Observed where
  | unregisteredNode | heard | newContext
  deriving DecidableEq, Repr

def NodeState.hear (s : NodeState) (hdr : Header) (nowMs : UInt32) : NodeState :=
  {s with heard := true,lastSeenMs := nowMs,framesHeard := s.framesHeard + 1,protoVer := hdr.ver,unsupportedVer := 0}

def Registry.observe (r : Registry) (hdr : Header) (nowMs : UInt32) : Observed × Registry :=
  if !registered hdr.src then (.unregisteredNode,r)
  else
    let s := (r.state hdr.src).hear hdr nowMs
    if hdr.ctxId = 0 ∨ hdr.ctxId = s.ctxId then (.heard,{r with state := Function.update r.state hdr.src s})
    else (.newContext,{r with state := Function.update r.state hdr.src {s with ctxId := hdr.ctxId,cmdSeq := 1}})

-- Zero is skipped on the wrap.
def nextCmdSeq (s : Seq) : Seq := if s + 1 = 0 then 1 else s + 1

def Registry.takeCmdSeq (r : Registry) (id : NodeId) : Option (Seq × Registry) :=
  if !registered id then none
  else
    let s := r.state id
    some (s.cmdSeq,{r with state := Function.update r.state id {s with cmdSeq := nextCmdSeq s.cmdSeq}})

def Registry.adoptCtx (r : Registry) (id : NodeId) (ctx : CtxId) : Registry :=
  if !registered id then r
  else {r with state := Function.update r.state id {r.state id with ctxId := ctx,cmdSeq := 1}}

end LoraRan.Bridge
