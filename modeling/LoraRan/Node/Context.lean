import LoraRan.Protocol.CommandGate
import LoraRan.Protocol.Codec
import LoraRan.Protocol.Reassembly

namespace LoraRan.Node
open Protocol

inductive AfterAck where
  | none | status | configReadback | reboot
  deriving DecidableEq, Repr

structure PendingCommand where
  active : Bool := false
  peer : NodeId := 0
  seq : Seq := 0
  cmd : UInt8 := 0
  result : AckResult := .accepted
  detail : UInt8 := 0
  after : AfterAck := .none
  startMs : UInt32 := 0
  deriving DecidableEq

structure HexPending where
  active : Bool := false
  dueMs : UInt32 := 0
  peer : NodeId := 0
  seq : Seq := 0
  deriving DecidableEq

-- One node identity. The signal levels kept for the display are left out.
structure Context where
  id : NodeId := 0
  protoVer : UInt8 := Protocol.protoVer
  key : NodeKey := zeroKey
  ctxId : CtxId := 0
  txSeq : Seq := 1
  counters : Counters := {}
  gate : CommandGate := {}
  reassembler : Reassembler := {}
  rxChunk : UInt8 := 0
  pending : PendingCommand := {}
  hexPending : HexPending := {}
  phyRevertDetail : UInt16 := 0
  configChangeOwed : Bool := false
  unhandled : UInt32 := 0
  executions : UInt32 := 0
  hexRequests : UInt32 := 0

-- The board's random source, as the values its next calls return.
abbrev RandomFn := Nat → UInt32

-- At most `tries` draws from position `at'`, up to the first value that is not zero.
def drawNonzero (random : RandomFn) : Nat → Nat → CtxId × Nat
  | 0, at' => (1,at')
  | tries+1, at' => if random at' ≠ 0 then (random at',at' + 1) else drawNonzero random tries (at' + 1)

def newCtxId (random : RandomFn) (at' : Nat) : CtxId × Nat := drawNonzero random 16 at'

def resetContext (c : Context) (random : RandomFn) : Context :=
  let ctx := (newCtxId random 0).1
  {c with
    ctxId := ctx
    gate := c.gate.resetContext ctx
    txSeq := 1
    reassembler := c.reassembler.reset.forgetCompleted
    rxChunk := 0
    pending := {}
    hexPending := {}}

-- `for (i = 0; i < 16 && next == c.ctx_id; ++i)`
def redraw (random : RandomFn) (current : CtxId) : Nat → CtxId × Nat → CtxId
  | 0, (next,_) => next
  | tries+1, (next,at') => if next = current then redraw random current tries (newCtxId random at') else next

-- The one after the current context, when every draw returned the current one.
def nextCtxId (current : CtxId) : CtxId := if current = 0xFFFFFFFF then 1 else current + 1

def rollCtxId (random : RandomFn) (current : CtxId) : CtxId :=
  let next := redraw random current 16 (newCtxId random 0)
  if next = current then nextCtxId current else next

-- The reassembler, the pending command and the pending HEX transaction stay.
def rollContext (c : Context) (random : RandomFn) : Context :=
  let next := rollCtxId random c.ctxId
  {c with ctxId := next,gate := c.gate.resetContext next,txSeq := 1}

theorem drawNonzero_ne_zero (random : RandomFn) (tries at' : Nat) : (drawNonzero random tries at').1 ≠ 0 := by
  induction tries generalizing at' with
  | zero =>
      change (1 : CtxId) ≠ 0
      decide
  | succ tries ih =>
      unfold drawNonzero
      split
      · assumption
      · exact ih (at' + 1)

theorem newCtxId_ne_zero (random : RandomFn) (at' : Nat) : (newCtxId random at').1 ≠ 0 := drawNonzero_ne_zero random 16 at'

theorem redraw_ne_zero (random : RandomFn) (current : CtxId) (tries : Nat) (drawn : CtxId × Nat) (nonzero : drawn.1 ≠ 0) :
    redraw random current tries drawn ≠ 0 := by
  induction tries generalizing drawn with
  | zero => exact nonzero
  | succ tries ih =>
      obtain ⟨next,at'⟩ := drawn
      unfold redraw
      split
      · exact ih _ (newCtxId_ne_zero random at')
      · exact nonzero

theorem nextCtxId_ne_zero (current : CtxId) : nextCtxId current ≠ 0 := by
  unfold nextCtxId
  split
  · decide
  · rename_i notLast
    intro wrapped
    apply notLast
    calc current = current + 1 - 1 := by simp
      _ = 0 - 1 := by rw [wrapped]
      _ = 0xFFFFFFFF := by decide

theorem nextCtxId_ne (current : CtxId) : nextCtxId current ≠ current := by
  unfold nextCtxId
  split
  · rename_i last
    rw [last]
    decide
  · simp

theorem rollCtxId_ne_zero (random : RandomFn) (current : CtxId) : rollCtxId random current ≠ 0 := by
  unfold rollCtxId
  dsimp only
  split
  · exact nextCtxId_ne_zero current
  · exact redraw_ne_zero random current 16 _ (newCtxId_ne_zero random 0)

theorem rollCtxId_ne (random : RandomFn) (current : CtxId) : rollCtxId random current ≠ current := by
  unfold rollCtxId
  dsimp only
  split
  · exact nextCtxId_ne current
  · assumption

end LoraRan.Node
