import LoraRan.GateLink.GateIo

namespace LoraRan.GateLink
open Library.Clock Protocol

-- A relay write as io_task sees it: an injected bench fault skips the board, otherwise the board answers.
inductive WriteOutcome where
  | fault | failed | done
  deriving DecidableEq, Repr

def WriteOutcome.ok (w : WriteOutcome) : Bool := w == .done

structure IoParams where
  pollMs : UInt32
  widthMs : UInt32
  spacingMs : UInt32
  settleMs : UInt32

-- The table ranges of the four rows.
structure IoParams.InRange (p : IoParams) : Prop where
  poll : 20 ≤ p.pollMs.toNat ∧ p.pollMs.toNat ≤ 500
  width : 100 ≤ p.widthMs.toNat ∧ p.widthMs.toNat ≤ 2000
  spacing : 100 ≤ p.spacingMs.toNat ∧ p.spacingMs.toNat ≤ 5000
  settle : 100 ≤ p.settleMs.toNat ∧ p.settleMs.toNat ≤ 5000

structure PulseRequest where
  relay : UInt8
  widthMs : UInt16

-- Everything one pass reads from outside: the time, the parameters, what other tasks queued since the last pass,
-- and how each write it may make would turn out.
structure PassInput where
  time : Nat
  stalled : Bool := false
  params : IoParams
  commands : List RelaySequence := []
  bench : Option PulseRequest := none
  releaseWrite : WriteOutcome := .done
  startWrite : WriteOutcome := .done
  benchWrite : Bool := true
  retryWrite : WriteOutcome := .done

inductive IoEvent where
  | wrote (mask : UInt8) (ok : Bool)
  | edge (time : Nat) (settleMs : UInt32) (ok : Bool)
  | taken (seq : RelaySequence)
  | started (relay : UInt8) (time : Nat) (ok : Bool)
  | bench (relay : UInt8)
  | ended (how : SequenceEnd) (writeFailed : Bool)

structure IoSnapshot where
  relays : UInt8 := 0
  cmdEnd : SequenceEnd := .done
  cmdWriteFailed : Bool := false
  cmdI2cFailures : UInt32 := 0
  cmdSeq : UInt32 := 0
  i2cFailures : UInt32 := 0
  pulseSeq : UInt32 := 0
  releaseRetries : UInt32 := 0

-- io_task's locals, its command queue and what it publishes. The failures of one sequence are counted without a bound: 2^32 of them would
-- take longer than any sequence waits. `trace` is the order of its visible actions and is written only; no branch reads it.
structure IoTask where
  pulser : RelayPulser := {}
  sequencer : CommandSequencer := {}
  seqI2cFailures : Nat := 0
  releaseOwed : Bool := false
  nextPoll : UInt32 := 0
  cmdQ : List RelaySequence := []
  io : IoSnapshot := {}
  trace : List IoEvent := []

def IoTask.log (s : IoTask) (events : List IoEvent) : IoTask := {s with trace := s.trace ++ events}

-- The mask handed to the board, if the write got that far.
def writeEvent (mask : UInt8) : WriteOutcome → List IoEvent
  | .fault => []
  | .failed => [.wrote mask false]
  | .done => [.wrote mask true]

def IoTask.trailingEdge (s : IoTask) (i : PassInput) : IoTask :=
  match s.pulser.update (stamp i.time) with
  | (false,_) => s
  | (true,pulser) =>
      let ok := i.releaseWrite.ok
      IoTask.log {s with
        pulser := pulser
        releaseOwed := !ok
        seqI2cFailures := if !ok && s.sequencer.running then s.seqI2cFailures + 1 else s.seqI2cFailures
        io := {s.io with
          relays := pulser.mask
          i2cFailures := if ok then s.io.i2cFailures else s.io.i2cFailures + 1
          pulseSeq := s.io.pulseSeq + 1}}
        (writeEvent pulser.mask i.releaseWrite ++ [.edge i.time i.params.settleMs ok])

def IoTask.takeCommand (s : IoTask) (i : PassInput) : IoTask :=
  if s.sequencer.running then s
  else match s.cmdQ with
    | [] => s
    | cmd :: rest =>
        IoTask.log {s with cmdQ := rest,sequencer := (s.sequencer.begin cmd (stamp i.time)).2} [.taken cmd]

def IoTask.serviceSequence (s : IoTask) (i : PassInput) : IoTask :=
  match s.sequencer.service s.pulser i.params.widthMs i.params.spacingMs i.params.settleMs (stamp i.time) with
  | (false,sequencer,pulser) => {s with sequencer := sequencer,pulser := pulser}
  | (true,sequencer,pulser) =>
      let ok := i.startWrite.ok
      IoTask.log {s with
        sequencer := sequencer
        pulser := pulser
        seqI2cFailures := if ok then s.seqI2cFailures else s.seqI2cFailures + 1
        releaseOwed := if ok then false else s.releaseOwed
        io := {s.io with
          relays := pulser.mask
          i2cFailures := if ok then s.io.i2cFailures else s.io.i2cFailures + 1}}
        (writeEvent pulser.mask i.startWrite ++ [.started pulser.relay i.time ok])

def IoTask.reportEnd (s : IoTask) : IoTask :=
  match s.sequencer.takeEnd with
  | (none,_) => s
  | (some how,sequencer) =>
      let writeFailed := s.seqI2cFailures != 0
      IoTask.log {s with
        sequencer := sequencer
        seqI2cFailures := 0
        io := {s.io with
          cmdEnd := how
          cmdWriteFailed := writeFailed
          cmdI2cFailures := s.io.cmdI2cFailures + UInt32.ofNat s.seqI2cFailures
          cmdSeq := s.io.cmdSeq + 1}}
        [.ended how writeFailed]

def IoTask.benchPulse (s : IoTask) (i : PassInput) : IoTask :=
  match i.bench with
  | none => s
  | some req =>
      let width := if req.widthMs ≠ 0 then req.widthMs.toUInt32 else i.params.widthMs
      match s.pulser.start req.relay width i.params.spacingMs (stamp i.time) with
      | (.started,pulser) =>
          IoTask.log {s with
            pulser := pulser
            releaseOwed := if i.benchWrite then false else s.releaseOwed
            io := {s.io with
              relays := pulser.mask
              i2cFailures := if i.benchWrite then s.io.i2cFailures else s.io.i2cFailures + 1}}
            [.wrote pulser.mask i.benchWrite,.bench req.relay]
      | (_,pulser) => {s with pulser := pulser,io := {s.io with pulseSeq := s.io.pulseSeq + 1}}

def IoTask.pollRetry (s : IoTask) (i : PassInput) : IoTask :=
  if reached (stamp i.time) s.nextPoll then
    let polled := {s with nextPoll := s.nextPoll + i.params.pollMs}
    if s.releaseOwed then
      let ok := i.retryWrite.ok
      IoTask.log {polled with
        releaseOwed := !ok
        io := {s.io with
          releaseRetries := s.io.releaseRetries + 1
          i2cFailures := if ok then s.io.i2cFailures else s.io.i2cFailures + 1}}
        (writeEvent s.pulser.mask i.retryWrite)
    else polled
  else s

def IoTask.pass (s : IoTask) (i : PassInput) : IoTask :=
  let s := {s with cmdQ := s.cmdQ ++ i.commands}
  if i.stalled then s
  else ((((((s.trailingEdge i).takeCommand i).serviceSequence i).reportEnd).benchPulse i).pollRetry i)

end LoraRan.GateLink
