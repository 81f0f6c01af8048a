import LoraRan.Link.MediaAccess
import LoraRan.Protocol.Types

namespace LoraRan.Bridge
open Protocol Link Library.Clock

-- lora_task: one radio, one frame in hand, and a pass every few milliseconds. What the chip answers is an input of each pass.

inductive RadioMode where
  | down | receive | cad | transmit
  deriving DecidableEq, Repr

def deaf (m : RadioMode) : Bool := m == .cad || m == .transmit

def deafElapsed (from_ : RadioMode) (modeStartMs nowMs : UInt32) : UInt32 := if deaf from_ then nowMs - modeStartMs else 0

inductive RxWake where
  | skip | interrupt | timed
  deriving DecidableEq, Repr

def rxWake (dio1 : Bool) (nowMs lastReadMs irqReadMs : UInt32) : RxWake :=
  if dio1 then .interrupt else if irqReadMs ≤ nowMs - lastReadMs then .timed else .skip

inductive RxPass where
  | nothing | packet | orphan | headerError | wakeEmpty
  deriving DecidableEq, Repr

def rxPass (wake : RxWake) (rxDone headerErr : Bool) : RxPass :=
  if wake = .skip then .nothing
  else if rxDone then if wake = .timed then .orphan else .packet
  else if headerErr then .headerError
  else if wake = .interrupt then .wakeEmpty
  else .nothing

-- `ticket` is nought where no reply window waits for the frame.
structure TxMessage where
  bytes : Bytes := []
  dst : NodeId := 0
  ticket : UInt32 := 0
  deriving DecidableEq

structure LoraStats where
  beginFailures : UInt32 := 0
  lastBeginStatus : Int16 := 0
  rxDriverErrors : UInt32 := 0
  txForced : UInt32 := 0
  txErrors : UInt32 := 0
  txTimeouts : UInt32 := 0
  txDroppedNoRadio : UInt32 := 0
  cadErrors : UInt32 := 0
  cadDeferred : UInt32 := 0
  cadFree : UInt32 := 0
  rxNoInterrupt : UInt32 := 0
  rxWakeEmpty : UInt32 := 0
  rxDeafMs : UInt32 := 0

-- The bits of the interrupt register that are looked at.
structure Irq where
  rxDone : Bool := false
  headerErr : Bool := false
  preamble : Bool := false
  header : Bool := false
  cadDone : Bool := false
  cadDetected : Bool := false
  txDone : Bool := false
  deriving DecidableEq

inductive Reading where
  | frame | crcMismatch | driverError
  deriving DecidableEq, Repr

-- What the driver answers in one pass, call by call; a status of nought is success. A call that is not made leaves its answer unread.
structure Pass where
  irqRx : Irq := {}
  reading : Reading := .frame
  restartStatus : Int16 := 0
  irqTx : Irq := {}
  scanStatus : Int16 := 0
  transmitStatus : Int16 := 0
  timeOnAirUs : UInt32 := 0
  receiveStatus : Int16 := 0
  retuneStatus : Int16 := 0
  beginStatus : Int16 := 0
  random : UInt32 := 0

-- How a frame left: on the air, on the air with no end reported, refused by the driver, or with no radio to send it.
inductive Left where
  | sent | timedOut | refused | noRadio
  deriving DecidableEq, Repr

inductive RadioAct where
  | ended (at_ : Nat)
  | scan (at_ : Nat) (irq : Irq) (holdoffMs : UInt32)
  | transmit (at_ : Nat) (tx : TxMessage) (cads : List CadResult) (retries : UInt8) (phy taken : PhyConfig)

-- The ladder behind a reception, the frame log and the channel monitor are not modelled here. The fields from `now` on are
-- bookkeeping of the run and are read by no pass but for the clock.
structure LoraLink where
  mode : RadioMode := .down
  modeStartMs : UInt32 := 0
  txTimeoutMs : UInt32 := 0
  tx : TxMessage := {}
  haveTx : Bool := false
  queue : List TxMessage := []
  access : MediaAccess := {}
  arrival : RxArrival := {}
  dio1 : Bool := false
  lastIrqReadMs : UInt32 := 0
  beginFailedMs : UInt32 := 0
  phy : PhyConfig
  phyNext : PhyConfig := kPhy
  phyRequested : UInt32 := 0
  phyApplied : UInt32 := 0
  txDoneTicket : UInt32 := 0
  txDoneMs : UInt32 := 0
  ready : Bool := false
  cadBackoffs : UInt32 := 0
  txFrames : UInt32 := 0
  stats : LoraStats := {}
  now : Nat := 0
  asked : List TxMessage := []
  gone : List (TxMessage × Left) := []
  cads : List CadResult := []
  taken : PhyConfig := kPhy
  acts : List RadioAct := []

def kBeginRetryMs : UInt32 := 10000
def kCadTimeoutMs : UInt32 := 500
def kIrqReadMs : UInt32 := 1000
def kRxInProgressMaxMs : UInt32 := 1500

namespace LoraLink

def nowMs (l : LoraLink) : UInt32 := stamp l.now

def elapsed (nowMs sinceMs : UInt32) : UInt32 := nowMs - sinceMs

-- The one place the mode changes.
def enterMode (l : LoraLink) (next : RadioMode) : LoraLink :=
  let add := deafElapsed l.mode l.modeStartMs l.nowMs
  {l with
    stats := {l.stats with rxDeafMs := if 0xFFFFFFFF - l.stats.rxDeafMs < add then 0xFFFFFFFF else l.stats.rxDeafMs + add}
    mode := next
    modeStartMs := l.nowMs}

-- A frame that leaves lora_task, on air or not.
def noteTxDone (l : LoraLink) : LoraLink := if l.tx.ticket = 0 then l else {l with txDoneTicket := l.tx.ticket,txDoneMs := l.nowMs}

def endTx (l : LoraLink) (how : Left) : LoraLink :=
  noteTxDone {l with access := l.access.finish,haveTx := false,gone := l.gone ++ [(l.tx,how)]}

def radioFailed (l : LoraLink) (status : Int16) : LoraLink :=
  let l := {l with ready := false}.enterMode .down
  let l := {l with beginFailedMs := l.nowMs,stats := {l.stats with lastBeginStatus := status,beginFailures := l.stats.beginFailures + 1}}
  if l.haveTx then
    {l with stats := {l.stats with txDroppedNoRadio := l.stats.txDroppedNoRadio + 1}}.endTx .noRadio
  else l

def tryBegin (l : LoraLink) (status : Int16) : LoraLink :=
  if status ≠ 0 then l.radioFailed status
  else
    let l := {l with
      stats := {l.stats with lastBeginStatus := status}
      dio1 := false
      arrival := l.arrival.reset.setBounds (preambleToHeaderMs l.phy) kRxInProgressMaxMs (burstHoldoffMs l.phy)}
    {l.enterMode .receive with ready := true}

def startReceive (l : LoraLink) (status : Int16) : LoraLink :=
  let l := {l with dio1 := false,arrival := l.arrival.reset}
  if status ≠ 0 then l.radioFailed status else l.enterMode .receive

def receptionEnded (l : LoraLink) : LoraLink := {l with arrival := l.arrival.noteReceptionEnd l.nowMs,acts := l.acts ++ [RadioAct.ended l.now]}

-- The frame that was read goes to the ladder.
def readPacket (l : LoraLink) (p : Pass) : LoraLink :=
  let l := {l with arrival := l.arrival.reset}.receptionEnded
  match p.reading with
  | .frame => l
  | .crcMismatch => l
  | .driverError => {l with stats := {l.stats with rxDriverErrors := l.stats.rxDriverErrors + 1}}

def serviceReceive (l : LoraLink) (p : Pass) : LoraLink :=
  let wake := rxWake l.dio1 l.nowMs l.lastIrqReadMs kIrqReadMs
  if wake = .skip then l
  else
    let l := {l with
      dio1 := false
      lastIrqReadMs := l.nowMs
      arrival := (l.arrival.observe p.irqRx.preamble p.irqRx.header l.nowMs).2}
    match rxPass wake p.irqRx.rxDone p.irqRx.headerErr with
    | .headerError => l.receptionEnded.startReceive p.restartStatus
    | .wakeEmpty => {l with stats := {l.stats with rxWakeEmpty := l.stats.rxWakeEmpty + 1}}
    | .nothing => l
    | .orphan => {l with stats := {l.stats with rxNoInterrupt := l.stats.rxNoInterrupt + 1}}.readPacket p
    | .packet => l.readPacket p

def reportCad (l : LoraLink) (result : CadResult) (p : Pass) : TxStep × LoraLink :=
  let (next,access,cadBackoffs) := l.access.onCad result l.nowMs p.random l.cadBackoffs
  (next,{l with access := access,cadBackoffs := cadBackoffs,stats := {l.stats with cadErrors := access.cadErrors},cads := l.cads ++ [result]})

def startTransmit (l : LoraLink) (p : Pass) : LoraLink :=
  let l := if l.access.forced then {l with stats := {l.stats with txForced := l.stats.txForced + 1}} else l
  if p.transmitStatus ≠ 0 then
    ({l with stats := {l.stats with txErrors := l.stats.txErrors + 1}}.endTx .refused).startReceive p.receiveStatus
  else
    {l with
      txTimeoutMs := 5 + p.timeOnAirUs * 5 / 1000
      acts := l.acts ++ [RadioAct.transmit l.now l.tx l.cads l.access.cfg.cadRetries l.phy l.taken]}.enterMode .transmit

def startCad (l : LoraLink) (p : Pass) : LoraLink :=
  if l.arrival.holdingOff l.nowMs then l
  else if p.irqTx.rxDone then {l with dio1 := true}
  else
    let (arrival,a) := l.arrival.observe p.irqTx.preamble p.irqTx.header l.nowMs
    let l := {l with arrival := a}
    match arrival with
    | .arriving =>
        -- The frame that arrives is the busy channel: no CAD is run that would destroy it.
        let (next,l) := {l with stats := {l.stats with cadDeferred := l.stats.cadDeferred + 1}}.reportCad .busy p
        if next = .transmit then l.startTransmit p else l
    | .stale => l.startReceive p.receiveStatus
    | .idle =>
        if p.scanStatus ≠ 0 then
          let (next,l) := l.reportCad .error p
          if next = .transmit then l.startTransmit p else l.startReceive p.receiveStatus
        else {l with acts := l.acts ++ [RadioAct.scan l.now p.irqTx l.arrival.holdoffMs]}.enterMode .cad

def finishCad (l : LoraLink) (result : CadResult) (p : Pass) : LoraLink :=
  let (next,l) := l.reportCad result p
  if next = .transmit then l.startTransmit p else l.startReceive p.receiveStatus

def serviceCad (l : LoraLink) (p : Pass) : LoraLink :=
  if p.irqTx.cadDone then
    if p.irqTx.cadDetected then l.finishCad .busy p
    else {l with stats := {l.stats with cadFree := l.stats.cadFree + 1}}.finishCad .free p
  else if kCadTimeoutMs ≤ elapsed l.nowMs l.modeStartMs then l.finishCad .error p
  else l

def serviceTransmit (l : LoraLink) (p : Pass) : LoraLink :=
  if p.irqTx.txDone then ({l with txFrames := l.txFrames + 1}.endTx .sent).startReceive p.receiveStatus
  else if l.txTimeoutMs ≤ elapsed l.nowMs l.modeStartMs then
    ({l with stats := {l.stats with txTimeouts := l.stats.txTimeouts + 1}}.endTx .timedOut).startReceive p.receiveStatus
  else l

def serveTx (l : LoraLink) (p : Pass) : LoraLink :=
  match l.access.step l.nowMs with
  | .idle => {l with haveTx := false}.noteTxDone
  | .wait => l
  | .cad => l.startCad p
  | .transmit => l.startTransmit p

def serviceTx (l : LoraLink) (p : Pass) : LoraLink :=
  if l.haveTx then l.serveTx p
  else match l.queue with
    | [] => l
    | tx :: rest => {l with tx := tx,queue := rest,haveTx := true,access := l.access.start l.nowMs,cads := [],taken := l.phy}.serveTx p

-- The fleet's settings move only between frames.
def serviceRetune (l : LoraLink) (p : Pass) : LoraLink :=
  if l.haveTx || l.arrival.arriving l.nowMs || (l.mode != .receive && l.mode != .down) then l
  else if l.phyRequested = l.phyApplied then l
  else if l.phyRequested = 0 then {l with phy := l.phyNext}
  else {{l with phy := l.phyNext}.tryBegin p.retuneStatus with phyApplied := l.phyRequested}

-- With the radio down nothing can be sent, and nothing is left to go out late.
def drain (l : LoraLink) : List TxMessage → LoraLink
  | [] => {l with queue := []}
  | tx :: rest =>
      drain (noteTxDone {l with
        tx := tx
        stats := {l.stats with txDroppedNoRadio := l.stats.txDroppedNoRadio + 1}
        gone := l.gone ++ [(tx,.noRadio)]}) rest

def service (l : LoraLink) (p : Pass) : LoraLink :=
  let l := l.serviceRetune p
  match l.mode with
  | .down =>
      let l := l.drain l.queue
      if kBeginRetryMs ≤ elapsed l.nowMs l.beginFailedMs then l.tryBegin p.beginStatus else l
  | .receive =>
      let l := l.serviceReceive p
      if l.mode = .receive then l.serviceTx p else l
  | .cad => l.serviceCad p
  | .transmit => l.serviceTransmit p

def requestPhy (l : LoraLink) (phy : PhyConfig) : LoraLink :=
  {l with phyNext := phy,phyRequested := if l.phyRequested + 1 = 0 then 1 else l.phyRequested + 1}

def phyIsApplied (l : LoraLink) (ticket : UInt32) : Bool := l.phyApplied == ticket

def txFinished (l : LoraLink) (ticket : UInt32) : Option UInt32 :=
  if l.txDoneTicket = 0 ∨ (l.txDoneTicket - ticket).toInt32 < 0 then none else some l.txDoneMs

end LoraLink

-- Time goes on, the pin rises, the other tasks queue frames and ask for settings, and lora_task passes.
inductive LoraInput where
  | wait (ms : Nat)
  | edge
  | queue (tx : TxMessage)
  | requestPhy (phy : PhyConfig)
  | configure (cfg : MediaAccessConfig)
  | pass (p : Pass)

def LoraLink.step (l : LoraLink) : LoraInput → LoraLink
  | .wait ms => {l with now := l.now + ms}
  | .edge => {l with dio1 := true}
  | .queue tx => {l with queue := l.queue ++ [tx],asked := l.asked ++ [tx]}
  | .requestPhy phy => l.requestPhy phy
  | .configure cfg => {l with access := {l.access with cfg := cfg}}
  | .pass p => l.service p

-- lora_start()
def loraStart (phy : PhyConfig) (status : Int16) (start : Nat) : LoraLink := LoraLink.tryBegin {phy := phy,now := start} status

end LoraRan.Bridge
