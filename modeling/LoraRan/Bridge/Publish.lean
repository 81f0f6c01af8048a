import LoraRan.Bridge.PublishTables
import LoraRan.Bridge.UtcText

namespace LoraRan.Bridge.Publish
open Protocol Protocol.Sentinels Library.DecimalText Library.CheckedReads UtcText

structure PublishLevers where
  republishIntervalS : UInt16 := 900
  bmsStaleS : UInt16 := 600
  cellMvDeadband : UInt8 := 5

structure PublishStats where
  statusFrames : UInt32 := 0
  documents : UInt32 := 0
  unchanged : UInt32 := 0
  heartbeats : UInt32 := 0
  eventFrames : UInt32 := 0
  events : UInt32 := 0
  eventRepeats : UInt32 := 0
  benchWithheld : UInt32 := 0
  queueRefused : UInt32 := 0
  undecodable : UInt32 := 0

def kUtcPlausible : Int64 := 1767225600
def kTraversalJitterS : Int64 := 2

structure NodeInfo where
  id : NodeId
  isBench : Bool

structure Slot where
  valid : Bool := false
  hash : UInt32 := 0
  atMs : UInt32 := 0

-- What a document's deadbanded values are compared with.
structure Held where
  cellsValid : Bool := false
  cellMv : Cells UInt16 := ⟨0,0,0,0⟩
  traversalValid : Bool := false
  traversal : Int64 := 0
  stable : StableGate := .none

def kEventMemory : Nat := 16

structure Seen where
  valid : Bool := false
  followUp : Bool := false
  ctxId : CtxId := 0
  eventId : UInt32 := 0

-- The per-node arrays are indexed by the node's row.
structure PublicationPolicy where
  levers : PublishLevers := {}
  stats : PublishStats := {}
  slots : Nat → Domain → Slot := fun _ _ => {}
  held : Nat → Held := fun _ => {}
  seen : Nat → Nat → Seen := fun _ _ => {}
  seenNext : Nat → Nat := fun _ => 0

-- What is handed to the sink, which takes it or refuses it.
structure Emission where
  topic : Bytes
  payload : Bytes
  retain : Bool
  qos : UInt8
  deriving DecidableEq

abbrev Sink := Emission → Bool

-- Every offer a call made to the sink, with its answer.
abbrev Offers := List (Emission × Bool)

def nodeIndex (id : NodeId) : Nat := nodeTable.idxOf id

def PublicationPolicy.forgetPublished (p : PublicationPolicy) : PublicationPolicy :=
  {p with slots := fun i d => {p.slots i d with valid := false}}

def PublicationPolicy.count (p : PublicationPolicy) (f : PublishStats → PublishStats) : PublicationPolicy := {p with stats := f p.stats}

-- The document in its buffer: none where it did not fit. What is written before the mark decides whether it changed.
structure Rendered where
  doc : Option Bytes
  hashed : Nat

def render (calls tail : List JsonCall) : Rendered :=
  let j := calls.foldl JsonObject.call (.start kMaxPayloadLen)
  ⟨(tail.foldl JsonObject.call j).finish,if tail = [] then 0 else j.out.length⟩

def documentHash (doc : Bytes) (hashed : Nat) : UInt32 := fnv1a (if hashed = 0 ∨ doc.length < hashed then doc else doc.take hashed)

def PublicationPolicy.offer (p : PublicationPolicy) (ni : Nat) (d : Domain) (token : Bytes) (r : Rendered) (nowMs : UInt32) (sink : Sink) :
    Offers × PublicationPolicy :=
  match r.doc with
  | none => ([],p)
  | some doc =>
      let slot := p.slots ni d
      let h := documentHash doc r.hashed
      let same := slot.valid && decide (slot.hash = h)
      let interval := p.levers.republishIntervalS.toUInt32 * 1000
      if same ∧ nowMs - slot.atMs < interval then ([],p.count fun s => {s with unchanged := s.unchanged + 1})
      else
        match topicDomainState token (domainPath d) kMaxTopicLen with
        | none => ([],p)
        | some topic =>
            let e : Emission := {topic := topic,payload := doc,retain := true,qos := 0}
            if sink e then
              ([(e,true)],{p with
                stats := {p.stats with heartbeats := if same then p.stats.heartbeats + 1 else p.stats.heartbeats,documents := p.stats.documents + 1}
                slots := Function.update p.slots ni (Function.update (p.slots ni) d {valid := true,hash := h,atMs := nowMs})})
            else ([(e,false)],p.count fun s => {s with queueRefused := s.queueRefused + 1})

-- An offer decides by the slots and moves them and the counts, and nothing else of the policy.
structure Untouched (p q : PublicationPolicy) : Prop where
  levers : q.levers = p.levers
  held : q.held = p.held
  seen : q.seen = p.seen
  next : q.seenNext = p.seenNext

theorem offer_untouched (p : PublicationPolicy) (ni : Nat) (d : Domain) (token : Bytes) (r : Rendered) (nowMs : UInt32) (sink : Sink) :
    Untouched p (p.offer ni d token r nowMs sink).2 := by
  unfold PublicationPolicy.offer
  split
  · exact ⟨rfl,rfl,rfl,rfl⟩
  · dsimp only
    split
    · exact ⟨rfl,rfl,rfl,rfl⟩
    · split
      · exact ⟨rfl,rfl,rfl,rfl⟩
      · split
        · exact ⟨rfl,rfl,rfl,rfl⟩
        · exact ⟨rfl,rfl,rfl,rfl⟩

-- What an offer hands to the sink is the document, on its domain's topic.
theorem offer_hands (p : PublicationPolicy) (ni : Nat) (d : Domain) (token : Bytes) (r : Rendered) (nowMs : UInt32) (sink : Sink)
    (e : Emission) (ok : Bool) (handed : (e,ok) ∈ (p.offer ni d token r nowMs sink).1) :
    r.doc = some e.payload ∧ topicDomainState token (domainPath d) kMaxTopicLen = some e.topic ∧ e.retain = true ∧ e.qos = 0 ∧ ok = sink e := by
  unfold PublicationPolicy.offer at handed
  split at handed
  · cases handed
  · dsimp only at handed
    split at handed
    · cases handed
    · split at handed
      · cases handed
      · split at handed
        · rw [List.mem_singleton,Prod.mk.injEq] at handed
          obtain ⟨rfl,rfl⟩ := handed
          exact ⟨by assumption,by assumption,rfl,rfl,by rw [‹sink _ = true›]⟩
        case isFalse refused =>
          rw [List.mem_singleton,Prod.mk.injEq] at handed
          obtain ⟨rfl,rfl⟩ := handed
          exact ⟨by assumption,by assumption,rfl,rfl,(Bool.eq_false_iff.mpr refused).symm⟩

def seenMatches (s : Seen) (ctxId : CtxId) (eventId : UInt32) (followUp : Bool) : Bool :=
  s.valid && decide (s.ctxId = ctxId) && decide (s.eventId = eventId) && decide (s.followUp = followUp)

def eventCalls (ctxId : CtxId) (e : GateLinkEventV1) (synthetic : Bool) : List JsonCall :=
  [.u32 (text "event_id") e.eventId,.u32 (text "ctx_id") ctxId,strOrNull (text "event_type") (eventTypeName e.eventType),
    .u32 (text "event_code") e.eventType.toUInt32,.boolean (text "follow_up") (bit e.eventFlags kEventFlagFollowUp),
    strOrNull (text "hold_source") (holdSourceName e.holdSource),strOrNull (text "direction") (directionName e.direction),
    strOrNull (text "gate_state") (gateStateName e.gateState),.u32 (text "input_bits") e.inputBits.toUInt32,.u32 (text "detail") e.detail.toUInt32] ++
  (if e.eventType = eventTypeBoot then [.str (text "reset_cause") (some (resetCauseName e.detail))] else []) ++
  (if e.eventType = eventTypeChargeInhibited then [strOrNull (text "inhibit_path") (inhibitPathName e.detail)] else []) ++
  [.u32 (text "uptime_s") e.uptimeS,.boolean (text "synthetic") synthetic]

def PublicationPolicy.onEvent (p : PublicationPolicy) (info : NodeInfo) (hdr : Header) (payload : Bytes) (synthetic : Bool) (sink : Sink) :
    Offers × PublicationPolicy :=
  if hdr.type ≠ .event then ([],p)
  else
    let p := p.count fun s => {s with eventFrames := s.eventFrames + 1}
    let ni := nodeIndex info.id
    let undecodable : Offers × PublicationPolicy := ([],p.count fun s => {s with undecodable := s.undecodable + 1})
    match (if ni < nodeTable.length then nodeTopicName info.id else none),
      (if hdr.schema = schemaGateLinkEventV1 then GateLinkEventV1.deserialize (memoryOf payload) payload.length else none) with
    | none,_ => undecodable
    | some token,some (.ok e) =>
        if info.isBench then ([],p.count fun s => {s with benchWithheld := s.benchWithheld + 1})
        else
          let followUp := bit e.eventFlags kEventFlagFollowUp
          if (List.range kEventMemory).any fun i => seenMatches (p.seen ni i) hdr.ctxId e.eventId followUp then
            ([],p.count fun s => {s with eventRepeats := s.eventRepeats + 1})
          else
            match writeJson kMaxPayloadLen (eventCalls hdr.ctxId e synthetic),
              topicEvent token ((eventTypeName e.eventType).getD (text "unknown")) kMaxTopicLen with
            | some doc,some topic =>
                let emission : Emission := {topic := topic,payload := doc,retain := false,qos := 1}
                if sink emission then
                  ([(emission,true)],{p with
                    stats := {p.stats with events := p.stats.events + 1}
                    seen := Function.update p.seen ni (Function.update (p.seen ni) (p.seenNext ni)
                      {valid := true,followUp := followUp,ctxId := hdr.ctxId,eventId := e.eventId})
                    seenNext := Function.update p.seenNext ni ((p.seenNext ni + 1) % kEventMemory)})
                else ([(emission,false)],p.count fun s => {s with queueRefused := s.queueRefused + 1})
            | _,_ => undecodable
    | some _,_ => undecodable

-- The documents of one status frame, each the calls its block makes in their order.

def healthCalls (h : NodeHealthV1) : List JsonCall × List JsonCall :=
  ([if h.bootCount = 0 then .null (text "boot_count") else .u32 (text "boot_count") h.bootCount.toUInt32,
      .u32 (text "rx_dropped") h.rxDropped.toUInt32,.u32 (text "cad_backoffs") h.cadBackoffs.toUInt32,.u32 (text "proto_ver") h.protoVer.toUInt32,
      .boolean (text "debug") (bit h.healthFlags kHealthFlagDebugActive)],
    [.u32 (text "rx_frames") h.rxFrames.toUInt32,.u32 (text "tx_frames") h.txFrames.toUInt32,i16OrNull (text "last_rssi_dbm") h.lastRssiDbm,
      tenthsOrNull (text "last_snr_db") h.lastSnrDb10,.u32 (text "uptime_s") h.uptimeS])

def gateCalls (s : GateLinkStatusV1) (cover : Option Bytes) (fireSensed synthetic : Bool) : List JsonCall :=
  [strOrNull (text "state") (gateStateName s.gateState),strOrNull (text "cover_state") cover,
    .boolean (text "held_open") (bit s.hold kHoldHeldOpen),strOrNull (text "hold_source") (holdSourceName ((s.hold >>> 1) &&& 0x07)),
    strOrNull (text "movement_cause") (movementCauseName s.movementCause),strOrNull (text "last_direction") (directionName s.lastDirection),
    .boolean (text "in_open") (bit s.inputBits kInOpen),.boolean (text "in_moving") (bit s.inputBits kInMoving),
    .boolean (text "in_safety") (bit s.inputBits kInSafety),.boolean (text "in_exit") (bit s.inputBits kInExit)] ++
  (if fireSensed then [.boolean (text "in_fire") (bit s.inputBits kInFire),.boolean (text "in_alarm") (bit s.inputBits kInAlarm)]
    else [.null (text "in_fire"),.null (text "in_alarm")]) ++
  [.boolean (text "fire_inputs_sensed") fireSensed,.u32 (text "input_bits") s.inputBits.toUInt32,.boolean (text "synthetic") synthetic]

-- The time a node last saw a vehicle: an age becomes one only with a wall clock, and a move within the jitter is none.
def Held.traverse (held : Held) (s : GateLinkStatusV1) (utcAtRx : Int64) : Held :=
  if s.lastTraversalAgeS = u32NotAvailable ∨ utcAtRx < kUtcPlausible then {held with traversalValid := false}
  else
    let t := utcAtRx - Int64.ofNat s.lastTraversalAgeS.toNat
    let d := if held.traversalValid then t - held.traversal else 0
    if !held.traversalValid ∨ kTraversalJitterS < d ∨ d < -kTraversalJitterS then {held with traversal := t,traversalValid := true} else held

-- Time as text, where there is a time and it can be written in the buffer of 24.
def utcOrNull (key : Bytes) (known : Bool) (t : Int64) : JsonCall :=
  match (if known then formatUtc t 24 else none) with
  | some (b :: rest) => .str key (some (b :: rest))
  | _ => .null key

def detectCalls (s : GateLinkStatusV1) (held : Held) (synthetic : Bool) : List JsonCall :=
  [.boolean (text "safety") (bit s.detectFlags kDetSafety),.boolean (text "exit") (bit s.detectFlags kDetExit),
    .boolean (text "classifying") (bit s.detectFlags kDetClassifying),.boolean (text "vehicle_while_held") (bit s.detectFlags kDetVehicleHeld),
    .boolean (text "suppressed") (bit s.detectFlags kDetSuppressed),utcOrNull (text "last_traversal") held.traversalValid held.traversal,
    .boolean (text "traversal_persisted") (!bit s.nodeFlags kNodeTraversalVolatile),.boolean (text "synthetic") synthetic]

def solarKeys : List Bytes :=
  [text "batt_mv",text "batt_ma",text "pv_mv",text "pv_w",text "load_ma",text "yield_today_kwh",text "yield_yesterday_kwh",text "pmax_today_w",
    text "yield_total_kwh",text "charge_state",text "charge_state_name",text "error",text "error_name",text "tracker",text "load_on",text "temp_c"]

def mpptCalls (s : GateLinkStatusV1) : List JsonCall :=
  [.u32 (text "batt_mv") s.battMv.toUInt32,.i32 (text "batt_ma") s.battMa.toInt32,.u32 (text "pv_mv") (s.pvCv.toUInt32 * 10),
    .u32 (text "pv_w") s.pvW.toUInt32,i16OrNull (text "load_ma") s.loadMa,.decimal (text "yield_today_kwh") s.yieldToday.toNat 2,
    .decimal (text "yield_yesterday_kwh") s.yieldYest.toNat 2,.u32 (text "pmax_today_w") s.pmaxToday.toUInt32,
    .decimal (text "yield_total_kwh") s.yieldTotal.toNat 2,codeOrNull (text "charge_state") s.chargeState,
    strOrNull (text "charge_state_name") (mpptChargeStateName s.chargeState),codeOrNull (text "error") s.mpptErr,
    strOrNull (text "error_name") (mpptErrorName s.mpptErr),codeOrNull (text "tracker") s.mpptTracker,
    .boolean (text "load_on") (bit s.mpptFlags kMpptLoadOn),tenthsOrNull (text "temp_c") s.mpptTempC10]

def solarCalls (s : GateLinkStatusV1) (synthetic : Bool) : List JsonCall :=
  let ok := !bit s.mpptFlags kMpptStale
  let rest : List JsonCall :=
    [.boolean (text "hex_pending") (bit s.mpptFlags kMpptHexPending),.boolean (text "charge_inhibited") (bit s.mpptFlags kMpptChargeInhibited),
      .boolean (text "synthetic") synthetic]
  .boolean (text "available") ok :: (if ok then mpptCalls s else solarKeys.map .null) ++ rest

def Cells.toList {α : Type} (c : Cells α) : List α := [c.cell0,c.cell1,c.cell2,c.cell3]

-- A cell's held value moves when the frame's is the deadband away from it, and with the first frame of a block.
def deadbanded (valid : Bool) (deadband : UInt8) (v held : UInt16) : UInt16 :=
  let d := (v.toNat : Int) - held.toNat
  if !valid ∨ (deadband.toNat : Int) ≤ d ∨ (deadband.toNat : Int) ≤ -d then v else held

def Held.deadband (held : Held) (deadband : UInt8) (mv : Cells UInt16) : Cells UInt16 :=
  ⟨deadbanded held.cellsValid deadband mv.cell0 held.cellMv.cell0,deadbanded held.cellsValid deadband mv.cell1 held.cellMv.cell1,
    deadbanded held.cellsValid deadband mv.cell2 held.cellMv.cell2,deadbanded held.cellsValid deadband mv.cell3 held.cellMv.cell3⟩

-- Whether the block is a reading of the pack, and not a stale one.
def bmsAvailable (levers : PublishLevers) (s : GateLinkStatusV1) : Bool :=
  bit s.bmsFlags kBmsValid && decide (s.bmsAgeS ≠ u16NotAvailable) && decide (s.bmsAgeS ≤ levers.bmsStaleS)

def Held.batteryBlock (held : Held) (levers : PublishLevers) (s : GateLinkStatusV1) : Held :=
  if bmsAvailable levers s then {held with cellMv := held.deadband levers.cellMvDeadband s.cellMv,cellsValid := true}
  else {held with cellsValid := false}

def cellKey (c : Nat) (suffix : Bytes) : Bytes := text "cell" ++ digits (c + 1) ++ suffix

def cellMvCalls (reported : Nat) (mv : Cells UInt16) : List JsonCall :=
  (Cells.toList mv).mapIdx fun c v => if c < reported then .u32 (cellKey c (text "_mv")) v.toUInt32 else .null (cellKey c (text "_mv"))

def cellTempCalls (reported : Nat) (temps : Cells Int8) : List JsonCall :=
  (Cells.toList temps).mapIdx fun c v =>
    if c < reported ∧ v ≠ -128 then .i32 (cellKey c (text "_temp_c")) v.toInt32 else .null (cellKey c (text "_temp_c"))

def alarmKeys : List Bytes :=
  [text "alarms",text "charge_fet",text "discharge_fet",text "charge_inhibited",text "protection",text "balancing"]

def batteryKeys : List Bytes :=
  [text "soc",text "soc_source",text "pack_mv",text "pack_ma",text "cell_count",text "cell1_mv",text "cell2_mv",text "cell3_mv",text "cell4_mv",
    text "cell1_temp_c",text "cell2_temp_c",text "cell3_temp_c",text "cell4_temp_c",text "cycles",text "capacity_ah",text "alarms",
    text "charge_fet",text "discharge_fet",text "charge_inhibited",text "protection",text "balancing"]

def alarmCalls (s : GateLinkStatusV1) : List JsonCall :=
  if s.bmsAlarms = u16NotAvailable then alarmKeys.map .null
  else
    [.u32 (text "alarms") s.bmsAlarms.toUInt32,.boolean (text "charge_fet") (bit s.bmsFlags kBmsChargeFet),
      .boolean (text "discharge_fet") (bit s.bmsFlags kBmsDischargeFet),.boolean (text "charge_inhibited") (bit s.bmsFlags kBmsChargeInhibited),
      .boolean (text "protection") (bit s.bmsFlags kBmsProtection),.boolean (text "balancing") (bit s.bmsFlags kBmsBalancing)]

def socOrNull (soc : UInt8) : JsonCall := if soc = socNotAvailable then .null (text "soc") else .u32 (text "soc") soc.toUInt32

def packCalls (s : GateLinkStatusV1) (mv : Cells UInt16) : List JsonCall :=
  let cells := min s.cellCount.toNat 4
  let head : List JsonCall :=
    [socOrNull s.bmsSoc,.str (text "soc_source") (some (socSourceName s.bmsFlags)),.u32 (text "pack_mv") s.packMv.toUInt32,
      .i32 (text "pack_ma") s.packMa.toInt32,.u32 (text "cell_count") s.cellCount.toUInt32]
  let rest : List JsonCall := [.u32 (text "cycles") s.bmsCycles.toUInt32,.decimal (text "capacity_ah") s.bmsCapacityDah.toNat 1]
  head ++ cellMvCalls cells mv ++ cellTempCalls cells s.cellTempC ++ rest ++ alarmCalls s

-- The link and its age say why a block is stale, and the count of charge drawn is the node's own.
def linkCalls (s : GateLinkStatusV1) (ahDrawn : Option UInt16) (synthetic : Bool) : List JsonCall :=
  let drawn : JsonCall :=
    match ahDrawn with
    | none => .null (text "ah_drawn")
    | some v => if v = u16NotAvailable then .null (text "ah_drawn") else .decimal (text "ah_drawn") v.toNat 1
  [if s.bmsRssiNeg = 0 then .null (text "ble_rssi_dbm") else .i32 (text "ble_rssi_dbm") (Int32.ofInt (-s.bmsRssiNeg.toNat)),
    if s.bmsAgeS = u16NotAvailable then .null (text "age_s") else .u32 (text "age_s") s.bmsAgeS.toUInt32,
    drawn,.boolean (text "synthetic") synthetic]

def batteryCalls (ok : Bool) (s : GateLinkStatusV1) (mv : Cells UInt16) (ahDrawn : Option UInt16) (synthetic : Bool) : List JsonCall :=
  .boolean (text "available") ok :: (if ok then packCalls s mv else batteryKeys.map .null) ++ linkCalls s ahDrawn synthetic

-- What moves with every frame stands behind the mark.
def nodeCalls (s : GateLinkStatusV1) (utcAtRx : Int64) (fireSensed synthetic : Bool) : List JsonCall × List JsonCall :=
  let booted := utcAtRx - Int64.ofNat s.uptimeS.toNat
  ([if s.bootCount = 0 then .null (text "boot_count") else .u32 (text "boot_count") s.bootCount.toUInt32,
      .u32 (text "node_mv") s.nodeMv.toUInt32,.i32 (text "node_ma") s.nodeMa.toInt32,tenthsOrNull (text "enclosure_temp_c") s.enclosureTempC10,
      .boolean (text "config_persisted") (bit s.nodeFlags kNodeConfigPersisted),.boolean (text "sd_ok") (bit s.nodeFlags kNodeSdOk),
      .boolean (text "dry_run") (bit s.nodeFlags kNodeDryRun),.boolean (text "bms_ble") (bit s.nodeFlags kNodeBmsBle),
      .boolean (text "debug") (bit s.nodeFlags kNodeDebug),
      if fireSensed then .boolean (text "shutdown_latch") (bit s.nodeFlags kNodeShutdownLatch) else .null (text "shutdown_latch"),
      .boolean (text "fire_inputs_sensed") fireSensed,strOrNull (text "reason") (statusReasonName s.statusReason),
      .boolean (text "synthetic") synthetic],
    [.u32 (text "uptime_s") s.uptimeS,
      utcOrNull (text "boot_time") (decide (kUtcPlausible ≤ utcAtRx) && decide (0 ≤ booted)) ((booted + 30) / 60 * 60)])

def PublicationPolicy.hold (p : PublicationPolicy) (ni : Nat) (held : Held) : PublicationPolicy := {p with held := Function.update p.held ni held}

-- The five blocks of a decoded frame: each moves what it holds, and its document is offered before the next.

def PublicationPolicy.gateDocument (p : PublicationPolicy) (ni : Nat) (token : Bytes) (s : GateLinkStatusV1) (fireSensed synthetic : Bool)
    (nowMs : UInt32) (sink : Sink) : Offers × PublicationPolicy :=
  let (cover,stable) := coverState s.gateState (p.held ni).stable
  (p.hold ni {p.held ni with stable := stable}).offer ni .gate token (render (gateCalls s cover fireSensed synthetic) []) nowMs sink

def PublicationPolicy.detectDocument (p : PublicationPolicy) (ni : Nat) (token : Bytes) (s : GateLinkStatusV1) (synthetic : Bool)
    (nowMs : UInt32) (utcAtRx : Int64) (sink : Sink) : Offers × PublicationPolicy :=
  let held := (p.held ni).traverse s utcAtRx
  (p.hold ni held).offer ni .detect token (render (detectCalls s held synthetic) []) nowMs sink

def PublicationPolicy.solarDocument (p : PublicationPolicy) (ni : Nat) (token : Bytes) (s : GateLinkStatusV1) (synthetic : Bool)
    (nowMs : UInt32) (sink : Sink) : Offers × PublicationPolicy :=
  p.offer ni .solar token (render (solarCalls s synthetic) []) nowMs sink

def PublicationPolicy.batteryDocument (p : PublicationPolicy) (ni : Nat) (token : Bytes) (s : GateLinkStatusV1) (ahDrawn : Option UInt16)
    (synthetic : Bool) (nowMs : UInt32) (sink : Sink) : Offers × PublicationPolicy :=
  let held := (p.held ni).batteryBlock p.levers s
  (p.hold ni held).offer ni .battery token (render (batteryCalls (bmsAvailable p.levers s) s held.cellMv ahDrawn synthetic) []) nowMs sink

def PublicationPolicy.nodeDocument (p : PublicationPolicy) (ni : Nat) (token : Bytes) (s : GateLinkStatusV1) (fireSensed synthetic : Bool)
    (nowMs : UInt32) (utcAtRx : Int64) (sink : Sink) : Offers × PublicationPolicy :=
  let (head,tail) := nodeCalls s utcAtRx fireSensed synthetic
  p.offer ni .node token (render head tail) nowMs sink

def isSynthetic (s : GateLinkStatusV1) : Bool := decide (s.statusReason = 0xFF)

def PublicationPolicy.statusDocuments (p : PublicationPolicy) (ni : Nat) (token : Bytes) (s : GateLinkStatusV1) (ahDrawn : Option UInt16)
    (nowMs : UInt32) (utcAtRx : Int64) (sink : Sink) : Offers × PublicationPolicy :=
  let synthetic := isSynthetic s
  let fireSensed := !bit s.nodeFlags kNodeFireUnsensed
  let gate := p.gateDocument ni token s fireSensed synthetic nowMs sink
  let detect := gate.2.detectDocument ni token s synthetic nowMs utcAtRx sink
  let solar := detect.2.solarDocument ni token s synthetic nowMs sink
  let battery := solar.2.batteryDocument ni token s ahDrawn synthetic nowMs sink
  let node := battery.2.nodeDocument ni token s fireSensed synthetic nowMs utcAtRx sink
  (gate.1 ++ detect.1 ++ solar.1 ++ battery.1 ++ node.1,node.2)

-- What a status payload decodes to: the two layouts of a gate's status, the newer one with one field more.
def decodeStatus (schema : SchemaId) (payload : Bytes) : Option (GateLinkStatusV1 × Option UInt16) :=
  if schema = schemaGateLinkStatusV2 then
    match GateLinkStatusV2.deserialize (memoryOf payload) payload.length with
    | some (.ok v2) => some (v2.v1,some v2.ahDrawnDah)
    | _ => none
  else if schema = schemaGateLinkStatusV1 ∨ schema = schemaSimnodeStatusV1 then
    match GateLinkStatusV1.deserialize (memoryOf payload) payload.length with
    | some (.ok v1) => some (v1,none)
    | _ => none
  else none

def PublicationPolicy.onStatus (p : PublicationPolicy) (info : NodeInfo) (hdr : Header) (payload : Bytes) (nowMs : UInt32) (utcAtRx : Int64)
    (sink : Sink) : Offers × PublicationPolicy :=
  if hdr.type ≠ .status then ([],p)
  else
    let p := p.count fun s => {s with statusFrames := s.statusFrames + 1}
    let ni := nodeIndex info.id
    let undecodable : Offers × PublicationPolicy := ([],p.count fun s => {s with undecodable := s.undecodable + 1})
    let withheld : Offers × PublicationPolicy := ([],p.count fun s => {s with benchWithheld := s.benchWithheld + 1})
    match (if ni < nodeTable.length then nodeTopicName info.id else none) with
    | none => undecodable
    | some token =>
        if hdr.schema = schemaNodeHealthV1 then
          match NodeHealthV1.deserialize (memoryOf payload) payload.length with
          | some (.ok h) =>
              if info.isBench then withheld
              else p.offer ni .health token (render (healthCalls h).1 (healthCalls h).2) nowMs sink
          | _ => undecodable
        else
          match decodeStatus hdr.schema payload with
          | none => undecodable
          | some (s,ahDrawn) => if info.isBench then withheld else p.statusDocuments ni token s ahDrawn nowMs utcAtRx sink

end LoraRan.Bridge.Publish
